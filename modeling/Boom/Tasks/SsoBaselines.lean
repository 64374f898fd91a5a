import Boom.Enrichment.Alone
import Boom.Foundations.Gathered
import Mathlib.Data.String.Basic

/-! # Baselines of moving objects

The archived detections are read in order of designation, and each object's are fitted when those
of another begin or none are left.  Fits are written in batches, and a pass may end early, at a
limit of objects or by cancellation.

What a pass writes is what the detections of each designation say, one designation after the
other.  The store answers every read and write, and the fit of one band is any function of its
points. -/

namespace Boom.Tasks.SsoBaselines

open Boom.Foundations Boom.Enrichment

/-! ## The pass -/

structure SsoBaselinesParams where
  batchSize : Nat := 1000
  dryRun : Bool := false
  limit : Option Nat := none

def MAX_BATCH_SIZE : Nat := 100000

def SsoBaselinesParams.validateParams (params : SsoBaselinesParams) : Except String Unit :=
  if params.batchSize = 0 ∨ MAX_BATCH_SIZE < params.batchSize then
    .error s!"batch_size must be between 1 and {MAX_BATCH_SIZE}"
  else if params.limit = some 0 then .error "limit must be greater than zero"
  else .ok ()

abbrev Replacement := String × Fields

structure Store where
  baselines : Collection String Fields
  replaced : List Replacement := []

def Store.replaceOne (store : Store) (model : Replacement) : Store × Nat :=
  ({ baselines := store.baselines.replaceOne model.1 model.2, replaced := store.replaced ++ [model] },
    if store.baselines.get model.1 = some model.2 then 0 else 1)

def Store.bulkWrite (store : Store) (models : List Replacement) : Store × Nat :=
  models.foldl (fun (store, count) model =>
    let (store, changed) := store.replaceOne model
    (store, count + changed)) (store, 0)

inductive TaskError where
  | canceled
deriving DecidableEq

structure Report where
  objectsScanned : Nat
  objectsFitted : Nat
  baselinesWritten : Nat
  dryRun : Bool
deriving DecidableEq

/-- The variables of the loop, and the store. -/
structure Loop where
  store : Store
  pending : List Replacement := []
  objects : Nat := 0
  fitted : Nat := 0
  written : Nat := 0
  current : Option (String × List Point) := none
  done : Bool := false

def pointFrom (numerics : Numerics) (doc : Fields) : Option (String × Point) := do
  let candidate ← getDocument doc "candidate"
  let sso ← (getDocument doc "properties").bind (getDocument · "sso")
  let number (fields : Fields) (key : String) : Option F64 := (fields.lookup key).bind numerics.bsonNumber
  return (← getStr candidate "ssnamenr", {
    rh := ← number sso "helio_dist"
    delta := ← number sso "topo_dist"
    phase := ← number sso "phase_angle"
    mag := ← number candidate "magpsf"
    magErr := ← number candidate "sigmapsf"
    band := numerics.toByte (← number candidate "fid") })

structure Fitting where
  numerics : Numerics
  fit : List Point → Option PhaseCurve
  order : String → List (Nat × PhaseCurve) → List (Nat × PhaseCurve)
  order_perm : ∀ designation curves, (order designation curves).Perm curves
  now : F64

variable (fitting : Fitting) (params : SsoBaselinesParams)

def fitBands (points : List Point) : List (Nat × PhaseCurve) :=
  (grouped Point.band points).filterMap fun (band, bandPoints) => (fitting.fit bandPoints).map fun curve => (band, curve)

def baselineDocument (designation : String) (curves : List (Nat × PhaseCurve)) : Fields :=
  let bands := (fitting.order designation curves).map fun (band, curve) =>
    (toString band, Bson.document
      [("h", .double curve.h), ("g12", .double curve.g12), ("scatter", .double curve.scatter), ("n", .int64 curve.n)])
  [("_id", .string designation), ("bands", .document bands), ("updated_at", .double fitting.now)]

def finishObject (loop : Loop) : Loop :=
  match loop.current with
  | none => loop
  | some (name, points) =>
    let curves := fitBands fitting points
    let objects := loop.objects + 1
    { loop with
      current := none
      objects := objects
      fitted := if curves.isEmpty then loop.fitted else loop.fitted + 1
      pending := if curves.isEmpty then loop.pending else loop.pending ++ [(name, baselineDocument fitting name curves)]
      done := loop.done || params.limit.any fun limit => decide (limit ≤ objects) }

def flush (exhausted : Bool) (loop : Loop) : Loop :=
  if params.batchSize ≤ loop.pending.length ∨ ((loop.done || exhausted) = true ∧ loop.pending ≠ []) then
    if params.dryRun then { loop with written := loop.written + loop.pending.length, pending := [] }
    else
      let (store, changed) := loop.store.bulkWrite loop.pending
      { loop with store := store, written := loop.written + changed, pending := [] }
  else loop

def boundary (current : Option (String × List Point)) (incoming : Option (String × Point)) (exhausted : Bool) : Bool :=
  match current, incoming with
  | some (name, _), some (nextName, _) => name != nextName
  | some _, none => exhausted
  | none, _ => false

def advance (incoming : Option (String × Point)) (exhausted : Bool) (loop : Loop) : Loop :=
  let loop :=
    if boundary loop.current incoming exhausted || (exhausted && loop.current.isSome) then finishObject fitting params loop
    else loop
  flush params exhausted loop

def take (incoming : Option (String × Point)) (loop : Loop) : Loop :=
  match incoming with
  | none => loop
  | some (name, point) =>
    match loop.current with
    | some (currentName, points) =>
      if currentName = name then { loop with current := some (currentName, points ++ [point]) }
      else { loop with current := some (name, [point]) }
    | none => { loop with current := some (name, [point]) }

def iterate (isCanceled : Nat → Bool) : List Fields → Nat → Loop → Loop × Bool
  | [], iteration, loop => (advance fitting params none true loop, isCanceled iteration)
  | doc :: rest, iteration, loop =>
    let incoming := pointFrom fitting.numerics doc
    let loop := advance fitting params incoming false loop
    if isCanceled iteration then (loop, true)
    else if loop.done then (loop, false)
    else iterate isCanceled rest (iteration + 1) (take incoming loop)

def run (docs : List Fields) (isCanceled : Nat → Bool) (store : Store) : Store × Except TaskError Report :=
  let (loop, canceled) := iterate fitting params isCanceled docs 0 { store := store }
  (loop.store,
    if canceled then .error .canceled
    else
      .ok
        { objectsScanned := loop.objects
          objectsFitted := loop.fitted
          baselinesWritten := loop.written
          dryRun := params.dryRun })

/-! ## The store -/

def Store.replaceAll (store : Store) (models : List Replacement) : Store :=
  models.foldl (fun store model => (store.replaceOne model).1) store

theorem Store.bulkWrite_fst (store : Store) (models : List Replacement) :
    (store.bulkWrite models).1 = store.replaceAll models := by
  suffices all : ∀ count : Nat, (models.foldl (fun (pair : Store × Nat) model =>
      ((pair.1.replaceOne model).1, pair.2 + (pair.1.replaceOne model).2)) (store, count)).1 = store.replaceAll models from
    all 0
  induction models generalizing store with
  | nil => exact fun _ => rfl
  | cons model rest ih => exact fun count => ih _ _

theorem Store.replaceAll_append (store : Store) (models later : List Replacement) :
    store.replaceAll (models ++ later) = (store.replaceAll models).replaceAll later :=
  List.foldl_append

theorem Store.replaced_replaceAll (store : Store) (models : List Replacement) :
    (store.replaceAll models).replaced = store.replaced ++ models := by
  induction models generalizing store with
  | nil => simp [replaceAll]
  | cons model rest ih =>
    have step := ih (store.replaceOne model).1
    rw [replaceAll, List.foldl_cons, ← replaceAll, step]
    simp [replaceOne]

theorem Store.get_replaceOne (store : Store) (model : Replacement) (name : String) :
    (store.replaceOne model).1.baselines.get name =
      if name = model.1 then some model.2 else store.baselines.get name :=
  Collection.get_replaceOne _ _ _ _

theorem Store.get_replaceAll_of_notMem {store : Store} {models : List Replacement} {name : String}
    (absent : name ∉ models.map Prod.fst) : (store.replaceAll models).baselines.get name = store.baselines.get name := by
  have steps : ∀ model ∈ models, ∀ store : Store, model.1 ≠ name →
      (store.replaceOne model).1.baselines.get name = store.baselines.get name := by
    intro model _ store differ
    rw [get_replaceOne, if_neg (Ne.symm differ)]
  have others : ∀ model ∈ models, model.1 ≠ name := by
    intro model there same
    exact absent (List.mem_map.mpr ⟨model, there, same⟩)
  exact foldl_of_notMem _ (fun store : Store => store.baselines.get name) steps others store

theorem Store.get_replaceAll_of_mem {store : Store} {models : List Replacement} {model : Replacement}
    (once : (models.map Prod.fst).Nodup) (there : model ∈ models) :
    (store.replaceAll models).baselines.get model.1 = some model.2 := by
  have steps : ∀ other ∈ models, ∀ store : Store, other.1 ≠ model.1 →
      (store.replaceOne other).1.baselines.get model.1 = store.baselines.get model.1 := by
    intro other _ store differ
    rw [get_replaceOne, if_neg (Ne.symm differ)]
  have sets : ∀ store : Store, (store.replaceOne model).1.baselines.get model.1 = some model.2 := by
    intro store
    rw [get_replaceOne, if_pos rfl]
  exact foldl_of_mem _ (fun store : Store => store.baselines.get model.1) steps sets rfl once there store

/-! ## Objects -/

def cut {α : Type} (limit : Option Nat) (items : List α) : List α :=
  match limit with
  | none => items
  | some limit => items.take limit

def reached (limit : Option Nat) (count : Nat) : Bool := limit.any fun limit => decide (limit ≤ count)

theorem cut_map {α β : Type} (limit : Option Nat) (change : α → β) (items : List α) :
    cut limit (items.map change) = (cut limit items).map change := by
  cases limit with
  | none => rfl
  | some limit => exact List.map_take.symm

section

variable {α : Type} {limit : Option Nat} {items : List α}

section

variable (within : ∀ bound ∈ limit, items.length ≤ bound)
include within

theorem prefix_cut (more : List α) : items <+: cut limit (items ++ more) := by
  cases limit with
  | none => exact List.prefix_append items more
  | some bound => exact List.prefix_take_iff.mpr ⟨List.prefix_append items more, within bound rfl⟩

theorem cut_of_within : cut limit items = items := by
  cases limit with
  | none => rfl
  | some bound => exact List.take_of_length_le (within bound rfl)

theorem cut_of_reached (full : reached limit items.length = true)
    (more : List α) : cut limit (items ++ more) = items := by
  cases limit with
  | none => simp [reached] at full
  | some bound =>
    have exact_ : items.length = bound := Nat.le_antisymm (within bound rfl) (by simpa [reached] using full)
    rw [cut, ← exact_, List.take_left]

end

end

def fitOf (object : String × List Point) : Option Fields :=
  let curves := fitBands fitting object.2
  if curves.isEmpty then none else some (baselineDocument fitting object.1 curves)

def fits (objects : List (String × List Point)) : List Replacement :=
  objects.filterMap fun object => (fitOf fitting object).map fun document => (object.1, document)

def toCome (current : Option (String × List Point)) (rows : List (String × Point)) : List (String × List Point) :=
  match current with
  | none => consecutive rows
  | some (name, points) => joinFrom name points rows

structure Progress (initial : Store) (ended stored : List (String × List Point)) (loop : Loop) : Prop where
  begun : stored <+: ended
  pending : fits fitting ended = fits fitting stored ++ loop.pending
  store : loop.store = if params.dryRun then initial else initial.replaceAll (fits fitting stored)
  objects : loop.objects = ended.length
  fitted : loop.fitted = (fits fitting ended).length
  done : loop.done = reached params.limit ended.length
  within : ∀ limit ∈ params.limit, ended.length ≤ limit

variable {fitting params} {initial : Store} {ended stored : List (String × List Point)} {loop : Loop}

theorem fits_concat (objects : List (String × List Point)) (object : String × List Point) :
    fits fitting (objects ++ [object]) =
      fits fitting objects ++ ((fitOf fitting object).map fun document => (object.1, document)).toList := by
  simp only [fits, List.filterMap_append]
  cases fit : fitOf fitting object with
  | none => simp [fit]
  | some document => simp [fit]

section

variable (progress : Progress fitting params initial ended stored loop)
include progress

theorem Progress.withCurrent (current : Option (String × List Point)) :
    Progress fitting params initial ended stored { loop with current := current } :=
  { progress with }

theorem progress_take (incoming : Option (String × Point)) :
    Progress fitting params initial ended stored (take incoming loop) := by
  unfold take
  split
  next => exact progress
  next =>
    split
    next =>
      split
      next => exact progress.withCurrent _
      next => exact progress.withCurrent _
    next => exact progress.withCurrent _

theorem progress_finishObject (going : loop.done = false)
    {object : String × List Point} (isCurrent : loop.current = some object) :
    Progress fitting params initial (ended ++ [object]) stored (finishObject fitting params loop) ∧
      (finishObject fitting params loop).current = none := by
  obtain ⟨name, points⟩ := object
  have counted : (ended ++ [(name, points)]).length = loop.objects + 1 := by simp [progress.objects]
  have within : ∀ limit ∈ params.limit, (ended ++ [(name, points)]).length ≤ limit := by
    intro limit isLimit
    -- The limit has not been reached before.
    have below := progress.done.symm.trans going
    rw [isLimit, reached] at below
    simpa [Nat.add_one_le_iff] using below
  have done : (loop.done || params.limit.any fun limit => decide (limit ≤ loop.objects + 1)) =
      reached params.limit (ended ++ [(name, points)]).length := by
    rw [going, counted, Bool.false_or, reached]
  unfold finishObject
  rw [isCurrent]
  dsimp only
  refine ⟨?_, rfl⟩
  have written : fits fitting (ended ++ [(name, points)]) =
      if (fitBands fitting points).isEmpty then fits fitting ended
      else fits fitting ended ++ [(name, baselineDocument fitting name (fitBands fitting points))] := by
    rw [fits_concat, fitOf]
    dsimp only
    split
    · exact List.append_nil _
    · rfl
  refine
    { begun := progress.begun.trans (List.prefix_append _ _)
      pending := ?_
      store := progress.store
      objects := counted.symm
      fitted := ?_
      done := done
      within := within }
  · rw [written, progress.pending]
    split
    · rfl
    · rw [List.append_assoc]
  · rw [written, progress.fitted]
    dsimp only
    split
    · rfl
    · rw [List.length_append, List.length_singleton]

end

@[simp] theorem current_flush (exhausted : Bool) (loop : Loop) : (flush params exhausted loop).current = loop.current := by
  unfold flush
  split
  next => split <;> rfl
  next => rfl

@[simp] theorem done_flush (exhausted : Bool) (loop : Loop) : (flush params exhausted loop).done = loop.done := by
  unfold flush
  split
  next => split <;> rfl
  next => rfl

section

variable (progress : Progress fitting params initial ended stored loop)
include progress

theorem progress_flush (exhausted : Bool) :
    ∃ stored', Progress fitting params initial ended stored' (flush params exhausted loop) ∧
      ((loop.done || exhausted) = true → stored' = ended) := by
  unfold flush
  split
  next full =>
    refine ⟨ended, ?_, fun _ => rfl⟩
    split
    next dry =>
      exact { progress with
        begun := List.prefix_rfl
        pending := (List.append_nil _).symm
        store := by rw [progress.store, if_pos dry, if_pos dry] }
    next wet =>
      refine { progress with
        begun := List.prefix_rfl
        pending := (List.append_nil _).symm
        store := ?_ }
      have before := progress.store
      rw [if_neg wet] at before ⊢
      show (loop.store.bulkWrite loop.pending).1 = _
      rw [Store.bulkWrite_fst, before, ← Store.replaceAll_append, ← progress.pending]
  next less =>
    by_cases ends : (loop.done || exhausted) = true
    · have empty : loop.pending = [] := by
        by_contra some_
        exact less (.inr ⟨ends, some_⟩)
      have same : fits fitting ended = fits fitting stored := by rw [progress.pending, empty, List.append_nil]
      refine ⟨ended, ?_, fun _ => rfl⟩
      exact { progress with
        begun := List.prefix_rfl
        pending := by rw [empty, List.append_nil]
        store := by rw [same]; exact progress.store }
    · exact ⟨stored, progress, fun is => absurd is ends⟩

theorem progress_advance (going : loop.done = false) (incoming : Option (String × Point)) :
    ∃ ended' stored', Progress fitting params initial ended' stored' (advance fitting params incoming false loop) ∧
      ((advance fitting params incoming false loop).done = true → stored' = ended') ∧
      ∀ rows, ended' ++ toCome (take incoming (advance fitting params incoming false loop)).current rows =
        ended ++ toCome loop.current (incoming.toList ++ rows) := by
  unfold advance
  dsimp only
  rw [Bool.false_and, Bool.or_false]
  by_cases ends : boundary loop.current incoming false = true
  · rw [if_pos ends]
    -- Only another designation ends an object.
    rcases isCurrent : loop.current with _ | ⟨name, points⟩
    · simp [boundary, isCurrent] at ends
    rcases incoming with _ | ⟨nextName, point⟩
    · simp [boundary, isCurrent] at ends
    · have differ : name ≠ nextName := by simpa [boundary, isCurrent] using ends
      obtain ⟨later, isNone⟩ := progress_finishObject progress going isCurrent
      obtain ⟨stored', last, all⟩ := progress_flush later false
      refine ⟨_, stored', last, fun done => all (by simpa using done), fun rows => ?_⟩
      simp [take, isNone, toCome, joinFrom, differ]
  · rw [if_neg ends]
    obtain ⟨stored', last, all⟩ := progress_flush progress false
    refine ⟨ended, stored', last, fun done => all (by simpa using done), fun rows => ?_⟩
    rcases isCurrent : loop.current with _ | ⟨name, points⟩ <;> rcases incoming with _ | ⟨nextName, point⟩
    · simp [take, isCurrent]
    · simp [take, isCurrent, toCome, consecutive_cons]
    · simp [take, isCurrent]
    · have same : name = nextName := by simpa [boundary, isCurrent] using ends
      simp [take, isCurrent, toCome, joinFrom, same]

theorem progress_last (going : loop.done = false) :
    Progress fitting params initial (ended ++ toCome loop.current []) (ended ++ toCome loop.current [])
      (advance fitting params none true loop) := by
  unfold advance
  dsimp only
  match isCurrent : loop.current with
  | none =>
    obtain ⟨stored', last, all⟩ := progress_flush progress true
    obtain rfl := all (by simp)
    simpa [boundary, isCurrent, toCome, consecutive] using last
  | some (name, points) =>
    obtain ⟨later, -⟩ := progress_finishObject progress going isCurrent
    obtain ⟨stored', last, all⟩ := progress_flush later true
    obtain rfl := all (by simp)
    simpa [boundary, isCurrent, toCome, joinFrom] using last

end

def usable (numerics : Numerics) (docs : List Fields) : List (String × Point) := docs.filterMap (pointFrom numerics)

theorem iterate_spec (isCanceled : Nat → Bool) (docs : List Fields) (iteration : Nat)
    (progress : Progress fitting params initial ended stored loop) (going : loop.done = false) :
    ∃ ended' stored', Progress fitting params initial ended' stored' (iterate fitting params isCanceled docs iteration loop).1 ∧
      ended' <+: cut params.limit (ended ++ toCome loop.current (usable fitting.numerics docs)) ∧
      ((iterate fitting params isCanceled docs iteration loop).2 = false →
        ended' = cut params.limit (ended ++ toCome loop.current (usable fitting.numerics docs)) ∧ stored' = ended') := by
  induction docs generalizing ended stored loop iteration with
  | nil =>
    have last := progress_last progress going
    have whole := cut_of_within last.within
    refine ⟨_, _, last, ?_, fun _ => ⟨?_, rfl⟩⟩
    · exact whole.symm ▸ List.prefix_rfl
    · exact whole.symm
  | cons doc rest ih =>
    obtain ⟨ended', stored', later, all, same⟩ := progress_advance progress going (pointFrom fitting.numerics doc)
    have rows : usable fitting.numerics (doc :: rest) =
        (pointFrom fitting.numerics doc).toList ++ usable fitting.numerics rest := by
      rw [usable, List.filterMap_cons]
      cases pointFrom fitting.numerics doc <;> rfl
    rw [rows, ← same]
    unfold iterate
    dsimp only
    split
    next => exact ⟨ended', stored', later, prefix_cut later.within _, fun going => absurd going (by simp)⟩
    next =>
      split
      next done =>
        have whole := cut_of_reached later.within (later.done.symm.trans done)
          (toCome (take (pointFrom fitting.numerics doc)
            (advance fitting params (pointFrom fitting.numerics doc) false loop)).current (usable fitting.numerics rest))
        exact ⟨ended', stored', later, prefix_cut later.within _, fun _ => ⟨whole.symm, all done⟩⟩
      next more =>
        have going' : (take (pointFrom fitting.numerics doc)
            (advance fitting params (pointFrom fitting.numerics doc) false loop)).done = false := by
          rw [(progress_take later _).done, ← later.done]
          simpa using more
        exact ih (iteration + 1) (progress_take later _) going'

/-! ## One group for each designation -/

theorem isGathered_of_sorted {rows : List (String × Point)} (sorted : (rows.map Prod.fst).Pairwise (· ≤ ·)) : IsGathered rows := by
  intro name other differ between
  have ordered := sorted.sublist between
  simp only [List.pairwise_cons, List.mem_cons, List.not_mem_nil, or_false] at ordered
  exact differ (le_antisymm (ordered.1 other (.inl rfl)) (ordered.2.1 name rfl))

variable (fitting params) in
def designations (docs : List Fields) : List String := cut params.limit (appeared Prod.fst (usable fitting.numerics docs))

variable (fitting) in
def baselineOf (docs : List Fields) (name : String) : Option Fields :=
  fitOf fitting (name, membersOf name (usable fitting.numerics docs))

variable (fitting) in
def baselinesOf (docs : List Fields) (names : List String) : List Replacement :=
  names.filterMap fun name => (baselineOf fitting docs name).map fun document => (name, document)

structure Wrote (made : List Replacement) (before after : Store) : Prop where
  replaced : after.replaced = before.replaced ++ made
  once : (made.map Prod.fst).Nodup
  stored : ∀ name document, (name, document) ∈ made → after.baselines.get name = some document
  unchanged : ∀ name, name ∉ made.map Prod.fst → after.baselines.get name = before.baselines.get name

theorem wrote_replaceAll {made : List Replacement} (once : (made.map Prod.fst).Nodup) (store : Store) :
    Wrote made store (store.replaceAll made) where
  replaced := store.replaced_replaceAll made
  once := once
  stored _ _ there := Store.get_replaceAll_of_mem once there
  unchanged _ absent := Store.get_replaceAll_of_notMem absent

variable (docs : List Fields)

theorem baselinesOf_sublist (names : List String) :
    ((baselinesOf fitting docs names).map Prod.fst).Sublist names := by
  induction names with
  | nil => exact List.nil_sublist []
  | cons name rest ih =>
    unfold baselinesOf at ih ⊢
    rw [List.filterMap_cons]
    cases baselineOf fitting docs name with
    | none => exact ih.cons name
    | some document => exact ih.cons_cons name

theorem nodup_baselinesOf {names : List String} (once : names.Nodup) (docs : List Fields) :
    ((baselinesOf fitting docs names).map Prod.fst).Nodup :=
  once.sublist (baselinesOf_sublist docs names)

theorem nodup_designations : (designations fitting params docs).Nodup := by
  have once := nodup_appeared Prod.fst (usable fitting.numerics docs)
  unfold designations cut
  split
  · exact once
  · exact once.sublist (List.take_sublist _ _)

theorem cut_toCome {docs : List Fields} (sorted : ((usable fitting.numerics docs).map Prod.fst).Pairwise (· ≤ ·)) :
    cut params.limit (toCome none (usable fitting.numerics docs)) =
      (designations fitting params docs).map fun name => (name, membersOf name (usable fitting.numerics docs)) := by
  rw [toCome, consecutive_eq (isGathered_of_sorted sorted), cut_map, designations]

theorem fits_map (names : List String) :
    fits fitting (names.map fun name => (name, membersOf name (usable fitting.numerics docs))) = baselinesOf fitting docs names := by
  rw [fits, List.filterMap_map]
  rfl

theorem wrote_nil (store : Store) : Wrote (baselinesOf fitting docs []) store store := by
  have none_ : (([] : List Replacement).map Prod.fst).Nodup := List.nodup_nil
  exact wrote_replaceAll none_ store

theorem prefix_map {α β : Type} {change : α → β} {items : List α} {first : List β} (begins : first <+: items.map change) :
    ∃ names, names <+: items ∧ first = names.map change := by
  refine ⟨items.take first.length, List.take_prefix _ _, ?_⟩
  rw [List.map_take]
  exact List.prefix_iff_eq_take.mp begins

variable (fitting params) in
/-- A pass that is done has made the replacements of the designations up to the limit, and one that is
    canceled those of the first of them. -/
theorem run_spec (docs : List Fields) (sorted : ((usable fitting.numerics docs).map Prod.fst).Pairwise (· ≤ ·))
    (limited : params.limit ≠ some 0) (isCanceled : Nat → Bool) (store : Store) :
    (∀ after report, run fitting params docs isCanceled store = (after, .ok report) →
      (params.dryRun = false → Wrote (baselinesOf fitting docs (designations fitting params docs)) store after) ∧
      report.objectsScanned = (designations fitting params docs).length ∧
      report.objectsFitted = (baselinesOf fitting docs (designations fitting params docs)).length) ∧
    ∀ after, run fitting params docs isCanceled store = (after, .error .canceled) →
      ∃ names, names <+: designations fitting params docs ∧ Wrote (baselinesOf fitting docs names) store after := by
  have start : Progress fitting params store [] [] { store := store } :=
    { begun := List.prefix_rfl
      pending := rfl
      store := by split <;> rfl
      objects := rfl
      fitted := rfl
      done := by
        match isLimit : params.limit with
        | none => rfl
        | some 0 => exact absurd isLimit limited
        | some (limit + 1) => rfl
      within := fun limit _ => Nat.zero_le limit }
  obtain ⟨ended, stored, last, begun, all⟩ := iterate_spec isCanceled docs 0 start rfl
  rw [List.nil_append, cut_toCome sorted] at begun all
  unfold run
  dsimp only
  generalize iterate fitting params isCanceled docs 0 { store := store } = result at last all
  obtain ⟨loop, canceled⟩ := result
  dsimp only at last all ⊢
  constructor
  · intro after report isRun
    cases canceled with
    | true => simp at isRun
    | false =>
      obtain ⟨rfl, rfl⟩ := all rfl
      simp only [Bool.false_eq_true, if_false, Prod.mk.injEq, Except.ok.injEq] at isRun
      obtain ⟨rfl, rfl⟩ := isRun
      refine ⟨fun wet => ?_, ?_, ?_⟩
      · rw [last.store, wet, if_neg Bool.false_ne_true, fits_map]
        exact wrote_replaceAll (nodup_baselinesOf (nodup_designations docs) docs) store
      · simp [last.objects]
      · rw [last.fitted, fits_map]
  · intro after isRun
    obtain rfl : loop.store = after := congrArg Prod.fst isRun
    rw [last.store]
    split
    · -- A dry run writes nothing.
      exact ⟨[], List.nil_prefix, wrote_nil docs store⟩
    · obtain ⟨names, isPrefix, rfl⟩ := prefix_map (last.begun.trans begun)
      rw [fits_map]
      exact ⟨names, isPrefix, wrote_replaceAll (nodup_baselinesOf ((nodup_designations docs).sublist isPrefix.sublist) docs) store⟩

/-! ### Two objects and a limit of one -/

def detection (designation : String) : Fields :=
  let number : Bson := .double F64.zero
  [("candidate", .document [("ssnamenr", .string designation), ("magpsf", number), ("sigmapsf", number), ("fid", number)]),
    ("properties", .document [("sso", .document [("helio_dist", number), ("topo_dist", number), ("phase_angle", number)])])]

def flatFitting : Fitting where
  numerics := ZtfEnrichmentWorker.zeros
  fit points := some ⟨F64.zero, F64.zero, F64.zero, points.length⟩
  order _ curves := curves
  order_perm _ curves := List.Perm.refl curves
  now := F64.zero

def detections : List Fields := [detection "10", [("_id", .int64 1)], detection "10", detection "20"]

theorem run_spec_of_two : ∃ document, Wrote [("10", document)] { baselines := .empty }
    (run flatFitting { limit := some 1 } detections (fun _ => false) { baselines := .empty }).1 := by
  have whole := (run_spec flatFitting { limit := some 1 } detections (by decide +kernel)
    (by decide) (fun _ => false) { baselines := .empty }).1 _ _ rfl
  exact ⟨_, whole.1 rfl⟩

end Boom.Tasks.SsoBaselines
