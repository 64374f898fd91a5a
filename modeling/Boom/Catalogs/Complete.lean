import Boom.Catalogs.AddCatalog

/-! # A complete catalog holds every record

What the state document lists is in the collection, unless the collection is dropped under
it.  A drop is followed by the deletion of the document, but comes before it: an execution
that crashes between the two, or another one that records a chunk there, leaves a document
over a collection without the records (`complete_over_nothing`).

`catalog_faithful` is what holds of runs whose drops come while nothing is listed, and in
which no execution reports what it saw or wrote before a drop. -/

namespace Boom.Catalogs

open Boom.Foundations

variable {ρ : Type} [DecidableEq ρ]

/-! ## What is reported -/

def CatalogStore.Holds (store : CatalogStore ρ) (archive : Archive ρ) (chunk : String) : Prop :=
  ∀ record ∈ archive.accepted chunk, record ∈ store.records

structure Faithful (archive : Archive ρ) (store : CatalogStore ρ) : Prop where
  listed : ∀ state, store.state = some state → ∀ chunk ∈ state.chunksDone, store.Holds archive chunk
  complete : ∀ state, store.state = some state → state.complete = true → ∀ chunk ∈ archive.chunks, store.Holds archive chunk

def Careful (slot : Nat) (store : CatalogStore ρ) (worker : CatalogWorker ρ) : Prop :=
  match worker.phase with
  | .dropping => ∀ state ∈ store.state, state.chunksDone = [] ∧ state.complete = false
  | .recording _ _ first => store.claimedBy slot = true → ∀ drops ∈ first, drops = store.drops
  | .finishing => store.claimedBy slot = true → worker.readAt = store.drops
  | _ => True

instance (slot : Nat) (store : CatalogStore ρ) (worker : CatalogWorker ρ) : Decidable (Careful slot store worker) := by
  unfold Careful
  split <;> infer_instance

def carefulRules (archive : Archive ρ) : Requests.Rules (CatalogStore ρ) (CatalogWorker ρ) where
  starts := (catalogRules archive).starts
  acts slot store worker store' after := (catalogRules archive).acts slot store worker store' after ∧ Careful slot store worker
  outside := (catalogRules archive).outside

/-! ## What an execution knows -/

def Through (archive : Archive ρ) (worker : CatalogWorker ρ) (counted rest : List String) : Prop :=
  ∃ passed, archive.chunks = passed ++ counted ++ rest ∧ passed.length + counted.length = worker.ingested + worker.resumed ∧
    ∀ chunk ∈ passed, chunk ∈ worker.done ∨ chunk ∈ worker.recorded

structure Written (archive : Archive ρ) (store : CatalogStore ρ) (chunk : String) (left : List ρ) (first : Option Nat) : Prop where
  untouched : first = none → left = archive.accepted chunk
  past : ∀ drops, first = some drops → drops ≤ store.drops
  inserted : first = some store.drops → ∀ record ∈ archive.accepted chunk, record ∈ left ∨ record ∈ store.records

structure Unclaimed (slot : Nat) (store : CatalogStore ρ) (worker : CatalogWorker ρ) : Prop where
  claim : store.claimedBy slot = false
  counts : worker.ingested + worker.resumed = 0
  recorded : worker.recorded = []

def Stands (archive : Archive ρ) (slot : Nat) (store : CatalogStore ρ) (worker : CatalogWorker ρ) : Prop :=
  match worker.phase with
  | .asking | .dropping | .deleting | .listing _ | .claiming _ => Unclaimed slot store worker
  | .looping rest => Through archive worker [] rest
  | .ingesting chunk rest left first => Through archive worker [] (chunk :: rest) ∧ Written archive store chunk left first
  | .recording chunk rest first => Through archive worker [chunk] rest ∧ Written archive store chunk [] first
  | .finishing => ∀ chunk ∈ archive.chunks, chunk ∈ worker.done ∨ chunk ∈ worker.recorded
  | .answered _ => True

/-- The invariant of an execution. -/
structure Knows (archive : Archive ρ) (slot : Nat) (store : CatalogStore ρ) (worker : CatalogWorker ρ) : Prop where
  past : worker.readAt ≤ store.drops
  done : worker.readAt = store.drops → ∀ chunk ∈ worker.done, store.Holds archive chunk
  recorded : ∀ state, store.state = some state → state.claim = slot → ∀ chunk ∈ worker.recorded, chunk ∈ state.chunksDone
  stands : Stands archive slot store worker

/-! ## The store over time -/

structure Later (slot : Nat) (store after : CatalogStore ρ) : Prop where
  drops : store.drops ≤ after.drops
  records : after.drops = store.drops → store.records ⊆ after.records
  claim : ∀ state', after.state = some state' → state'.claim = slot →
    ∃ state, store.state = some state ∧ state.claim = slot ∧ state.chunksDone ⊆ state'.chunksDone

omit [DecidableEq ρ] in
theorem Later.refl (slot : Nat) (store : CatalogStore ρ) : Later slot store store :=
  ⟨Nat.le_refl _, fun _ => List.Subset.refl _, fun state stored claim => ⟨state, stored, claim, List.Subset.refl _⟩⟩

theorem subset_record (state : CatalogState) (chunk : String) : state.chunksDone ⊆ (state.record chunk).chunksDone := by
  unfold CatalogState.record
  split
  · exact List.Subset.refl _
  · exact List.subset_append_left _ _

theorem later_act (archive : Archive ρ) (outcome : CatalogOutcome ρ) (slot : Nat) (store : CatalogStore ρ)
    (worker : CatalogWorker ρ) (other : Nat) (unclaimed : other ≠ slot ∨ ∀ dropped, worker.phase ≠ .claiming dropped) :
    Later other store (worker.act archive outcome slot store).1 := by
  unfold CatalogWorker.act
  cases phase : worker.phase with
  | asking => simp only; split <;> exact .refl other store
  | dropping => exact ⟨Nat.le_succ _, fun same => absurd same (Nat.succ_ne_self _), (Later.refl other store).claim⟩
  | deleting => exact ⟨Nat.le_refl _, fun _ => List.Subset.refl _, fun _ impossible => by cases impossible⟩
  | listing dropped => exact .refl other store
  | claiming dropped =>
    refine ⟨Nat.le_refl _, fun _ => List.Subset.refl _, ?_⟩
    rintro _ ⟨⟩ claim
    rcases unclaimed with differs | notClaiming
    · exact absurd claim.symm differs
    · exact absurd phase (notClaiming dropped)
  | looping rest => exact .refl other store
  | ingesting chunk rest left first =>
    simp only
    split
    · exact .refl other store
    · exact ⟨Nat.le_refl _, fun _ => List.subset_append_left _ _, (Later.refl other store).claim⟩
  | recording chunk rest first =>
    simp only
    split
    · refine ⟨Nat.le_refl _, fun _ => List.Subset.refl _, ?_⟩
      intro state' stored claim
      obtain ⟨state, before, rfl⟩ := Option.map_eq_some_iff.mp stored
      exact ⟨state, before, claim, subset_record state chunk⟩
    · exact .refl other store
  | finishing =>
    simp only
    split
    · refine ⟨Nat.le_refl _, fun _ => List.Subset.refl _, ?_⟩
      intro state' stored claim
      obtain ⟨state, before, rfl⟩ := Option.map_eq_some_iff.mp stored
      exact ⟨state, before, claim, List.Subset.refl _⟩
    · exact .refl other store
  | answered answer => exact .refl other store

variable {slot : Nat}

omit [DecidableEq ρ] in
theorem claimedBy_iff {store : CatalogStore ρ} :
    store.claimedBy slot = true ↔ ∃ state, store.state = some state ∧ state.claim = slot := by
  simp [CatalogStore.claimedBy, Option.any_eq_true]

variable {store after : CatalogStore ρ}

omit [DecidableEq ρ] in
theorem Later.unclaimed (later : Later slot store after)
    (unclaimed : store.claimedBy slot = false) : after.claimedBy slot = false := by
  rw [Bool.eq_false_iff] at unclaimed ⊢
  intro claimed
  obtain ⟨state', stored, claim⟩ := claimedBy_iff.mp claimed
  obtain ⟨state, before, same, _⟩ := later.claim state' stored claim
  exact unclaimed (claimedBy_iff.mpr ⟨state, before, same⟩)

omit [DecidableEq ρ] in
theorem Unclaimed.go {store : CatalogStore ρ} {worker : CatalogWorker ρ} (unclaimed : Unclaimed slot store worker)
    {phase : CatalogPhase ρ} : Unclaimed slot store (worker.go phase) :=
  ⟨unclaimed.claim, unclaimed.counts, unclaimed.recorded⟩

omit [DecidableEq ρ] in
theorem Unclaimed.frame {worker : CatalogWorker ρ}
    (unclaimed : Unclaimed slot store worker) (later : Later slot store after) : Unclaimed slot after worker :=
  ⟨later.unclaimed unclaimed.claim, unclaimed.counts, unclaimed.recorded⟩

omit [DecidableEq ρ] in
theorem Written.frame {archive : Archive ρ} {chunk : String} {left : List ρ}
    {first : Option Nat} (written : Written archive store chunk left first) (later : Later slot store after) :
    Written archive after chunk left first where
  untouched := written.untouched
  past := fun drops known => Nat.le_trans (written.past drops known) later.drops
  inserted := fun known record accepted => by
    have past := written.past _ known
    have same : after.drops = store.drops := Nat.le_antisymm past later.drops
    rw [same] at known
    rcases written.inserted known record accepted with inLeft | inserted
    · exact .inl inLeft
    · exact .inr (later.records same inserted)

omit [DecidableEq ρ] in
theorem Knows.frame {archive : Archive ρ} {worker : CatalogWorker ρ}
    (knows : Knows archive slot store worker) (later : Later slot store after) : Knows archive slot after worker where
  past := Nat.le_trans knows.past later.drops
  done := fun sinceRead chunk listed record accepted => by
    have same : after.drops = store.drops := Nat.le_antisymm (sinceRead ▸ knows.past) later.drops
    exact later.records same (knows.done (sinceRead.trans same) chunk listed record accepted)
  recorded := fun state' stored claim chunk recorded => by
    obtain ⟨state, before, same, subset⟩ := later.claim state' stored claim
    exact subset (knows.recorded state before same chunk recorded)
  stands := by
    have stands := knows.stands
    unfold Stands at stands ⊢
    split at stands
    · exact stands.frame later
    · exact stands.frame later
    · exact stands.frame later
    · exact stands.frame later
    · exact stands.frame later
    · exact stands
    · exact ⟨stands.1, stands.2.frame later⟩
    · exact ⟨stands.1, stands.2.frame later⟩
    · exact stands
    · trivial

/-! ## Steps -/

section Steps

variable {archive : Archive ρ} {slot : Nat} {store : CatalogStore ρ} {worker : CatalogWorker ρ}

section

variable (knows : Knows archive slot store worker)
include knows

omit [DecidableEq ρ] in
theorem Knows.go {phase : CatalogPhase ρ}
    (stands : Stands archive slot store (worker.go phase)) : Knows archive slot store (worker.go phase) :=
  ⟨knows.past, knows.done, knows.recorded, stands⟩

omit [DecidableEq ρ] in
theorem knows_ends {rest : List String} (through : Through archive worker [] rest) :
    Knows archive slot store (worker.ends archive) := by
  unfold CatalogWorker.ends
  split
  next complete =>
    apply knows.go
    obtain ⟨passed, whole, length, known⟩ := through
    -- all are counted, so none is left
    have counted : worker.ingested + worker.resumed = archive.chunks.length := by
      simpa [CatalogWorker.report] using complete
    have total := congrArg List.length whole
    simp only [List.length_append, List.length_nil, Nat.add_zero] at total length
    have nothing : rest = [] := List.eq_nil_of_length_eq_zero (by omega)
    intro chunk member
    apply known
    simpa [whole, nothing] using member
  next => exact knows.go trivial

omit [DecidableEq ρ] in
theorem knows_turn {rest : List String} (through : Through archive worker [] rest)
    (canceled : Bool) : Knows archive slot store (worker.turn archive canceled rest) := by
  unfold CatalogWorker.turn
  split
  next => exact knows_ends knows through
  next chunk rest =>
    split
    next isDone =>
      refine ⟨knows.past, knows.done, knows.recorded, ?_⟩
      obtain ⟨passed, whole, length, known⟩ := through
      refine ⟨passed ++ [chunk], by simp [whole], ?_, ?_⟩
      · simp only [List.length_append, List.length_cons, List.length_nil] at length ⊢
        omega
      · intro other member
        rcases List.mem_append.mp member with before | now
        · exact known other before
        · obtain rfl := List.mem_singleton.mp now
          exact .inl (by simpa using isDone)
    next =>
      split
      · have canceled : Knows archive slot store (.go { worker with canceled := true } (.looping (chunk :: rest))) :=
          ⟨knows.past, knows.done, knows.recorded, through⟩
        have ended := knows_ends canceled through
        exact ended
      split
      · exact knows_ends knows through
      · refine knows.go ⟨through, fun _ => rfl, ?_, ?_⟩
        · exact fun _ impossible => by cases impossible
        · exact fun impossible => by cases impossible

end

theorem Written.insert {chunk : String} {left : List ρ} {first : Option Nat}
    (written : Written archive store chunk left first) (batch : List ρ) :
    Written archive { store with records := store.records ++ batch } chunk (left.filter fun record => !batch.contains record)
      (some (first.getD store.drops)) := by
  constructor
  · exact fun impossible => by cases impossible
  · rintro _ ⟨⟩
    cases first with
    | none => exact Nat.le_refl _
    | some drops => exact written.past drops rfl
  · intro known record accepted
    have before : record ∈ left ∨ record ∈ store.records := by
      cases first with
      | none => exact .inl (written.untouched rfl ▸ accepted)
      | some drops => exact written.inserted known record accepted
    rcases before with inLeft | inserted
    · by_cases inBatch : record ∈ batch
      · exact .inr (List.mem_append_right _ inBatch)
      · exact .inl (List.mem_filter.mpr ⟨inLeft, by simpa using inBatch⟩)
    · exact .inr (List.mem_append_left _ inserted)

omit [DecidableEq ρ] in
theorem Written.holds {chunk : String} {first : Option Nat} (written : Written archive store chunk [] first)
    (undropped : ∀ drops, first = some drops → drops = store.drops) : store.Holds archive chunk := by
  intro record accepted
  cases first with
  | none =>
    rw [← written.untouched rfl] at accepted
    cases accepted
  | some drops =>
    rcases written.inserted (by rw [undropped drops rfl]) record accepted with impossible | inserted
    · cases impossible
    · exact inserted

/-- The next operation of an execution keeps what it knows. -/
theorem knows_act (outcome : CatalogOutcome ρ) (faithful : Faithful archive store) (knows : Knows archive slot store worker) :
    Knows archive slot (worker.act archive outcome slot store).1 (worker.act archive outcome slot store).2 := by
  have stands := knows.stands
  unfold Stands at stands
  cases phase : worker.phase with
  | claiming dropped =>
    rw [phase] at stands
    -- Nothing has been recorded before the state is claimed.
    have unclaimed : Unclaimed slot store worker := stands
    simp only [CatalogWorker.act, phase]
    refine ⟨knows.past, knows.done, ?_, ⟨[], rfl, ?_, by simp⟩⟩
    · intro state _ _ chunk recorded
      simp [CatalogWorker.go, unclaimed.recorded] at recorded
    · have counts := unclaimed.counts
      simp only [CatalogWorker.go, List.length_nil]
      omega
  | asking =>
    rw [phase] at stands
    have unclaimed : Unclaimed slot store worker := stands
    simp only [CatalogWorker.act, phase]
    split
    · exact knows.go unclaimed.go
    · exact knows.go unclaimed.go
  | dropping =>
    rw [phase] at stands
    have unclaimed : Unclaimed slot store worker := stands
    have later := later_act archive outcome slot store worker slot (.inr (by simp [phase]))
    simp only [CatalogWorker.act, phase] at later ⊢
    exact (knows.frame later).go (unclaimed.frame later).go
  | deleting =>
    rw [phase] at stands
    have unclaimed : Unclaimed slot store worker := stands
    have later := later_act archive outcome slot store worker slot (.inr (by simp [phase]))
    simp only [CatalogWorker.act, phase] at later ⊢
    exact (knows.frame later).go (unclaimed.frame later).go
  | listing dropped =>
    rw [phase] at stands
    have unclaimed : Unclaimed slot store worker := stands
    simp only [CatalogWorker.act, phase]
    refine ⟨Nat.le_refl _, fun _ chunk listed => ?_, knows.recorded, ⟨unclaimed.claim, unclaimed.counts, unclaimed.recorded⟩⟩
    cases stored : store.state with
    | none => simp [stored] at listed
    | some state => exact faithful.listed state stored chunk (by simpa [stored] using listed)
  -- The chunks done and those left are the archive's, whichever turn it is.
  | looping rest =>
    rw [phase] at stands
    simp only [CatalogWorker.act, phase]
    exact knows_turn knows stands outcome.canceled
  | ingesting chunk rest left first =>
    rw [phase] at stands
    obtain ⟨through, written⟩ : Through archive worker [] (chunk :: rest) ∧ Written archive store chunk left first := stands
    have later := later_act archive outcome slot store worker slot (.inr (by simp [phase]))
    simp only [CatalogWorker.act, phase] at later ⊢
    split
    -- A chunk is left only with nothing of it left to insert.
    next nothing =>
      obtain rfl := List.isEmpty_iff.mp nothing
      refine ⟨knows.past, knows.done, knows.recorded, ?_, written⟩
      obtain ⟨passed, whole, length, known⟩ := through
      refine ⟨passed, by simpa using whole, ?_, known⟩
      simp only [List.length_cons, List.length_nil] at length ⊢
      omega
    next something =>
      rw [if_neg something] at later
      exact (knows.frame later).go ⟨through, written.insert _⟩
  | recording chunk rest first =>
    rw [phase] at stands
    obtain ⟨through, written⟩ : Through archive worker [chunk] rest ∧ Written archive store chunk [] first := stands
    have later := later_act archive outcome slot store worker slot (.inr (by simp [phase]))
    simp only [CatalogWorker.act, phase] at later ⊢
    split
    next claimed =>
      rw [if_pos claimed] at later
      have framed := knows.frame later
      refine ⟨framed.past, framed.done, ?_, ?_⟩
      · intro state' stored claim other member
        rcases List.mem_append.mp member with before | now
        · exact framed.recorded state' stored claim other before
        · obtain rfl := List.mem_singleton.mp now
          obtain ⟨state, _, rfl⟩ := Option.map_eq_some_iff.mp stored
          unfold CatalogState.record
          split
          next listed => exact listed
          next => exact List.mem_append_right _ (List.mem_singleton.mpr rfl)
      · obtain ⟨passed, whole, length, known⟩ := through
        refine ⟨passed ++ [chunk], by simp [whole], ?_, ?_⟩
        · simpa using length
        · intro other member
          rcases List.mem_append.mp member with before | now
          · exact (known other before).imp id (List.mem_append_left _)
          · exact .inr (List.mem_append_right _ now)
    next => exact knows.go trivial
  | finishing =>
    have later := later_act archive outcome slot store worker slot (.inr (by simp [phase]))
    simp only [CatalogWorker.act, phase] at later ⊢
    split
    next claimed =>
      rw [if_pos claimed] at later
      exact (knows.frame later).go trivial
    next => exact knows.go trivial
  | answered answer =>
    simp only [CatalogWorker.act, phase]
    exact knows

theorem faithful_act (outcome : CatalogOutcome ρ) (faithful : Faithful archive store) (knows : Knows archive slot store worker)
    (careful : Careful slot store worker) : Faithful archive (worker.act archive outcome slot store).1 := by
  have stands := knows.stands
  unfold Stands at stands
  unfold Careful at careful
  unfold CatalogWorker.act
  cases phase : worker.phase with
  | asking => simp only; split <;> exact faithful
  | dropping =>
    rw [phase] at careful
    constructor
    · intro state stored chunk listed
      -- What is dropped is listed as done by no state.
      rw [(careful state stored).1] at listed
      cases listed
    · intro state stored complete
      rw [(careful state stored).2] at complete
      cases complete
  | deleting =>
    constructor
    · exact fun _ impossible => by cases impossible
    · exact fun _ impossible => by cases impossible
  | listing dropped => exact faithful
  | claiming dropped =>
    constructor
    · rintro _ ⟨⟩ chunk listed
      cases stored : store.state with
      | none => simp [CatalogState.claimed, stored] at listed
      | some state => exact faithful.listed state stored chunk (by simpa [CatalogState.claimed, stored] using listed)
    · rintro _ ⟨⟩ complete
      cases complete
  | looping rest => exact faithful
  -- Records are only added.
  | ingesting chunk rest left first =>
    simp only
    split
    · exact faithful
    · constructor
      · exact fun state stored chunk listed record accepted =>
          List.mem_append_left _ (faithful.listed state stored chunk listed record accepted)
      · exact fun state stored complete chunk member record accepted =>
          List.mem_append_left _ (faithful.complete state stored complete chunk member record accepted)
  | recording chunk rest first =>
    rw [phase] at stands careful
    obtain ⟨_, written⟩ : Through archive worker [chunk] rest ∧ Written archive store chunk [] first := stands
    simp only
    split
    next claimed =>
      constructor
      · intro state' stored other listed
        obtain ⟨state, before, rfl⟩ := Option.map_eq_some_iff.mp stored
        have known : other ∈ state.chunksDone ∨ other = chunk := by
          unfold CatalogState.record at listed
          split at listed
          · exact .inl listed
          · simpa using listed
        rcases known with known | rfl
        · exact faithful.listed state before other known
        -- The records of the chunk have been written, and none was dropped since.
        · exact written.holds (careful claimed)
      · intro state' stored complete
        obtain ⟨state, before, rfl⟩ := Option.map_eq_some_iff.mp stored
        exact faithful.complete state before complete
    next => exact faithful
  | finishing =>
    rw [phase] at stands careful
    simp only
    split
    next claimed =>
      constructor
      · intro state' stored
        obtain ⟨state, before, rfl⟩ := Option.map_eq_some_iff.mp stored
        exact faithful.listed state before
      · intro _ _ _ chunk member
        obtain ⟨state, stored, claim⟩ := claimedBy_iff.mp claimed
        -- Each chunk was done before, or recorded under this claim.
        rcases stands chunk member with isDone | recorded
        · exact knows.done (careful claimed) chunk isDone
        · exact faithful.listed state stored chunk (knows.recorded state stored claim chunk recorded)
    next => exact faithful
  | answered answer => exact faithful

end Steps

/-! ## Runs -/

def KnowsSlot (archive : Archive ρ) (slot : Nat) (store : CatalogStore ρ) : Option (CatalogWorker ρ) → Prop
  | none => store.claimedBy slot = false
  | some worker => Knows archive slot store worker

theorem catalog_kept (archive : Archive ρ) :
    Requests.Kept (carefulRules archive) (Faithful archive) (KnowsSlot archive) where
  starts := by
    rintro slot store _ _ unclaimed ⟨run, params, rfl⟩
    refine ⟨Nat.zero_le _, fun _ _ listed => (by cases listed), fun _ _ _ _ recorded => (by cases recorded), ?_⟩
    unfold Stands CatalogWorker.start
    cases archive.chunks.isEmpty with
    | true => trivial
    | false => exact ⟨unclaimed, rfl, rfl⟩
  acts := by
    rintro slot store worker store' after faithful knows ⟨acted, careful⟩
    cases acted with
    | proceed outcome => exact ⟨faithful_act outcome faithful knows careful, knows_act outcome faithful knows⟩
    | fail => exact ⟨faithful, Knows.go knows trivial⟩
  others := by
    rintro slot store worker store' after _ _ ⟨acted, _⟩ other bystander differs before
    cases acted with
    | proceed outcome =>
      have later := later_act archive outcome slot store worker other (.inl differs)
      cases bystander with
      | none => exact later.unclaimed before
      | some bystander => exact Knows.frame before later
    | fail => exact before
  outside := fun _ _ _ impossible => impossible.elim

/-- In every state of every run of careful executions, the chunks the document lists are
    in the collection, and all chunks are if it says that the catalog is complete. -/
theorem catalog_faithful (archive : Archive ρ) {system : Requests (CatalogStore ρ) (CatalogWorker ρ)}
    (run : Requests.Run (carefulRules archive) CatalogStore.Initial system) : Faithful archive system.store := by
  refine (Requests.invariant (catalog_kept archive) ?_ run).store
  rintro store ⟨_, noState, _⟩
  refine ⟨⟨?_, ?_⟩, fun slot => ?_⟩
  · intro state stored
    rw [noState] at stored
    cases stored
  · intro state stored
    rw [noState] at stored
    cases stored
  · simp [KnowsSlot, CatalogStore.claimedBy, noState]

/-! ## Runs of one chunk -/

def oneChunk : Archive Nat := ⟨["c1"], fun _ => [7]⟩

def nothingIngested : CatalogStore Nat := ⟨[], none, 0⟩

def ingests (run : String) : CatalogWorker Nat := .start oneChunk run ⟨false, none⟩

def dropsFirst (run : String) : CatalogWorker Nat := .start oneChunk run ⟨true, none⟩

def insertsAll : CatalogOutcome Nat := ⟨false, [7]⟩

def catalogTurn (slot : Nat) (store : CatalogStore Nat) (worker : CatalogWorker Nat) :
    Option (CatalogStore Nat × CatalogWorker Nat) :=
  if Careful slot store worker then some (worker.act oneChunk insertsAll slot store) else none

def carelessTurn (slot : Nat) (store : CatalogStore Nat) (worker : CatalogWorker Nat) :
    Option (CatalogStore Nat × CatalogWorker Nat) :=
  some (worker.act oneChunk insertsAll slot store)

theorem acts_of_carelessTurn (slot : Nat) (store : CatalogStore Nat) (worker : CatalogWorker Nat) (store' : CatalogStore Nat)
    (after : CatalogWorker Nat) (turned : carelessTurn slot store worker = some (store', after)) :
    (catalogRules oneChunk).acts slot store worker store' after := by
  have acted := Option.some.inj turned
  rw [show store' = (worker.act oneChunk insertsAll slot store).1 by rw [acted],
    show after = (worker.act oneChunk insertsAll slot store).2 by rw [acted]]
  exact .proceed insertsAll

theorem acts_of_catalogTurn (slot : Nat) (store : CatalogStore Nat) (worker : CatalogWorker Nat) (store' : CatalogStore Nat)
    (after : CatalogWorker Nat) (turned : catalogTurn slot store worker = some (store', after)) :
    (carefulRules oneChunk).acts slot store worker store' after := by
  unfold catalogTurn at turned
  split at turned
  next careful => exact ⟨acts_of_carelessTurn slot store worker store' after turned, careful⟩
  next => cases turned

theorem catalog_faithful_oneChunk : ∃ system, Requests.Run (carefulRules oneChunk) CatalogStore.Initial system ∧
    system.store.state = some ⟨0, none, ["c1"], true⟩ ∧ Faithful oneChunk system.store := by
  have nobody : Requests.Run (carefulRules oneChunk) CatalogStore.Initial ⟨nothingIngested, fun _ => none⟩ :=
    Reachable.start ⟨⟨rfl, rfl, rfl⟩, fun _ => rfl⟩
  have started := nobody.start 0 (ingests "r1") rfl ⟨"r1", ⟨false, none⟩, rfl⟩
  have run := started.schedule acts_of_catalogTurn [0, 0, 0, 0, 0, 0, 0, 0, 0]
  exact ⟨_, run, by decide +kernel, catalog_faithful oneChunk run⟩

/-- A first run ingests the catalog.  A second one drops the collection and crashes.  A
    third one finds the chunk listed as done, and reports an empty catalog as complete. -/
theorem complete_over_nothing :
    ¬ ∀ system, Requests.Run (catalogRules oneChunk) CatalogStore.Initial system → Faithful oneChunk system.store := by
  intro always
  have nobody : Requests.Run (catalogRules oneChunk) CatalogStore.Initial ⟨nothingIngested, fun _ => none⟩ :=
    Reachable.start ⟨⟨rfl, rfl, rfl⟩, fun _ => rfl⟩
  have first := nobody.start 0 (ingests "r1") rfl ⟨"r1", ⟨false, none⟩, rfl⟩
  have second := first.start 1 (dropsFirst "r2") rfl ⟨"r2", ⟨true, none⟩, rfl⟩
  have third := second.start 2 (ingests "r3") rfl ⟨"r3", ⟨false, none⟩, rfl⟩
  have run := third.schedule acts_of_carelessTurn [0, 0, 0, 0, 0, 0, 0, 0, 0, 1, 1, 2, 2, 2, 2, 2, 2]
  have holds := (always _ run).complete ⟨2, none, ["c1"], true⟩ (by decide +kernel) rfl "c1" (by decide) 7 (by decide)
  revert holds
  decide +kernel

end Boom.Catalogs
