import Boom.Foundations.Double
import Mathlib.Data.List.Destutter
import Mathlib.Data.List.Sort

/-! # Light curves and the three ways of extending them

A light curve is a list of points, strictly increasing in time and finite.  New
points reach a stored one by being its first points, by a push prepared against a
copy read earlier, or by an update the database computes itself.

All three *merge*: they keep every stored point and add the new ones at the epochs
that were free (`Merged`).  A merge is determined by what is merged, so the push
and the database's update leave the same light curve. -/

namespace Boom.Alert

open Boom.Foundations

/-! ## Errors -/

/-- Why a light curve was rejected. -/
inductive TimeseriesFault where
  | nonFinite (series : String) (jd : F64)
  | notIncreasing (series : String) (jd previous : F64)
deriving DecidableEq, Repr

inductive AlertError where
  | avro
  | bsonValueAccess
  | mongodb
  | xmatch
  | alertAuxExists
  | cutoutStorageError
  | invalidTimeseriesInput (fault : TimeseriesFault)
  | alertAuxFallbackUpdateFailed (objectId : String)
  | concurrentAuxUpdate (objectId : String)
deriving DecidableEq, Repr

/-! ## Time series -/

class TimeSeries (α : Type) where
  time : α → F64

export TimeSeries (time)

/-- A stored point, read back with its time only. -/
structure LightcurveJdOnly where
  jd : F64
deriving DecidableEq, Repr

instance : TimeSeries LightcurveJdOnly := ⟨LightcurveJdOnly.jd⟩

section Functions

variable {α : Type} [TimeSeries α]

def validateFrom (previous : F64) (series : String) : List α → Except AlertError Unit
  | [] => .ok ()
  | point :: rest =>
    if !(time point).isFinite then
      .error (.invalidTimeseriesInput (.nonFinite series (time point)))
    else if (time point).le previous then
      .error (.invalidTimeseriesInput (.notIncreasing series (time point) previous))
    else validateFrom (time point) series rest

def validateMonotonicIncreasing (timeseries : List α) (series : String) : Except AlertError Unit :=
  match timeseries with
  | [] => .ok ()
  | first :: rest =>
    if !(time first).isFinite then
      .error (.invalidTimeseriesInput (.nonFinite series (time first)))
    else validateFrom (time first) series rest

def sanitizeTimeseries (timeseries : List α) : List α :=
  let sorted := timeseries.insertionSort fun first second =>
    (time first).totalRank ≤ (time second).totalRank
  let distinct := sorted.destutter fun previous point => ¬ (time point).eq (time previous)
  distinct.filter fun point => (time point).isFinite

def prepareValidated (new : List α) (existing : List LightcurveJdOnly) : List α × Bool :=
  match new, existing.getLast? with
  | [], _ => ([], false)
  | new, none => (new, false)
  | first :: rest, some last =>
    if last.jd.lt (time first) then (first :: rest, false)
    else
      -- Only times from the first new one on can collide.
      let relevant := (existing.dropWhile fun point => point.jd.lt (time first)).map (·.jd.normalized)
      let docs := (first :: rest).filter fun point => !relevant.contains (time point).normalized
      let earliest := docs.foldl
        (fun least point => if (time point).lt least then time point else least) F64.infinity
      (docs, !last.jd.lt earliest)

def prepareTimeseriesUpdate (new : List α) (existing : List LightcurveJdOnly) (series : String) :
    Except AlertError (List α × Bool) := do
  validateMonotonicIncreasing existing series
  validateMonotonicIncreasing new series
  return prepareValidated new existing

/-! ## The stored array -/

def pushUpdate (stored docs : List α) (needSort : Bool) : List α :=
  if docs.isEmpty then stored
  else if needSort then
    (stored ++ docs).insertionSort fun first second => (time first).sortRank ≤ (time second).sortRank
  else stored ++ docs

def reduceDistinct (kept points : List α) : List α :=
  points.foldl (fun value this =>
    if (value.map fun point => (time point).sortRank).contains (time this).sortRank then value
    else value ++ [this]) kept

def updateTimeseriesOp (stored value : List α) : List α :=
  let distinct := reduceDistinct [] (stored ++ value)
  let finite := distinct.filter fun point =>
    (time point).sortRank < F64.infinity.sortRank && F64.negInfinity.sortRank < (time point).sortRank
  finite.insertionSort fun first second => (time first).sortRank ≤ (time second).sortRank

end Functions

/-! ## Light curves -/

section Increasing

variable {α : Type} [TimeSeries α]

def epoch (point : α) : Int := (time point).rank

structure Increasing (timeseries : List α) : Prop where
  finite : ∀ point ∈ timeseries, (time point).isFinite = true
  sorted : timeseries.Pairwise fun first second => epoch first < epoch second

theorem Increasing.nil : Increasing ([] : List α) := ⟨by simp, List.Pairwise.nil⟩

theorem validateFrom_ok_iff {previous : F64} (finite : previous.isFinite = true) (series : String)
    (timeseries : List α) :
    validateFrom previous series timeseries = .ok () ↔
      Increasing timeseries ∧ ∀ point ∈ timeseries, previous.rank < epoch point := by
  induction timeseries generalizing previous with
  | nil => simp [validateFrom, Increasing.nil]
  | cons point rest ih =>
    unfold validateFrom
    cases known : (time point).isFinite with
    | false =>
      simp only [Bool.not_false, if_true, reduceCtorEq, false_iff]
      rintro ⟨increasing, _⟩
      simpa [known] using increasing.finite point (by simp)
    | true =>
      simp only [Bool.not_true, Bool.false_eq_true, if_false]
      split
      next late =>
        simp only [reduceCtorEq, false_iff]
        rintro ⟨_, after⟩
        have before := (F64.le_iff known finite).mp late
        have later := after point (by simp)
        simp only [epoch] at later
        omega
      next early =>
        rw [ih known]
        have later : previous.rank < epoch point := by
          by_contra notLater
          exact early ((F64.le_iff known finite).mpr (by simpa [epoch] using notLater))
        constructor
        · rintro ⟨increasing, after⟩
          refine ⟨⟨?_, ?_⟩, ?_⟩
          · simpa [known] using increasing.finite
          · exact List.pairwise_cons.mpr ⟨after, increasing.sorted⟩
          · intro other member
            rcases List.mem_cons.mp member with rfl | inRest
            · exact later
            · exact Int.lt_trans later (after other inRest)
        · rintro ⟨increasing, _⟩
          obtain ⟨after, sorted⟩ := List.pairwise_cons.mp increasing.sorted
          exact ⟨⟨fun other member => increasing.finite other (by simp [member]), sorted⟩, after⟩

theorem validateMonotonicIncreasing_ok_iff (timeseries : List α) (series : String) :
    validateMonotonicIncreasing timeseries series = .ok () ↔ Increasing timeseries := by
  cases timeseries with
  | nil => simp [validateMonotonicIncreasing, Increasing.nil]
  | cons first rest =>
    cases known : (time first).isFinite with
    | false =>
      simp only [validateMonotonicIncreasing, known, Bool.not_false, if_true, reduceCtorEq, false_iff]
      intro increasing
      simpa [known] using increasing.finite first (by simp)
    | true =>
      simp only [validateMonotonicIncreasing, known, Bool.not_true, Bool.false_eq_true, if_false,
        validateFrom_ok_iff known]
      constructor
      · rintro ⟨increasing, after⟩
        exact ⟨by simpa [known] using increasing.finite, List.pairwise_cons.mpr ⟨after, increasing.sorted⟩⟩
      · intro increasing
        obtain ⟨after, sorted⟩ := List.pairwise_cons.mp increasing.sorted
        exact ⟨⟨fun other member => increasing.finite other (by simp [member]), sorted⟩, after⟩

/-! ## Merging -/

structure Merged (stored new result : List α) : Prop where
  increasing : Increasing result
  members : ∀ point, point ∈ result ↔
    point ∈ stored ∨ (point ∈ new ∧ ∀ held ∈ stored, epoch held ≠ epoch point)

theorem Increasing.ext {first second : List α} (increasing : Increasing first)
    (increasing' : Increasing second) (same : ∀ point, point ∈ first ↔ point ∈ second) :
    first = second := by
  have distinct {timeseries : List α} (sorted : Increasing timeseries) : timeseries.Nodup :=
    sorted.sorted.imp fun before => by
      rintro rfl
      exact absurd before (Int.lt_irrefl _)
  have permuted : first.Perm second :=
    (List.perm_ext_iff_of_nodup (distinct increasing) (distinct increasing')).mpr same
  refine permuted.eq_of_pairwise ?_ increasing.sorted increasing'.sorted
  intro one other _ _ before after
  exact absurd before (Int.lt_asymm after)

theorem Merged.unique {stored new first second : List α} (merged : Merged stored new first)
    (merged' : Merged stored new second) : first = second :=
  merged.increasing.ext merged'.increasing fun point => by rw [merged.members, merged'.members]

variable {point : α}

theorem Merged.keeps {stored new result : List α} (merged : Merged stored new result)
    (held : point ∈ stored) : point ∈ result :=
  (merged.members point).mpr (.inl held)

theorem Merged.covers {stored new result : List α} (merged : Merged stored new result)
    (added : point ∈ new) : ∃ held ∈ result, epoch held = epoch point := by
  by_cases free : ∀ held ∈ stored, epoch held ≠ epoch point
  · exact ⟨point, (merged.members point).mpr (.inr ⟨added, free⟩), rfl⟩
  · push Not at free
    obtain ⟨held, present, same⟩ := free
    exact ⟨held, merged.keeps present, same⟩

variable {timeseries : List α}

def occurrences (timeseries : List α) (jd : F64) : Nat :=
  timeseries.countP fun point => (time point).eq jd

theorem Increasing.occurrences_eq_one (increasing : Increasing timeseries)
    {jd : F64} (finite : jd.isFinite = true) (member : point ∈ timeseries)
    (same : epoch point = jd.rank) : occurrences timeseries jd = 1 := by
  unfold occurrences
  induction timeseries with
  | nil => cases member
  | cons first rest ih =>
    obtain ⟨after, sorted⟩ := List.pairwise_cons.mp increasing.sorted
    have restIncreasing : Increasing rest :=
      ⟨fun other inRest => increasing.finite other (by simp [inRest]), sorted⟩
    have equal (other : α) (listed : other ∈ first :: rest) :
        (time other).eq jd = true ↔ epoch other = jd.rank :=
      F64.eq_iff (increasing.finite other listed) finite
    rcases List.mem_cons.mp member with rfl | inRest
    · have none : rest.countP (fun other => (time other).eq jd) = 0 := by
        apply List.countP_eq_zero.mpr
        intro other inRest hit
        have reached := (equal other (by simp [inRest])).mp hit
        have later := after other inRest
        omega
      have hit : (time point).eq jd = true := (equal point (by simp)).mpr same
      simp [hit, none]
    · have missed : ¬ (time first).eq jd = true := by
        intro hit
        have reached := (equal first (by simp)).mp hit
        have later := after point inRest
        omega
      simpa [List.countP_cons, missed] using ih restIncreasing inRest

theorem Increasing.append {first second : List α} (increasing : Increasing first) (increasing' : Increasing second)
    (before : ∀ one ∈ first, ∀ other ∈ second, epoch one < epoch other) :
    Increasing (first ++ second) where
  finite point member := by
    rcases List.mem_append.mp member with left | right
    · exact increasing.finite point left
    · exact increasing'.finite point right
  sorted := List.pairwise_append.mpr ⟨increasing.sorted, increasing'.sorted, before⟩

theorem Increasing.filter (increasing : Increasing timeseries)
    (keep : α → Bool) : Increasing (timeseries.filter keep) where
  finite point member := increasing.finite point (List.mem_filter.mp member).1
  sorted := increasing.sorted.sublist List.filter_sublist

theorem increasing_insertionSort {points : List α} (finite : ∀ point ∈ points, (time point).isFinite = true)
    (distinct : points.Pairwise fun first second => epoch first ≠ epoch second) :
    Increasing (points.insertionSort fun first second =>
      (time first).sortRank ≤ (time second).sortRank) := by
  have total : Std.Total fun first second : α => (time first).sortRank ≤ (time second).sortRank :=
    ⟨fun first second => Int.le_total _ _⟩
  have transitive : IsTrans α fun first second => (time first).sortRank ≤ (time second).sortRank :=
    ⟨fun _ _ _ => Int.le_trans⟩
  have permuted := List.perm_insertionSort (fun first second : α =>
    (time first).sortRank ≤ (time second).sortRank) points
  have ordered := List.pairwise_insertionSort (fun first second : α =>
    (time first).sortRank ≤ (time second).sortRank) points
  have apart : (points.insertionSort fun first second =>
      (time first).sortRank ≤ (time second).sortRank).Pairwise
        fun first second => epoch first ≠ epoch second :=
    (permuted.pairwise_iff fun different => Ne.symm different).mpr distinct
  refine ⟨fun point member => finite point (permuted.mem_iff.mp member), ?_⟩
  refine (ordered.and apart).imp_of_mem fun {first second} member member' both => ?_
  have known := finite first (permuted.mem_iff.mp member)
  have known' := finite second (permuted.mem_iff.mp member')
  rw [F64.sortRank_of_isFinite known, F64.sortRank_of_isFinite known'] at both
  exact lt_of_le_of_ne both.1 both.2

theorem Increasing.distinct (increasing : Increasing timeseries) :
    timeseries.Pairwise fun first second => epoch first ≠ epoch second :=
  increasing.sorted.imp fun before => Int.ne_of_lt before

/-! ## The push -/

def jdOnly (timeseries : List α) : List LightcurveJdOnly :=
  timeseries.map fun point => ⟨time point⟩

theorem increasing_jdOnly_iff (timeseries : List α) :
    Increasing (jdOnly timeseries) ↔ Increasing timeseries := by
  constructor
  · rintro ⟨finite, sorted⟩
    refine ⟨fun point member => finite ⟨time point⟩ (List.mem_map_of_mem member), ?_⟩
    rw [jdOnly, List.pairwise_map] at sorted
    exact sorted
  · rintro ⟨finite, sorted⟩
    refine ⟨?_, by rw [jdOnly, List.pairwise_map]; exact sorted⟩
    intro read member
    obtain ⟨point, held, rfl⟩ := List.mem_map.mp member
    exact finite point held

theorem mem_dropWhile_of_not {β : Type} {drop : β → Bool} {points : List β} {point : β}
    (member : point ∈ points) (kept : drop point = false) : point ∈ points.dropWhile drop := by
  induction points with
  | nil => cases member
  | cons first rest ih =>
    rw [List.dropWhile_cons]
    split
    next dropped =>
      rcases List.mem_cons.mp member with rfl | inRest
      · rw [kept] at dropped
        cases dropped
      · exact ih inRest
    next => exact member

theorem foldl_least (points : List α) (finite : ∀ point ∈ points, (time point).isFinite = true)
    {least : F64} (number : least.isNan = false) :
    let result := points.foldl
      (fun least point => if (time point).lt least then time point else least) least
    result.isNan = false ∧ result.rank ≤ least.rank ∧ ∀ point ∈ points, result.rank ≤ epoch point := by
  induction points generalizing least with
  | nil => exact ⟨number, Int.le_refl _, by simp⟩
  | cons point rest ih =>
    have known := finite point (by simp)
    have later : ∀ other ∈ rest, (time other).isFinite = true := fun other member =>
      finite other (by simp [member])
    have below : (time point).lt least = true ↔ epoch point < least.rank := by
      simp [F64.lt, F64.not_isNan_of_isFinite known, number, epoch]
    simp only [List.foldl_cons, below]
    split
    next less =>
      obtain ⟨notNan, under, all⟩ := ih later (F64.not_isNan_of_isFinite known)
      refine ⟨notNan, Int.le_trans under (Int.le_of_lt less), fun other member => ?_⟩
      rcases List.mem_cons.mp member with rfl | inRest
      · exact under
      · exact all other inRest
    next notLess =>
      obtain ⟨notNan, under, all⟩ := ih later number
      refine ⟨notNan, under, fun other member => ?_⟩
      rcases List.mem_cons.mp member with rfl | inRest
      · exact Int.le_trans under (Int.not_lt.mp notLess)
      · exact all other inRest

def freePoints (stored new : List α) : List α :=
  new.filter fun point => stored.all fun held => decide (epoch held ≠ epoch point)

variable {stored new : List α}

theorem mem_freePoints :
    point ∈ freePoints stored new ↔ point ∈ new ∧ ∀ held ∈ stored, epoch held ≠ epoch point := by
  simp [freePoints]

theorem merged_of_append (increasing : Increasing (stored ++ freePoints stored new)) :
    Merged stored new (stored ++ freePoints stored new) :=
  ⟨increasing, fun point => by rw [List.mem_append, mem_freePoints]⟩

theorem filter_relevant {first : α} {rest : List α} (shape : new = first :: rest)
    (increasing : Increasing stored) (increasing' : Increasing new) :
    (new.filter fun point => !(((jdOnly stored).dropWhile fun held => held.jd.lt (time first)).map
      (·.jd.normalized)).contains (time point).normalized) = freePoints stored new := by
  refine List.filter_congr fun point member => ?_
  have known := increasing'.finite point member
  have firstKnown := increasing'.finite first (by simp [shape])
  have above : epoch first ≤ epoch point := by
    rw [shape] at member
    rcases List.mem_cons.mp member with rfl | inRest
    · exact Int.le_refl _
    · rw [shape] at increasing'
      exact Int.le_of_lt ((List.pairwise_cons.mp increasing'.sorted).1 point inRest)
  have hit : (((jdOnly stored).dropWhile fun held => held.jd.lt (time first)).map
      (·.jd.normalized)).contains (time point).normalized = true ↔
      ∃ held ∈ stored, epoch held = epoch point := by
    rw [List.contains_iff_mem, List.mem_map]
    constructor
    · rintro ⟨read, relevant, same⟩
      obtain ⟨held, present, rfl⟩ := List.mem_map.mp ((List.dropWhile_sublist _).subset relevant)
      exact ⟨held, present, (F64.normalized_eq_iff (increasing.finite held present) known).mp same⟩
    · rintro ⟨held, present, same⟩
      have heldKnown := increasing.finite held present
      refine ⟨⟨time held⟩, ?_, (F64.normalized_eq_iff heldKnown known).mpr same⟩
      refine mem_dropWhile_of_not (List.mem_map_of_mem present) ?_
      rw [Bool.eq_false_iff, Ne, F64.lt_iff heldKnown firstKnown]
      simp only [epoch] at above same
      omega
  rw [Bool.eq_iff_iff, Bool.not_eq_true', ← Bool.not_eq_true, hit]
  simp

theorem Increasing.le_getLast {stored : List α} (increasing : Increasing stored)
    {last : LightcurveJdOnly} (isLast : (jdOnly stored).getLast? = some last) :
    last.jd.isFinite = true ∧ ∀ held ∈ stored, epoch held ≤ last.jd.rank := by
  obtain ⟨front, shape⟩ := List.getLast?_eq_some_iff.mp isLast
  have read := (increasing_jdOnly_iff stored).mpr increasing
  rw [shape] at read
  refine ⟨read.finite last (by simp), fun held member => ?_⟩
  have listed : (⟨time held⟩ : LightcurveJdOnly) ∈ front ++ [last] :=
    shape ▸ List.mem_map_of_mem member
  rcases List.mem_append.mp listed with earlier | same
  · exact Int.le_of_lt ((List.pairwise_append.mp read.sorted).2.2 _ earlier last (by simp))
  · rw [← List.mem_singleton.mp same]
    exact Int.le_refl _

theorem merged_pushUpdate (increasing : Increasing stored) (increasing' : Increasing new) (needSort : Bool)
    (later : needSort = false → ∀ held ∈ stored, ∀ point ∈ freePoints stored new, epoch held < epoch point) :
    Merged stored new (pushUpdate stored (freePoints stored new) needSort) := by
  have free := increasing'.filter fun point => stored.all fun held => decide (epoch held ≠ epoch point)
  unfold pushUpdate
  cases empty : (freePoints stored new).isEmpty with
  | true =>
    have none : freePoints stored new = [] := List.isEmpty_iff.mp empty
    have merged : Merged stored new (stored ++ freePoints stored new) :=
      merged_of_append (by simpa [none] using increasing)
    simpa [none] using merged
  | false =>
    simp only [Bool.false_eq_true, if_false]
    cases needSort with
    | false =>
      simp only [Bool.false_eq_true, if_false]
      exact merged_of_append (increasing.append free (later rfl))
    | true =>
      simp only [if_true]
      have apart : (stored ++ freePoints stored new).Pairwise
          fun first second => epoch first ≠ epoch second :=
        List.pairwise_append.mpr ⟨increasing.distinct, free.distinct,
          fun held present point added => (mem_freePoints.mp added).2 held present⟩
      have finite : ∀ point ∈ stored ++ freePoints stored new, (time point).isFinite = true := by
        intro point member
        rcases List.mem_append.mp member with held | added
        · exact increasing.finite point held
        · exact free.finite point added
      refine ⟨increasing_insertionSort finite apart, fun point => ?_⟩
      rw [List.mem_insertionSort, List.mem_append, mem_freePoints]

theorem prepareValidated_merged (increasing : Increasing stored) (increasing' : Increasing new) :
    Merged stored new (pushUpdate stored (prepareValidated new (jdOnly stored)).1
      (prepareValidated new (jdOnly stored)).2) := by
  cases shape : new with
  | nil =>
    have nothing : prepareValidated ([] : List α) (jdOnly stored) = ([], false) := rfl
    rw [nothing]
    exact ⟨increasing, by simp [pushUpdate]⟩
  | cons first rest =>
    cases isLast : (jdOnly stored).getLast? with
    | none =>
      have empty : stored = [] := by simpa [jdOnly] using isLast
      subst empty
      have all : prepareValidated (first :: rest) (jdOnly ([] : List α)) = (first :: rest, false) := rfl
      rw [all, ← shape]
      have pushed : pushUpdate ([] : List α) new false = new := by simp [pushUpdate, shape]
      rw [pushed]
      exact ⟨increasing', by simp⟩
    | some last =>
      obtain ⟨lastKnown, bounded⟩ := increasing.le_getLast isLast
      have firstKnown := increasing'.finite first (by simp [shape])
      have fromFirst : ∀ point ∈ new, epoch first ≤ epoch point := by
        intro point member
        rw [shape] at member increasing'
        rcases List.mem_cons.mp member with rfl | inRest
        · exact Int.le_refl _
        · exact Int.le_of_lt ((List.pairwise_cons.mp increasing'.sorted).1 point inRest)
      have found := filter_relevant shape increasing increasing'
      unfold prepareValidated
      simp only [isLast]
      rw [← shape, found]
      split
      next appended =>
        -- Every new point is later than the last stored one, so all are free.
        have before : ∀ held ∈ stored, ∀ point ∈ new, epoch held < epoch point := by
          intro held present point member
          have beyond := (F64.lt_iff lastKnown firstKnown).mp appended
          have under := bounded held present
          have after := fromFirst point member
          simp only [epoch] at *
          omega
        have all : freePoints stored new = new := List.filter_eq_self.mpr fun point member => by
          simpa using fun held present => Int.ne_of_lt (before held present point member)
        have merged := merged_pushUpdate increasing increasing' false
          fun _ held present point member => before held present point (all ▸ member)
        rwa [all] at merged
      next =>
        refine merged_pushUpdate increasing increasing' _ fun appended held present point member => ?_
        -- The earliest free point is later than the last stored one.
        have free := mem_freePoints.mp member
        obtain ⟨_, _, least⟩ := foldl_least (freePoints stored new)
          (fun other added => increasing'.finite other (mem_freePoints.mp added).1)
          (show F64.infinity.isNan = false by decide)
        have beyond : last.jd.lt ((freePoints stored new).foldl
            (fun least point => if (time point).lt least then time point else least)
            F64.infinity) = true := by simpa using appended
        have later := least point member
        have under := bounded held present
        exact Int.lt_of_le_of_lt under (Int.lt_of_lt_of_le (F64.rank_lt_of_lt beyond) later)

theorem prepareTimeseriesUpdate_merged {stored new docs : List α} {needSort : Bool} {series : String}
    (prepared : prepareTimeseriesUpdate new (jdOnly stored) series = .ok (docs, needSort)) :
    Merged stored new (pushUpdate stored docs needSort) := by
  unfold prepareTimeseriesUpdate at prepared
  cases checked : validateMonotonicIncreasing (jdOnly stored) series with
  | error fault =>
    rw [checked] at prepared
    cases prepared
  | ok _ =>
    cases checked' : validateMonotonicIncreasing new series with
    | error fault =>
      rw [checked, checked'] at prepared
      cases prepared
    | ok _ =>
      rw [checked, checked'] at prepared
      have pair : prepareValidated new (jdOnly stored) = (docs, needSort) := Except.ok.inj prepared
      have increasing := (increasing_jdOnly_iff stored).mp
        ((validateMonotonicIncreasing_ok_iff _ series).mp checked)
      have merged := prepareValidated_merged increasing
        ((validateMonotonicIncreasing_ok_iff new series).mp checked')
      rwa [pair] at merged

theorem prepareTimeseriesUpdate_ok (increasing : Increasing stored) (increasing' : Increasing new) (series : String) :
    prepareTimeseriesUpdate new (jdOnly stored) series = .ok (prepareValidated new (jdOnly stored)) := by
  unfold prepareTimeseriesUpdate
  rw [(validateMonotonicIncreasing_ok_iff _ series).mpr ((increasing_jdOnly_iff stored).mpr increasing),
    (validateMonotonicIncreasing_ok_iff new series).mpr increasing']
  rfl

/-! ## The update in the database -/

theorem reduceDistinct_spec (kept points : List α)
    (distinct : kept.Pairwise fun first second => (time first).sortRank ≠ (time second).sortRank) :
    ((reduceDistinct kept points).Pairwise fun first second =>
      (time first).sortRank ≠ (time second).sortRank) ∧
    ((points.Pairwise fun first second => (time first).sortRank ≠ (time second).sortRank) →
      reduceDistinct kept points = kept ++ points.filter fun point =>
        kept.all fun held => decide ((time held).sortRank ≠ (time point).sortRank)) := by
  induction points generalizing kept with
  | nil => exact ⟨by simpa [reduceDistinct] using distinct, by simp [reduceDistinct]⟩
  | cons point rest ih =>
    have unfolded : reduceDistinct kept (point :: rest) =
        reduceDistinct (if (kept.map fun held => (time held).sortRank).contains (time point).sortRank
          then kept else kept ++ [point]) rest := rfl
    rw [unfolded]
    split
    next taken =>
      obtain ⟨apart, value⟩ := ih kept distinct
      refine ⟨apart, fun separate => ?_⟩
      rw [value (List.pairwise_cons.mp separate).2]
      obtain ⟨held, present, same⟩ := List.mem_map.mp (List.contains_iff_mem.mp taken)
      rw [List.filter_cons_of_neg]
      simpa using ⟨held, present, same⟩
    next free =>
      have fresh : ∀ held ∈ kept, (time held).sortRank ≠ (time point).sortRank := by
        intro held present same
        exact free (List.contains_iff_mem.mpr (List.mem_map.mpr ⟨held, present, same⟩))
      have extended : (kept ++ [point]).Pairwise fun first second =>
          (time first).sortRank ≠ (time second).sortRank := by
        refine List.pairwise_append.mpr ⟨distinct, List.pairwise_singleton _ _, ?_⟩
        intro held present other same
        rw [List.mem_singleton.mp same]
        exact fresh held present
      obtain ⟨apart, value⟩ := ih (kept ++ [point]) extended
      refine ⟨apart, fun separate => ?_⟩
      obtain ⟨fromRest, restApart⟩ := List.pairwise_cons.mp separate
      rw [value restApart, List.filter_cons_of_pos (by simpa using fresh), List.append_assoc]
      rw [List.singleton_append]
      congr 2
      refine List.filter_congr fun other member => ?_
      simp [fromRest other member]

theorem updateTimeseriesOp_increasing (stored value : List α) :
    Increasing (updateTimeseriesOp stored value) := by
  obtain ⟨apart, _⟩ := reduceDistinct_spec [] (stored ++ value) List.Pairwise.nil
  unfold updateTimeseriesOp
  have finite : ∀ point ∈ (reduceDistinct [] (stored ++ value)).filter fun point =>
      (time point).sortRank < F64.infinity.sortRank && F64.negInfinity.sortRank < (time point).sortRank,
      (time point).isFinite = true := by
    intro point member
    have bounds := (List.mem_filter.mp member).2
    simp only [Bool.and_eq_true, decide_eq_true_eq] at bounds
    exact F64.isFinite_iff_between.mpr ⟨bounds.2, bounds.1⟩
  refine increasing_insertionSort finite ?_
  refine (apart.sublist List.filter_sublist).imp_of_mem fun {first second} member member' different => ?_
  rwa [F64.sortRank_of_isFinite (finite first member), F64.sortRank_of_isFinite (finite second member')]
    at different

theorem updateTimeseriesOp_merged (increasing : Increasing stored)
    (increasing' : Increasing new) : Merged stored new (updateTimeseriesOp stored new) := by
  refine ⟨updateTimeseriesOp_increasing stored new, fun point => ?_⟩
  have apart {timeseries : List α} (sorted : Increasing timeseries) :
      timeseries.Pairwise fun first second => (time first).sortRank ≠ (time second).sortRank :=
    sorted.distinct.imp_of_mem fun {first second} member member' different => by
      rwa [F64.sortRank_of_isFinite (sorted.finite first member),
        F64.sortRank_of_isFinite (sorted.finite second member')]
  have first : reduceDistinct [] stored = stored := by
    rw [(reduceDistinct_spec [] stored List.Pairwise.nil).2 (apart increasing)]
    simp
  have split_ : reduceDistinct [] (stored ++ new) = reduceDistinct stored new := by
    rw [reduceDistinct, List.foldl_append]
    exact congrArg (fun kept => reduceDistinct kept new) first
  have free : (new.filter fun point => stored.all fun held =>
      decide ((time held).sortRank ≠ (time point).sortRank)) = freePoints stored new := by
    refine List.filter_congr fun point member => ?_
    rw [Bool.eq_iff_iff]
    simp only [List.all_eq_true, decide_eq_true_eq]
    refine forall₂_congr fun held present => ?_
    rw [F64.sortRank_of_isFinite (increasing.finite held present),
      F64.sortRank_of_isFinite (increasing'.finite point member)]
    rfl
  unfold updateTimeseriesOp
  rw [split_, (reduceDistinct_spec stored new (apart increasing)).2 (apart increasing'), free,
    List.mem_insertionSort, List.mem_filter, List.mem_append, mem_freePoints]
  have finite : point ∈ stored ∨ (point ∈ new ∧ ∀ held ∈ stored, epoch held ≠ epoch point) →
      (time point).isFinite = true := by
    rintro (held | ⟨added, _⟩)
    · exact increasing.finite point held
    · exact increasing'.finite point added
  constructor
  · exact fun both => both.1
  · intro member
    have bounds := F64.isFinite_iff_between.mp (finite member)
    exact ⟨member, by simp [bounds.1, bounds.2]⟩

theorem pushUpdate_eq_updateTimeseriesOp {stored new docs : List α} {needSort : Bool} {series : String}
    (prepared : prepareTimeseriesUpdate new (jdOnly stored) series = .ok (docs, needSort))
    (increasing : Increasing stored) (increasing' : Increasing new) :
    pushUpdate stored docs needSort = updateTimeseriesOp stored new :=
  (prepareTimeseriesUpdate_merged prepared).unique (updateTimeseriesOp_merged increasing increasing')

theorem increasing_append_of_pushUpdate {stored docs : List α}
    (increasing : Increasing (pushUpdate stored docs false)) : Increasing (stored ++ docs) := by
  unfold pushUpdate at increasing
  cases docs with
  | nil => simpa using increasing
  | cons first rest => simpa using increasing

/-- A push leaves what the database's update would have left, and one without a sort appends
    points that are all later. -/
theorem prepareTimeseriesUpdate_agrees {stored new : List α} (increasing : Increasing stored)
    (increasing' : Increasing new) (series : String) :
    ∃ docs needSort, prepareTimeseriesUpdate new (jdOnly stored) series = .ok (docs, needSort) ∧
      pushUpdate stored docs needSort = updateTimeseriesOp stored new ∧
      (needSort = false → Increasing (stored ++ docs)) := by
  obtain ⟨docs, needSort, preparedIs⟩ : ∃ docs needSort, prepareValidated new (jdOnly stored) = (docs, needSort) :=
    ⟨_, _, rfl⟩
  have prepared := prepareTimeseriesUpdate_ok increasing increasing' series
  rw [preparedIs] at prepared
  have same := pushUpdate_eq_updateTimeseriesOp prepared increasing increasing'
  refine ⟨docs, needSort, prepared, same, fun unsorted => ?_⟩
  refine increasing_append_of_pushUpdate ?_
  rw [← unsorted, same]
  exact updateTimeseriesOp_increasing stored new

/-- A point before the stored one, and one at its epoch. -/
theorem prepareTimeseriesUpdate_agrees_sorted :
    ∃ docs needSort, prepareTimeseriesUpdate [(⟨⟨1⟩⟩ : LightcurveJdOnly), ⟨⟨2⟩⟩] [⟨⟨2⟩⟩] "fp_hists" =
        .ok (docs, needSort) ∧
      pushUpdate [(⟨⟨2⟩⟩ : LightcurveJdOnly)] docs needSort = updateTimeseriesOp [⟨⟨2⟩⟩] [⟨⟨1⟩⟩, ⟨⟨2⟩⟩] ∧
      (needSort = false → Increasing ([(⟨⟨2⟩⟩ : LightcurveJdOnly)] ++ docs)) := by
  have stored : Increasing [(⟨⟨2⟩⟩ : LightcurveJdOnly)] := ⟨by decide, List.pairwise_singleton _ _⟩
  have new : Increasing [(⟨⟨1⟩⟩ : LightcurveJdOnly), ⟨⟨2⟩⟩] := ⟨by decide, by decide⟩
  exact prepareTimeseriesUpdate_agrees stored new "fp_hists"

/-! ## Sanitizing -/

section Sanitize

theorem destutter_sorted (first : α) (rest : List α) (sorted : (first :: rest).Pairwise fun one other =>
      (time one).totalRank ≤ (time other).totalRank) :
    (rest.destutter' (fun previous point => ¬ (time point).eq (time previous)) first).Pairwise
      fun one other => (time one).isFinite = true → (time other).isFinite = true →
        epoch one < epoch other := by
  induction rest generalizing first with
  | nil => simp
  | cons next rest ih =>
    obtain ⟨fromFirst, later⟩ := List.pairwise_cons.mp sorted
    rw [List.destutter'_cons]
    split
    next apart =>
      refine List.pairwise_cons.mpr ⟨fun other member known known' => ?_,
        ih next later⟩
      have between : (time next).totalRank ≤ (time other).totalRank := by
        rcases List.mem_cons.mp ((List.destutter'_sublist _ _ _).subset member) with rfl | inRest
        · exact Int.le_refl _
        · exact (List.pairwise_cons.mp later).1 other inRest
      have nextKnown := F64.isFinite_of_between known known' (fromFirst next (by simp)) between
      have lower := F64.rank_le_of_totalRank_le (fromFirst next (by simp))
      have upper := F64.rank_le_of_totalRank_le between
      have different : (time next).rank ≠ (time first).rank := fun same =>
        apart ((F64.eq_iff nextKnown known).mpr same)
      simp only [epoch]
      omega
    next =>
      refine ih first (List.pairwise_cons.mpr ⟨?_, (List.pairwise_cons.mp later).2⟩)
      exact fun other member => fromFirst other (by simp [member])

theorem destutter_covers (first : α) (rest : List α) (member : point ∈ first :: rest) :
    ∃ kept ∈ rest.destutter' (fun previous point => ¬ (time point).eq (time previous)) first,
      epoch kept = epoch point := by
  induction rest generalizing first with
  | nil => exact ⟨point, by simpa using member, rfl⟩
  | cons next rest ih =>
    rw [List.destutter'_cons]
    split
    next =>
      rcases List.mem_cons.mp member with rfl | later
      · exact ⟨point, by simp, rfl⟩
      · obtain ⟨kept, listed, same⟩ := ih next later
        exact ⟨kept, List.mem_cons_of_mem _ listed, same⟩
    next repeated =>
      have equal : epoch next = epoch first := by
        simp only [F64.eq, Bool.and_eq_true, decide_eq_true_eq, not_not] at repeated
        exact repeated.2
      rcases List.mem_cons.mp member with rfl | later
      · exact ih point (by simp)
      · rcases List.mem_cons.mp later with rfl | inRest
        · exact ⟨first, List.mem_destutter' _ _ _, equal.symm⟩
        · exact ih first (by simp [inRest])

theorem sanitizeTimeseries_increasing (timeseries : List α) : Increasing (sanitizeTimeseries timeseries) := by
  have total : Std.Total fun one other : α => (time one).totalRank ≤ (time other).totalRank :=
    ⟨fun one other => Int.le_total _ _⟩
  have transitive : IsTrans α fun one other => (time one).totalRank ≤ (time other).totalRank :=
    ⟨fun _ _ _ => Int.le_trans⟩
  have sorted := List.pairwise_insertionSort (fun one other : α =>
    (time one).totalRank ≤ (time other).totalRank) timeseries
  unfold sanitizeTimeseries
  refine ⟨fun point member => (List.mem_filter.mp member).2, ?_⟩
  cases shape : timeseries.insertionSort fun one other => (time one).totalRank ≤ (time other).totalRank with
  | nil => simp
  | cons first rest =>
    rw [shape] at sorted
    refine ((destutter_sorted first rest sorted).sublist List.filter_sublist).imp_of_mem ?_
    intro one other member member' apart
    exact apart (List.mem_filter.mp member).2 (List.mem_filter.mp member').2

theorem sanitizeTimeseries_covers (member : point ∈ timeseries) (finite : (time point).isFinite = true) :
    ∃ kept ∈ sanitizeTimeseries timeseries, epoch kept = epoch point := by
  unfold sanitizeTimeseries
  have listed : point ∈ timeseries.insertionSort fun one other =>
      (time one).totalRank ≤ (time other).totalRank := (List.mem_insertionSort _).mpr member
  cases shape : timeseries.insertionSort fun one other => (time one).totalRank ≤ (time other).totalRank with
  | nil => simp [shape] at listed
  | cons first rest =>
    rw [shape] at listed
    obtain ⟨kept, present, same⟩ := destutter_covers first rest listed
    refine ⟨kept, List.mem_filter.mpr ⟨present, ?_⟩, same⟩
    exact (F64.isFinite_congr same).trans finite

end Sanitize

end Increasing

end Boom.Alert
