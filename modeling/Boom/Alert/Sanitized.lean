import Boom.Alert.Ztf
import Boom.Foundations.Rows

/-! # What sanitizing keeps

A sanitized series holds each finite time of its input once.  The point kept of a time is
the first one of the sorted input.  The sort is stable, so that is the first one of the
input as well, unless the sort moved another point of that time before it.  Equal times
have different places in the total order only when they are the two zeros. -/

namespace Boom.Foundations

section Sorting

variable {β : Type} (r : β → β → Prop) [DecidableRel r]

theorem head?_insertionSort_iff [Std.Total r] [IsTrans β r] (items : List β) :
    (items.insertionSort r).head? = items.head? ↔
      ∀ first, items.head? = some first → ∀ other ∈ items, r first other := by
  cases items with
  | nil => simp
  | cons first rest =>
    constructor
    · rintro same _ ⟨⟩ other member
      have sorted := List.pairwise_insertionSort r (first :: rest)
      have listed : other ∈ (first :: rest).insertionSort r := (List.mem_insertionSort r).mpr member
      cases shape : (first :: rest).insertionSort r with
      | nil => simp [shape] at listed
      | cons least others =>
        rw [shape] at same sorted listed
        obtain rfl : least = first := by simpa using same
        rcases List.mem_cons.mp listed with rfl | later
        · exact (Std.Total.total (r := r) other other).elim id id
        · exact (List.pairwise_cons.mp sorted).1 other later
    · intro least
      have before : ∀ other ∈ rest, r first other := fun other member =>
        least first rfl other (List.mem_cons_of_mem _ member)
      rw [List.insertionSort_cons_of_forall_rel r before]
      rfl

end Sorting

namespace F64

variable {first second : F64}

def negZero : F64 := ⟨0x8000000000000000⟩

theorem rank_negZero : negZero.rank = zero.rank := by decide

theorem eq_congr {jd jd' : F64} (number : jd.isNan = false) (number' : jd'.isNan = false)
    (same : jd.rank = jd'.rank) (value : F64) : value.eq jd = value.eq jd' := by
  unfold eq
  rw [number, number', same]

theorem eq_negZero_iff : first = negZero ↔ first.negative = true ∧ first.magnitude = 0 := by
  constructor
  · rintro rfl
    decide
  · rintro ⟨sign, none_⟩
    exact eq_of_parts sign none_

theorem totalRank_le_iff (same : first.rank = second.rank) :
    first.totalRank ≤ second.totalRank ↔ (second = negZero → first = negZero) := by
  rcases rank_eq_iff.mp same with rfl | ⟨none_, none_'⟩
  · simp
  · rw [eq_negZero_iff, eq_negZero_iff]
    unfold totalRank
    cases first.negative <;> cases second.negative <;> simp [none_, none_']

end F64

end Boom.Foundations

namespace Boom.Alert

open Boom.Foundations

section Kept

variable {α : Type} [TimeSeries α]

def firstAt (timeseries : List α) (jd : F64) : Option α := timeseries.find? fun point => (time point).eq jd

structure Sanitized (timeseries result : List α) : Prop where
  valid : ∀ series, validateMonotonicIncreasing result series = .ok ()
  jds : ∀ jd, occurrences result jd =
    if jd.isFinite = true ∧ ∃ point ∈ timeseries, (time point).eq jd = true then 1 else 0
  kept : ∀ point ∈ result, firstAt timeseries (time point) = some point

def NegZeroFirst (timeseries : List α) : Prop :=
  ∀ first, firstAt timeseries F64.zero = some first → ∀ point ∈ timeseries, time point = F64.negZero →
    time first = F64.negZero

def before (one other : α) : Prop := (time one).totalRank ≤ (time other).totalRank

instance : DecidableRel (before (α := α)) := fun one other =>
  inferInstanceAs (Decidable ((time one).totalRank ≤ (time other).totalRank))

instance : Std.Total (before (α := α)) := ⟨fun _ _ => Int.le_total _ _⟩

instance : IsTrans α before := ⟨fun _ _ _ => Int.le_trans⟩

abbrev apart (previous point : α) : Prop := ¬ (time point).eq (time previous) = true

variable (timeseries : List α)

theorem sanitizeTimeseries_eq : sanitizeTimeseries timeseries =
    ((timeseries.insertionSort before).destutter apart).filter fun point => (time point).isFinite := rfl

theorem eq_self {point : α} (finite : (time point).isFinite = true) : (time point).eq (time point) = true :=
  (F64.eq_iff finite finite).mpr rfl

/-! ## The first of the sorted points -/

theorem firstAt_destutter' (first : α) (rest : List α) (sorted : (first :: rest).Pairwise before) {kept : α}
    (member : kept ∈ rest.destutter' apart first) (finite : (time kept).isFinite = true) :
    firstAt (first :: rest) (time kept) = some kept := by
  induction rest generalizing first with
  | nil =>
    obtain rfl : kept = first := by simpa using member
    simp [firstAt, eq_self finite]
  | cons next rest ih =>
    have increasing := destutter_sorted first (next :: rest) sorted
    obtain ⟨fromFirst, later⟩ := List.pairwise_cons.mp sorted
    rw [List.destutter'_cons] at member increasing
    split at member
    next different =>
      rw [if_pos different] at increasing
      rcases List.mem_cons.mp member with rfl | inRest
      · simp [firstAt, eq_self finite]
      · have found := ih next later inRest
        -- a first point of the same time would lie strictly below it
        have missed : (time first).eq (time kept) = false := by
          rw [Bool.eq_false_iff]
          intro hit
          have same : (time first).rank = (time kept).rank := by
            simp only [F64.eq, Bool.and_eq_true, decide_eq_true_eq] at hit
            exact hit.2
          have firstFinite := (F64.isFinite_congr same).trans finite
          have below := (List.pairwise_cons.mp increasing).1 kept inRest firstFinite finite
          simp only [epoch] at below
          omega
        simpa [firstAt, missed] using found
    next repeated =>
      have short : (first :: rest).Pairwise before :=
        List.pairwise_cons.mpr ⟨fun other inRest => fromFirst other (by simp [inRest]), (List.pairwise_cons.mp later).2⟩
      have found := ih first short member
      cases hit : (time first).eq (time kept) with
      | true => simpa [firstAt, hit] using found
      | false =>
        -- the dropped point is of the first one's time
        have missed : (time next).eq (time kept) = false := by
          simp only [F64.eq, Bool.and_eq_true, decide_eq_true_eq, not_not, Bool.not_eq_true'] at repeated
          rw [← hit]
          unfold F64.eq
          rw [repeated.1.1, repeated.1.2, repeated.2]
        simpa [firstAt, hit, missed] using found

theorem firstAt_sorted {timeseries : List α} {kept : α} (member : kept ∈ sanitizeTimeseries timeseries) :
    firstAt (timeseries.insertionSort before) (time kept) = some kept := by
  have sorted := List.pairwise_insertionSort before timeseries
  rw [sanitizeTimeseries_eq] at member
  obtain ⟨listed, finite⟩ := List.mem_filter.mp member
  cases shape : timeseries.insertionSort before with
  | nil => simp [shape] at listed
  | cons first rest =>
    rw [shape] at listed sorted
    exact firstAt_destutter' first rest sorted listed finite

theorem firstAt_insertionSort_iff (jd : F64) :
    firstAt (timeseries.insertionSort before) jd = firstAt timeseries jd ↔
      ∀ first, firstAt timeseries jd = some first →
        ∀ other ∈ timeseries, (time other).eq jd = true → before first other := by
  unfold firstAt
  rw [← List.head?_filter, ← List.head?_filter, filter_insertionSort, head?_insertionSort_iff]
  simp only [List.mem_filter, and_imp]

theorem firstAt_spec {timeseries : List α} {jd : F64} {first : α} (found : firstAt timeseries jd = some first) :
    first ∈ timeseries ∧ (time first).eq jd = true :=
  ⟨List.mem_of_find?_eq_some found, by simpa using List.find?_some found⟩

theorem firstAt_congr {jd jd' : F64} (number : jd.isNan = false) (number' : jd'.isNan = false)
    (same : jd.rank = jd'.rank) (timeseries : List α) : firstAt timeseries jd = firstAt timeseries jd' := by
  unfold firstAt
  simp only [F64.eq_congr number number' same]

/-! ## Sanitizing -/

theorem sanitizeTimeseries_valid (series : String) :
    validateMonotonicIncreasing (sanitizeTimeseries timeseries) series = .ok () :=
  (validateMonotonicIncreasing_ok_iff _ series).mpr (sanitizeTimeseries_increasing timeseries)

theorem mem_of_mem_sanitizeTimeseries {timeseries : List α} {point : α}
    (member : point ∈ sanitizeTimeseries timeseries) : point ∈ timeseries := by
  rw [sanitizeTimeseries_eq] at member
  have listed := (List.destutter_sublist apart _).subset (List.mem_filter.mp member).1
  exact (List.mem_insertionSort before).mp listed

theorem occurrences_sanitizeTimeseries (jd : F64) :
    occurrences (sanitizeTimeseries timeseries) jd =
      if jd.isFinite = true ∧ ∃ point ∈ timeseries, (time point).eq jd = true then 1 else 0 := by
  have increasing := sanitizeTimeseries_increasing timeseries
  split
  next held =>
    obtain ⟨finite, point, member, same⟩ := held
    have ranks : (time point).rank = jd.rank := by
      simp only [F64.eq, Bool.and_eq_true, decide_eq_true_eq] at same
      exact same.2
    obtain ⟨kept, listed, level⟩ := sanitizeTimeseries_covers member ((F64.isFinite_congr ranks).trans finite)
    exact increasing.occurrences_eq_one finite listed (level.trans ranks)
  next absent =>
    refine List.countP_eq_zero.mpr fun kept listed hit => absent ?_
    have ranks : (time kept).rank = jd.rank := by
      simp only [F64.eq, Bool.and_eq_true, decide_eq_true_eq] at hit
      exact hit.2
    exact ⟨(F64.isFinite_congr ranks).symm.trans (increasing.finite kept listed), kept,
      mem_of_mem_sanitizeTimeseries listed, hit⟩

/-- The point kept of a time is the first one unless a `0.0` stands before every `-0.0` of the series. -/
theorem sanitizeTimeseries_sanitized_iff (timeseries : List α) :
    Sanitized timeseries (sanitizeTimeseries timeseries) ↔ NegZeroFirst timeseries := by
  have finite {kept : α} (listed : kept ∈ sanitizeTimeseries timeseries) : (time kept).isFinite = true :=
    (sanitizeTimeseries_increasing timeseries).finite kept listed
  constructor
  · intro sanitized first found point member negative
    have zeroFinite : (time point).isFinite = true := by rw [negative]; decide
    obtain ⟨kept, listed, level⟩ := sanitizeTimeseries_covers member zeroFinite
    have keptRank : (time kept).rank = F64.zero.rank := by
      rw [← F64.rank_negZero, ← negative]
      exact level
    have number := F64.not_isNan_of_isFinite (finite listed)
    -- the first zero of the input and that of the sorted series are both the one kept
    have sorted := (firstAt_insertionSort_iff timeseries (time kept)).mp
      ((firstAt_sorted listed).trans (sanitized.kept kept listed).symm)
    have least := sorted first ((firstAt_congr number (by decide) keptRank timeseries).trans found) point member
      ((F64.eq_iff zeroFinite (finite listed)).mpr level.symm)
    have sameRank : (time first).rank = (time point).rank := by
      have hit := (firstAt_spec found).2
      simp only [F64.eq, Bool.and_eq_true, decide_eq_true_eq] at hit
      rw [hit.2, negative, F64.rank_negZero]
    exact (F64.totalRank_le_iff sameRank).mp least negative
  · intro ordered
    refine ⟨sanitizeTimeseries_valid timeseries, occurrences_sanitizeTimeseries timeseries, fun kept listed => ?_⟩
    refine ((firstAt_insertionSort_iff timeseries (time kept)).mpr ?_).symm.trans (firstAt_sorted listed)
    intro first found other member same
    have ranks (point : α) (hit : (time point).eq (time kept) = true) : (time point).rank = (time kept).rank := by
      simp only [F64.eq, Bool.and_eq_true, decide_eq_true_eq] at hit
      exact hit.2
    have sameRank := (ranks first (firstAt_spec found).2).trans (ranks other same).symm
    refine (F64.totalRank_le_iff sameRank).mpr fun negative => ?_
    -- the time is zero, so its first point is the first zero
    have keptRank : (time kept).rank = F64.zero.rank := by
      rw [← ranks other same, negative, F64.rank_negZero]
    have number := F64.not_isNan_of_isFinite (finite listed)
    exact ordered first ((firstAt_congr number (by decide) keptRank timeseries).symm.trans found) other member negative

end Kept

/-- The second of two points is kept, where the first one is to be. -/
theorem zeros_kept_out_of_order : ∃ first second : ZtfPrvCandidate,
    ¬ Sanitized [first, second] (sanitizeTimeseries [first, second]) := by
  refine ⟨⟨F64.zero, some 1⟩, ⟨F64.negZero, some 2⟩, fun sanitized => ?_⟩
  have kept := sanitized.kept ⟨F64.negZero, some 2⟩ (by decide)
  exact absurd kept (by decide)

end Boom.Alert
