import Boom.Foundations.Pieces
import Mathlib.Order.Lattice

/-! # Range shards

A pass over a whole collection is split into ranges of one field, cut at sampled values.
`$lt` and `$gte` compare a value with a cut of its own comparison type only, so the ranges
cover the collection once when the values are of one type: `countP_shardFilters`. -/

namespace Boom.Utils

open Boom.Foundations

/-- One filter of a sharded pass. -/
inductive ShardFilter (V : Type) where
  | all
  | below (cut : V)
  | between (low high : V)
  | from_ (cut : V)
deriving DecidableEq

variable {V : Type}

def pickCuts (bounds : List V) (parts : Nat) : List V :=
  (List.range (parts - 1)).filterMap fun i => bounds[(i + 1) * bounds.length / parts]?

def rangesFrom (first : V) (rest : List V) : List (ShardFilter V) :=
  (((first :: rest).zip rest).map fun pair => .between pair.1 pair.2) ++ [.from_ (rest.getLastD first)]

def shardFilters : List V → List (ShardFilter V)
  | [] => [.all]
  | first :: rest => .below first :: rangesFrom first rest

def rangeShards (parts : Nat) (bounds : List V) : List (ShardFilter V) :=
  if parts ≤ 1 ∨ bounds.length < parts then [.all] else shardFilters (pickCuts bounds parts)

theorem pickCuts_subset {bounds : List V} {parts : Nat} : ∀ cut ∈ pickCuts bounds parts, cut ∈ bounds := by
  intro cut member
  obtain ⟨i, _, found⟩ := List.mem_filterMap.mp member
  exact List.mem_of_getElem? found

theorem rangesFrom_cons (first next : V) (rest : List V) :
    rangesFrom first (next :: rest) = .between first next :: rangesFrom next rest := by
  cases rest <;> rfl

structure Comparison (V : Type) [LinearOrder V] where
  kind : V → Option Nat
  lt : Option V → V → Bool
  gte : Option V → V → Bool
  lt_value : ∀ {value cut : V} {own : Nat}, kind value = some own → kind cut = some own →
    lt (some value) cut = decide (value < cut)
  gte_value : ∀ {value cut : V} {own : Nat}, kind value = some own → kind cut = some own →
    gte (some value) cut = decide (cut ≤ value)
  lt_missing : ∀ {cut : V} {own : Nat}, kind cut = some own → lt none cut = false
  gte_missing : ∀ {cut : V} {own : Nat}, kind cut = some own → gte none cut = false

variable [LinearOrder V]

def ShardFilter.matches_ (comparison : Comparison V) : ShardFilter V → Option V → Bool
  | .all, _ => true
  -- `$or` with `$exists: false`: the first range takes what lacks the field
  | .below cut, value => comparison.lt value cut || value.isNone
  | .between low high, value => comparison.gte value low && comparison.lt value high
  | .from_ cut, value => comparison.gte value cut

/-! ## The ranges cover every value once -/

section Cover

variable {comparison : Comparison V} {own : Nat}

theorem pickCuts_ordered {bounds : List V} (ordered : bounds.Pairwise (· ≤ ·)) (parts : Nat) :
    (pickCuts bounds parts).Pairwise (· ≤ ·) := by
  refine List.pairwise_lt_range.filterMap _ ?_
  intro i j earlier first atFirst second atSecond
  obtain ⟨firstBound, rfl⟩ := List.getElem?_eq_some_iff.mp atFirst
  obtain ⟨secondBound, rfl⟩ := List.getElem?_eq_some_iff.mp atSecond
  have le : (i + 1) * bounds.length / parts ≤ (j + 1) * bounds.length / parts :=
    Nat.div_le_div_right (Nat.mul_le_mul_right _ (by omega))
  rcases Nat.lt_or_eq_of_le le with strictly | same
  · exact List.pairwise_iff_getElem.mp ordered _ _ firstBound secondBound strictly
  · simp only [same, le_refl]

theorem countP_rangesFrom {value : V} (typed : comparison.kind value = some own) {first : V} {rest : List V}
    (kinds : ∀ cut ∈ first :: rest, comparison.kind cut = some own) (ordered : (first :: rest).Pairwise (· ≤ ·)) :
    (rangesFrom first rest).countP (·.matches_ comparison (some value)) = if first ≤ value then 1 else 0 := by
  induction rest generalizing first with
  | nil => simp [rangesFrom, ShardFilter.matches_, comparison.gte_value typed (kinds first (by simp))]
  | cons next rest ih =>
    obtain ⟨below, orderedRest⟩ := List.pairwise_cons.mp ordered
    have le : first ≤ next := below next (by simp)
    have later := ih (fun cut member => kinds cut (List.mem_cons_of_mem first member)) orderedRest
    have lower := comparison.gte_value typed (kinds first (by simp))
    have upper := comparison.lt_value typed (kinds next (by simp))
    rw [rangesFrom_cons, List.countP_cons, later]
    simp only [ShardFilter.matches_, lower, upper]
    -- the value is above the next cut, or in the range just below it, or below both
    by_cases high : next ≤ value
    · simp [high, le_trans le high]
    · simp [high, not_le.mp high]

theorem countP_rangesFrom_missing {first : V} {rest : List V}
    (kinds : ∀ cut ∈ first :: rest, comparison.kind cut = some own) :
    (rangesFrom first rest).countP (·.matches_ comparison none) = 0 := by
  induction rest generalizing first with
  | nil => simp [rangesFrom, ShardFilter.matches_, comparison.gte_missing (kinds first (by simp))]
  | cons next rest ih =>
    rw [rangesFrom_cons, List.countP_cons,
      ih fun cut member => kinds cut (List.mem_cons_of_mem first member)]
    simp [ShardFilter.matches_, comparison.gte_missing (kinds first (by simp))]

theorem countP_shardFilters {cuts : List V} (kinds : ∀ cut ∈ cuts, comparison.kind cut = some own)
    (ordered : cuts.Pairwise (· ≤ ·)) {value : Option V}
    (typed : ∀ held, value = some held → comparison.kind held = some own) :
    (shardFilters cuts).countP (·.matches_ comparison value) = 1 := by
  cases cuts with
  | nil => simp [shardFilters, ShardFilter.matches_]
  | cons first rest =>
    cases value with
    | none =>
      rw [shardFilters, List.countP_cons, countP_rangesFrom_missing kinds]
      simp [ShardFilter.matches_]
    | some held =>
      have same := typed held rfl
      rw [shardFilters, List.countP_cons, countP_rangesFrom same kinds ordered]
      simp only [ShardFilter.matches_, comparison.lt_value same (kinds first (by simp))]
      by_cases low : first ≤ held
      · simp [low]
      · simp [low, not_le.mp low]

theorem countP_rangeShards {bounds : List V} (parts : Nat)
    (kinds : ∀ bound ∈ bounds, comparison.kind bound = some own) (ordered : bounds.Pairwise (· ≤ ·))
    {value : Option V} (typed : ∀ held, value = some held → comparison.kind held = some own) :
    (rangeShards parts bounds).countP (·.matches_ comparison value) = 1 := by
  unfold rangeShards
  split
  next => simp [ShardFilter.matches_]
  next =>
    have cutKinds : ∀ cut ∈ pickCuts bounds parts, comparison.kind cut = some own :=
      fun cut member => kinds cut (pickCuts_subset cut member)
    exact countP_shardFilters cutKinds (pickCuts_ordered ordered parts) typed

end Cover

end Boom.Utils
