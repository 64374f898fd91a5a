import Mathlib.Algebra.BigOperators.Group.List.Basic

/-! # Cutting a list into pieces

Filters that each item passes exactly one of cut a list into pieces that together are
the list again, each item as often as it was there. -/

namespace Boom.Foundations

variable {α β : Type}

theorem count_pieces [DecidableEq α] (passes : β → α → Bool) (item : α) (items : List α) (filters : List β) :
    (filters.flatMap fun filter => items.filter (passes filter)).count item =
      filters.countP (passes · item) * items.count item := by
  induction filters with
  | nil => simp
  | cons filter rest ih =>
    rw [List.flatMap_cons, List.count_append, ih, List.countP_cons, Nat.add_mul, Nat.add_comm]
    congr 1
    by_cases passed : passes filter item = true
    · simp [List.count_filter passed, passed]
    · have absent : item ∉ items.filter (passes filter) := fun member => passed (List.mem_filter.mp member).2
      simp [List.count_eq_zero.mpr absent, passed]

theorem pieces_perm {passes : β → α → Bool} {items : List α} {filters : List β}
    (once : ∀ item ∈ items, filters.countP (passes · item) = 1) :
    (filters.flatMap fun filter => items.filter (passes filter)).Perm items := by
  classical
  rw [List.perm_iff_count]
  intro item
  rw [count_pieces]
  by_cases member : item ∈ items
  · rw [once item member, Nat.one_mul]
  · rw [List.count_eq_zero.mpr member, Nat.mul_zero]

end Boom.Foundations
