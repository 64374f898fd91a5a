import Mathlib

/-! # Replacing one item of a list

A system of several workers takes a step by replacing the state of one of them.  Whoever
is found afterwards is the one replaced or was there before, and whoever was there before
is the one replaced or is still there. -/

namespace Boom.Foundations

variable {α : Type} {items : List α} {index place : Nat} {item found : α}

theorem getElem?_set_cases (at_ : (items.set index item)[place]? = some found) :
    (place = index ∧ found = item) ∨ (place ≠ index ∧ items[place]? = some found) := by
  rw [List.getElem?_set] at at_
  split at at_
  next same =>
    split at at_
    next => exact .inl ⟨same.symm, (Option.some.inj at_).symm⟩
    next => cases at_
  next differs => exact .inr ⟨Ne.symm differs, at_⟩

theorem mem_set_of_getElem? (at_ : items[index]? = some found) : item ∈ items.set index item := by
  obtain ⟨bound, _⟩ := List.getElem?_eq_some_iff.mp at_
  exact List.mem_set bound item

theorem mem_set_or_eq {other : α} (at_ : items[index]? = some found) (member : other ∈ items) :
    other = found ∨ other ∈ items.set index item := by
  obtain ⟨place, atPlace⟩ := List.mem_iff_getElem?.mp member
  by_cases same : index = place
  · subst same
    rw [at_] at atPlace
    exact .inl (Option.some.inj atPlace).symm
  · refine .inr (List.mem_iff_getElem?.mpr ⟨place, ?_⟩)
    rw [List.getElem?_set_ne same]
    exact atPlace

theorem sum_map_set (weight : α → Nat) (item : α) (at_ : items[index]? = some found) :
    ((items.set index item).map weight).sum + weight found = (items.map weight).sum + weight item := by
  induction items generalizing index with
  | nil => cases at_
  | cons first rest ih =>
    cases index with
    | zero =>
      obtain rfl : first = found := Option.some.inj at_
      simp only [List.set_cons_zero, List.map_cons, List.sum_cons]
      omega
    | succ index =>
      have rest' := ih at_
      simp only [List.set_cons_succ, List.map_cons, List.sum_cons]
      omega

end Boom.Foundations
