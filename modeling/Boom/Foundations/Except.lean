import Mathlib.Data.List.Basic

/-! # Steps that may fail

What is known of the steps when a sequence of them succeeded. -/

namespace Boom.Foundations

variable {ε α β : Type}

theorem bind_eq_ok {first : Except ε α} {rest : α → Except ε β} {result : β} :
    (first >>= rest) = .ok result ↔ ∃ value, first = .ok value ∧ rest value = .ok result := by
  cases first <;> simp [bind, Except.bind]

theorem mapM_ok {step : α → Except ε β} {result : α → β} {list : List α}
    (each : ∀ item ∈ list, step item = .ok (result item)) : list.mapM step = .ok (list.map result) := by
  induction list with
  | nil => rfl
  | cons item rest ih =>
    simp only [List.mem_cons, forall_eq_or_imp] at each
    rw [List.mapM_cons, each.1, ih each.2]
    rfl

theorem exists_of_mapM {step : α → Except ε β} {list : List α} {results : List β}
    (ran : list.mapM step = .ok results) {item : α} (listed : item ∈ list) : ∃ result ∈ results, step item = .ok result := by
  induction list generalizing results with
  | nil => cases listed
  | cons first rest ih =>
    rw [List.mapM_cons] at ran
    obtain ⟨here, isHere, ran⟩ := bind_eq_ok.mp ran
    obtain ⟨later, isLater, same⟩ := bind_eq_ok.mp ran
    obtain rfl := Except.ok.inj same
    rcases List.mem_cons.mp listed with rfl | listed
    · exact ⟨here, List.mem_cons_self, isHere⟩
    · obtain ⟨result, member, isResult⟩ := ih isLater listed
      exact ⟨result, List.mem_cons_of_mem here member, isResult⟩

end Boom.Foundations
