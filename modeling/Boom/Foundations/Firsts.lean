import Mathlib.Data.List.Basic
import Mathlib.Data.List.Pairwise

/-! # The first of each kind

Of the items that repeat an earlier one only the first is kept, in the order they came in. -/

namespace Boom.Foundations

section

variable {α : Type} {repeats : α → α → Bool}

def firsts (repeats : α → α → Bool) (kept : List α) : List α → List α
  | [] => kept
  | item :: rest => if kept.any (repeats · item) then firsts repeats kept rest else firsts repeats (kept ++ [item]) rest

def Distinct (repeats : α → α → Bool) (items : List α) : Prop :=
  items.Pairwise fun first second => repeats first second = false

theorem firsts_eq_foldl (kept items : List α) : firsts repeats kept items =
    items.foldl (fun kept item => if kept.any (repeats · item) then kept else kept ++ [item]) kept := by
  induction items generalizing kept with
  | nil => rfl
  | cons item rest ih =>
    rw [firsts, List.foldl_cons]
    split <;> exact ih _

theorem firsts_eq_append (kept items : List α) : ∃ later, later.Sublist items ∧ firsts repeats kept items = kept ++ later := by
  induction items generalizing kept with
  | nil => exact ⟨[], .slnil, (List.append_nil _).symm⟩
  | cons item rest ih =>
    rw [firsts]
    split
    · obtain ⟨later, sub, same⟩ := ih kept
      exact ⟨later, sub.cons _, same⟩
    · obtain ⟨later, sub, same⟩ := ih (kept ++ [item])
      exact ⟨item :: later, sub.cons_cons _, by rw [same, List.append_assoc, List.singleton_append]⟩

theorem firsts_sublist (items : List α) : (firsts repeats [] items).Sublist items := by
  obtain ⟨later, sub, same⟩ := @firsts_eq_append α repeats [] items
  rwa [same, List.nil_append]

theorem distinct_firsts {kept : List α} (distinct : Distinct repeats kept) (items : List α) :
    Distinct repeats (firsts repeats kept items) := by
  induction items generalizing kept with
  | nil => exact distinct
  | cons item rest ih =>
    rw [firsts]
    split
    · exact ih distinct
    next fresh =>
      apply ih
      refine List.pairwise_append.mpr ⟨distinct, List.pairwise_singleton _ _, fun held there other isItem => ?_⟩
      rw [List.mem_singleton.mp isItem, ← Bool.not_eq_true]
      exact fun same => fresh (List.any_eq_true.mpr ⟨held, there, same⟩)

theorem mem_firsts_or_exists_repeated {before : α → α → Prop} {kept items : List α}
    (ordered : (kept ++ items).Pairwise before) : ∀ item ∈ items, item ∈ firsts repeats kept items ∨
      ∃ held ∈ firsts repeats kept items, before held item ∧ repeats held item = true := by
  induction items generalizing kept with
  | nil => exact fun _ none_ => absurd none_ List.not_mem_nil
  | cons first rest ih =>
    rw [firsts]
    split
    next repeated =>
      have ordered' : (kept ++ rest).Pairwise before := ordered.sublist (List.Sublist.append_left (List.sublist_cons_self _ _) _)
      have stays : ∀ held ∈ kept, held ∈ firsts repeats kept rest := by
        obtain ⟨later, -, same⟩ := @firsts_eq_append α repeats kept rest
        rw [same]
        exact fun held there => List.mem_append_left _ there
      intro item among
      rcases List.mem_cons.mp among with rfl | among
      · obtain ⟨held, there, same⟩ := List.any_eq_true.mp repeated
        exact .inr ⟨held, stays held there, (List.pairwise_append.mp ordered).2.2 held there item List.mem_cons_self, same⟩
      · exact ih ordered' item among
    · rw [← List.singleton_append, ← List.append_assoc] at ordered
      intro item among
      rcases List.mem_cons.mp among with rfl | among
      · obtain ⟨later, -, same⟩ := @firsts_eq_append α repeats (kept ++ [item]) rest
        rw [same]
        exact .inl (by simp)
      · exact ih ordered item among

theorem firsts_of_distinct {kept items : List α} (distinct : Distinct repeats (kept ++ items)) :
    firsts repeats kept items = kept ++ items := by
  induction items generalizing kept with
  | nil => rw [firsts, List.append_nil]
  | cons item rest ih =>
    have fresh : ¬ kept.any (repeats · item) = true := by
      rw [List.any_eq_true]
      rintro ⟨held, there, same⟩
      have apart := (List.pairwise_append.mp distinct).2.2 held there item List.mem_cons_self
      rw [apart] at same
      cases same
    rw [firsts, if_neg fresh, ih (by simpa [Distinct] using distinct), List.append_assoc,
      List.singleton_append]

theorem filter_firsts {keep : α → Bool} (agree : ∀ first second, repeats first second = true → keep first = keep second)
    (kept items : List α) :
    (firsts repeats kept items).filter keep = firsts repeats (kept.filter keep) (items.filter keep) := by
  induction items generalizing kept with
  | nil => rfl
  | cons item rest ih =>
    have among : keep item = true → (kept.filter keep).any (repeats · item) = kept.any (repeats · item) := by
      intro keeps
      rw [Bool.eq_iff_iff, List.any_eq_true, List.any_eq_true]
      constructor
      · rintro ⟨held, there, same⟩
        exact ⟨held, (List.mem_filter.mp there).1, same⟩
      · rintro ⟨held, there, same⟩
        exact ⟨held, List.mem_filter.mpr ⟨there, (agree held item same).trans keeps⟩, same⟩
    rw [firsts]
    by_cases keeps : keep item = true
    · rw [List.filter_cons_of_pos keeps, firsts, among keeps]
      split
      · exact ih kept
      · rw [ih, List.filter_append, List.filter_cons_of_pos keeps, List.filter_nil]
    · rw [List.filter_cons_of_neg keeps]
      split
      · exact ih kept
      · rw [ih, List.filter_append, List.filter_cons_of_neg keeps, List.filter_nil, List.append_nil]

end

end Boom.Foundations
