import Mathlib.Data.List.Infix

/-! # Cutting texts

Texts are lists of characters.  `splitOnce` cuts one at the first place where a separator
stands, `rsplitOnce` at the last place where a character does. -/

namespace Boom.Foundations

variable {α : Type} [DecidableEq α]

def splitOnce (separator : List α) : List α → Option (List α × List α)
  | [] => if separator.isEmpty then some ([], []) else none
  | first :: rest =>
    if separator.isPrefixOf (first :: rest) then some ([], (first :: rest).drop separator.length)
    else (splitOnce separator rest).map fun parts => (first :: parts.1, parts.2)

def rsplitOnce (separator : α) (text : List α) : Option (List α × List α) :=
  (splitOnce [separator] text.reverse).map fun parts => (parts.2.reverse, parts.1.reverse)

variable {separator text before after : List α}

theorem splitOnce_nil (nonempty : separator ≠ []) : splitOnce separator [] = none := by
  unfold splitOnce
  rw [if_neg (by simpa using nonempty)]

theorem splitOnce_eq_some (split : splitOnce separator text = some (before, after)) :
    text = before ++ separator ++ after := by
  induction text generalizing before with
  | nil =>
    unfold splitOnce at split
    split at split
    · next empty =>
      cases split
      rw [List.isEmpty_iff.mp empty]
      rfl
    · cases split
  | cons first rest ih =>
    unfold splitOnce at split
    split at split
    · next here =>
      cases split
      obtain ⟨others, same⟩ := List.isPrefixOf_iff_prefix.mp here
      rw [← same, List.drop_left, List.nil_append]
    · obtain ⟨⟨between, others⟩, later, same⟩ := Option.map_eq_some_iff.mp split
      cases same
      rw [ih later]
      rfl

theorem splitOnce_append (split : splitOnce separator text = some (before, after)) (suffix : List α) :
    splitOnce separator (text ++ suffix) = some (before, after ++ suffix) := by
  induction text generalizing before with
  | nil =>
    unfold splitOnce at split
    split at split
    · next empty =>
      cases split
      rw [List.isEmpty_iff.mp empty]
      cases suffix <;> rfl
    · cases split
  | cons first rest ih =>
    rw [List.cons_append]
    unfold splitOnce at split ⊢
    split at split
    · next here =>
      cases split
      have prefix_ := List.isPrefixOf_iff_prefix.mp here
      have stillHere : separator.isPrefixOf (first :: (rest ++ suffix)) = true :=
        List.isPrefixOf_iff_prefix.mpr (prefix_.trans (List.prefix_append _ suffix))
      rw [if_pos stillHere, ← List.cons_append, List.drop_append_of_le_length prefix_.length_le]
    · next elsewhere =>
      obtain ⟨⟨between, others⟩, later, same⟩ := Option.map_eq_some_iff.mp split
      cases same
      -- The separator stands in the rest, so it is too short to reach beyond it.
      have fits : separator.length ≤ (first :: rest).length := by
        have whole := congrArg List.length (splitOnce_eq_some later)
        simp only [List.length_append, List.length_cons] at whole ⊢
        omega
      have notHere : ¬ separator.isPrefixOf (first :: (rest ++ suffix)) = true := fun here =>
        elsewhere (List.isPrefixOf_iff_prefix.mpr (List.prefix_of_prefix_length_le
          (List.isPrefixOf_iff_prefix.mp here) (List.prefix_append (first :: rest) suffix) fits))
      rw [if_neg notHere, ih later]
      rfl

theorem splitOnce_append_cons {mark : α} (foreign : mark ∉ separator) (absent : splitOnce separator text = none)
    (suffix : List α) :
    splitOnce separator (text ++ mark :: suffix) =
      (splitOnce separator suffix).map fun parts => (text ++ mark :: parts.1, parts.2) := by
  have apart (list : List α) (elsewhere : ¬ separator.isPrefixOf list = true) :
      ¬ separator.isPrefixOf (list ++ mark :: suffix) = true := by
    intro here
    have reaches : list ++ [mark] <+: list ++ mark :: suffix := ⟨suffix, by simp⟩
    rcases List.prefix_or_prefix_of_prefix (List.isPrefixOf_iff_prefix.mp here) reaches with within | beyond
    · rcases List.prefix_concat_iff.mp within with whole | inside
      · exact foreign (by simp [whole])
      · exact elsewhere (List.isPrefixOf_iff_prefix.mpr inside)
    · exact foreign (beyond.subset (by simp))
  induction text with
  | nil =>
    have nonempty : ¬ separator.isPrefixOf [] = true := by
      intro here
      unfold splitOnce at absent
      rw [if_pos (by simpa using here)] at absent
      cases absent
    have notHere : ¬ separator.isPrefixOf (mark :: suffix) = true := apart [] nonempty
    rw [List.nil_append, splitOnce, if_neg notHere]
    rfl
  | cons first rest ih =>
    unfold splitOnce at absent
    split at absent
    · cases absent
    · next elsewhere =>
      have notHere : ¬ separator.isPrefixOf (first :: (rest ++ mark :: suffix)) = true := apart (first :: rest) elsewhere
      rw [List.cons_append, splitOnce, if_neg notHere, ih (Option.map_eq_none_iff.mp absent)]
      cases splitOnce separator suffix <;> rfl

theorem splitOnce_start (suffix : List α) : splitOnce separator (separator ++ suffix) = some ([], suffix) := by
  cases separator with
  | nil => cases suffix <;> rfl
  | cons first others =>
    have here : (first :: others).isPrefixOf (first :: (others ++ suffix)) = true :=
      List.isPrefixOf_iff_prefix.mpr ⟨suffix, rfl⟩
    rw [List.cons_append, splitOnce, if_pos here, ← List.cons_append, List.drop_left]

/-- A separator is found no later than where one stands. -/
theorem splitOnce_le (separator opening suffix : List α) : ∃ before after,
    splitOnce separator (opening ++ separator ++ suffix) = some (before, after) ∧ before.length ≤ opening.length := by
  induction opening with
  | nil => exact ⟨[], suffix, splitOnce_start suffix, le_rfl⟩
  | cons first rest ih =>
    obtain ⟨before, after, found, early⟩ := ih
    rw [List.cons_append, List.cons_append, splitOnce]
    split
    · exact ⟨[], _, rfl, Nat.zero_le _⟩
    · exact ⟨first :: before, after, by rw [found]; rfl, Nat.succ_le_succ early⟩

theorem splitOnce_first (split : splitOnce separator text = some (before, after)) :
    splitOnce separator (before ++ separator) = some (before, []) := by
  induction text generalizing before with
  | nil =>
    unfold splitOnce at split
    split at split
    · next empty =>
      cases split
      rw [List.isEmpty_iff.mp empty]
      rfl
    · cases split
  | cons first rest ih =>
    have whole := splitOnce_eq_some split
    unfold splitOnce at split
    split at split
    · cases split
      simpa using @splitOnce_start _ _ separator []
    · next elsewhere =>
      obtain ⟨⟨between, others⟩, later, same⟩ := Option.map_eq_some_iff.mp split
      cases same
      have notHere : ¬ separator.isPrefixOf (first :: (between ++ separator)) = true := fun here =>
        elsewhere (List.isPrefixOf_iff_prefix.mpr ((List.isPrefixOf_iff_prefix.mp here).trans
          ⟨others, by rw [whole]; simp⟩))
      rw [List.cons_append, splitOnce, if_neg notHere, ih later]
      rfl

theorem splitOnce_of_not_mem {first : α} {others : List α} (absent : first ∉ text) (suffix : List α) :
    splitOnce (first :: others) (text ++ (first :: others) ++ suffix) = some (text, suffix) := by
  induction text with
  | nil => exact splitOnce_start suffix
  | cons char rest ih =>
    rw [List.mem_cons, not_or] at absent
    rw [List.cons_append, List.cons_append, splitOnce, ih absent.2]
    have elsewhere : ¬ (first :: others).isPrefixOf (char :: (rest ++ first :: others ++ suffix)) = true := by
      simp [absent.1]
    rw [if_neg elsewhere]
    rfl

theorem not_mem_of_splitOnce_none {mark : α} (absent : splitOnce [mark] text = none) : mark ∉ text := by
  induction text with
  | nil => exact List.not_mem_nil
  | cons first rest ih =>
    unfold splitOnce at absent
    split at absent
    · cases absent
    · next elsewhere =>
      intro member
      rcases List.mem_cons.mp member with same | later
      · exact elsewhere (by simp [same])
      · exact ih (Option.map_eq_none_iff.mp absent) later

theorem rsplitOnce_eq_some {mark : α} (split : rsplitOnce mark text = some (before, after)) :
    text = before ++ mark :: after := by
  obtain ⟨⟨first, second⟩, found, same⟩ := Option.map_eq_some_iff.mp split
  cases same
  simpa using congrArg List.reverse (splitOnce_eq_some found)

theorem not_mem_of_rsplitOnce_none {mark : α} (absent : rsplitOnce mark text = none) : mark ∉ text := by
  have backwards := not_mem_of_splitOnce_none (Option.map_eq_none_iff.mp absent)
  rwa [List.mem_reverse] at backwards

end Boom.Foundations
