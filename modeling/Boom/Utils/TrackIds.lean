import Boom.Foundations.AsciiOrder
import Boom.Utils.TrackStamps

/-! # Minted ids sort in minting order

An id is `BT`, a lead and five digits.  The lead counts the hundred thousands up to the last digit of base 62,
and is then a `~`, which lies above every digit. -/

namespace Boom.Utils

open Boom.Foundations

/-! ## Digits -/

variable {first second : Nat}

theorem digit_lt (less : first < second) (bound : second < 62) :
    base62.getD first '0' < base62.getD second '0' := by
  have ascending : base62.Pairwise (· < ·) := by
    unfold base62
    rw [String.toList_ofList]
    decide +kernel
  have length : base62.length = 62 := by decide +kernel
  rw [List.getD_eq_getElem _ _ (length ▸ Nat.lt_trans less bound), List.getD_eq_getElem _ _ (length ▸ bound)]
  exact List.pairwise_iff_getElem.mp ascending _ _ _ _ less

theorem digit_ascii {number : Nat} (bound : number < 62) : IsAscii (base62.getD number '0') := by
  have ascii : ∀ char ∈ base62, IsAscii char := forall_of_all (by decide +kernel)
  have length : base62.length = 62 := by decide +kernel
  rw [List.getD_eq_getElem _ _ (length ▸ bound)]
  exact ascii _ (List.getElem_mem _)

theorem digit_lt_tilde {number : Nat} (bound : number < 62) : base62.getD number '0' < '~' := by
  have below : ∀ char ∈ base62, char < '~' := forall_of_all (by decide +kernel)
  have length : base62.length = 62 := by decide +kernel
  rw [List.getD_eq_getElem _ _ (length ▸ bound)]
  exact below _ (List.getElem_mem _)

section Digits

variable {base : Nat} (positive : 0 < base) (few : base ≤ 62)

theorem length_digits (base width number : Nat) : (digits base width number).length = width := by
  induction width generalizing number with
  | zero => rfl
  | succ width ih => simp [digits, ih]

include positive few

theorem digits_ascii (width number : Nat) : ∀ char ∈ digits base width number, IsAscii char := by
  induction width generalizing number with
  | zero => simp [digits]
  | succ width ih =>
    intro char member
    rcases List.mem_append.mp member with front | last
    · exact ih _ char front
    · rw [List.mem_singleton.mp last]
      exact digit_ascii (Nat.lt_of_lt_of_le (Nat.mod_lt _ positive) few)

theorem digits_lt {width first second : Nat} (less : first < second) (bound : second < Nat.pow base width) :
    digits base width first < digits base width second := by
  induction width generalizing first second with
  | zero =>
    have one : Nat.pow base 0 = 1 := rfl
    omega
  | succ width ih =>
    have pow : Nat.pow base (width + 1) = Nat.pow base width * base := rfl
    have quotients : first / base ≤ second / base := Nat.div_le_div_right (Nat.le_of_lt less)
    rcases Nat.lt_or_eq_of_le quotients with lower | level
    · have front := ih lower (Nat.div_lt_of_lt_mul (by rw [Nat.mul_comm, ← pow]; exact bound))
      exact append_lt_append (by rw [length_digits, length_digits]) front _ _
    · -- the fronts agree and the last digits decide
      have lasts : first % base < second % base := by
        have parts := Nat.div_add_mod first base
        have parts' := Nat.div_add_mod second base
        rw [level] at parts
        omega
      have last := digit_lt lasts (Nat.lt_of_lt_of_le (Nat.mod_lt _ positive) few)
      unfold digits
      rw [level]
      exact List.append_left_lt (List.Lex.rel last)

end Digits

/-! ## Ids -/

def FitsTrkSub (id : String) : Prop := id.toList.length = 8 ∧ ∀ char ∈ id.toList, IsAscii char

theorem formatId_fits (number : Nat) : FitsTrkSub (formatId number) := by
  have ascii : IsAscii 'B' ∧ IsAscii 'T' ∧ IsAscii '~' := by decide
  by_cases small : number < 6200000
  · rw [formatId_small small, FitsTrkSub, String.toList_ofList]
    refine ⟨by simp [length_digits], ?_⟩
    simp only [List.mem_cons, forall_eq_or_imp]
    exact ⟨ascii.1, ascii.2.1, digit_ascii (by omega), digits_ascii (by decide) (by decide) _ _⟩
  · rw [formatId_large small, FitsTrkSub, String.toList_ofList]
    refine ⟨by simp [length_digits], ?_⟩
    simp only [List.mem_cons, forall_eq_or_imp]
    exact ⟨ascii.1, ascii.2.1, ascii.2.2, digits_ascii (by decide) (by decide) _ _⟩

theorem formatId_lt (less : first < second) (bound : second < mintable) :
    (formatId first).toList < (formatId second).toList := by
  have power : Nat.pow 62 5 = 916132832 := rfl
  have power' : Nat.pow 10 5 = 100000 := rfl
  unfold mintable at bound
  by_cases small' : second < 6200000
  · rw [formatId_small (Nat.lt_trans less small'), formatId_small small', String.toList_ofList, String.toList_ofList]
    refine List.Lex.cons (List.Lex.cons ?_)
    have leads : first / 100000 ≤ second / 100000 := Nat.div_le_div_right (Nat.le_of_lt less)
    rcases Nat.lt_or_eq_of_le leads with lower | level
    · exact List.Lex.rel (digit_lt lower (by omega))
    · rw [level]
      exact List.Lex.cons (digits_lt (by decide) (by decide) (by omega) (by omega))
  · rw [formatId_large small', String.toList_ofList]
    by_cases small : first < 6200000
    · rw [formatId_small small, String.toList_ofList]
      exact List.Lex.cons (List.Lex.cons (List.Lex.rel (digit_lt_tilde (by omega))))
    · rw [formatId_large small, String.toList_ofList]
      exact List.Lex.cons (List.Lex.cons (List.Lex.cons (digits_lt (by decide) (by decide) (by omega) (by omega))))

theorem utf8Bytes_formatId_lt (less : first < second) (bound : second < mintable) :
    utf8Bytes (formatId first) < utf8Bytes (formatId second) := by
  have ordered := utf8Bytes_lt (formatId_fits first).2 (formatId_fits second).2 (formatId_lt less bound)
  rwa [String.ofList_toList, String.ofList_toList] at ordered

theorem formatId_le_iff (bound : first < mintable) (bound' : second < mintable) :
    formatId first ≤ formatId second ↔ first ≤ second := by
  constructor
  · intro le
    by_contra above
    exact absurd (String.lt_iff.mpr (formatId_lt (Nat.lt_of_not_le above) bound)) (not_lt.mpr le)
  · intro le
    rcases Nat.lt_or_eq_of_le le with less | rfl
    · exact le_of_lt (String.lt_iff.mpr (formatId_lt less bound'))
    · exact le_refl _

theorem resolveMerge_minted {numbers : List Nat} (bounds : ∀ number ∈ numbers, number < mintable) :
    resolveMerge (numbers.map formatId) = numbers.min?.map fun earliest =>
      (formatId earliest, (numbers.filter (· ≠ earliest)).map formatId) := by
  cases known : numbers.min? with
  | none =>
    obtain rfl : numbers = [] := List.min?_eq_none_iff.mp known
    rfl
  | some earliest =>
    obtain ⟨member, least⟩ := List.min?_eq_some_iff.mp known
    have survivor : (numbers.map formatId).min? = some (formatId earliest) := by
      refine List.min?_eq_some_iff.mpr ⟨List.mem_map_of_mem member, ?_⟩
      intro id listed
      obtain ⟨number, inNumbers, rfl⟩ := List.mem_map.mp listed
      exact (formatId_le_iff (bounds earliest member) (bounds number inNumbers)).mpr (least number inNumbers)
    unfold resolveMerge
    rw [survivor, Option.map_some, Option.map_some, List.filter_map]
    congr 3
    refine List.filter_congr fun number inNumbers => ?_
    have same : formatId number = formatId earliest ↔ number = earliest :=
      ⟨formatId_inj (bounds number inNumbers) (bounds earliest member), congrArg formatId⟩
    simp [same]

/-- Minted ids are short, distinct and sort in minting order, so that a merge keeps the earliest. -/
theorem formatId_ordered :
    (∀ first second, first < second → second < mintable →
      FitsTrkSub (formatId first) ∧ FitsTrkSub (formatId second) ∧ formatId first ≠ formatId second ∧
        utf8Bytes (formatId first) < utf8Bytes (formatId second)) ∧
    ∀ numbers : List Nat, (∀ number ∈ numbers, number < mintable) →
      resolveMerge (numbers.map formatId) = numbers.min?.map fun earliest =>
        (formatId earliest, (numbers.filter (· ≠ earliest)).map formatId) := by
  refine ⟨fun first second less bound => ?_, fun numbers bounds => resolveMerge_minted bounds⟩
  exact ⟨formatId_fits first, formatId_fits second,
    fun same => Nat.ne_of_lt less (formatId_inj (Nat.lt_trans less bound) bound same), utf8Bytes_formatId_lt less bound⟩

theorem formatId_ordered_across :
    utf8Bytes (formatId 6199999) < utf8Bytes (formatId 6200000) ∧
      resolveMerge [formatId 6200000, formatId 6199999] = some (formatId 6199999, [formatId 6200000]) :=
  ⟨(formatId_ordered.1 6199999 6200000 (by decide) (by decide)).2.2.2,
    formatId_ordered.2 [6200000, 6199999] (by decide)⟩

end Boom.Utils
