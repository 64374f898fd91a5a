import Boom.Foundations.DoubleArithmetic

/-! # Doubles up to the sign of zero

The two zeros are one number: no comparison tells them apart, and a difference of finite numbers
depends on the numbers only. -/

namespace Boom.Foundations.F64

variable {first second first' second' : F64}

def Alike (first second : F64) : Prop := first = second ∨ first.eq second = true

def canon (value : F64) : F64 := if value.magnitude = 0 then zero else value

theorem Alike.of_rank (number : first.isNan = false) (number' : second.isNan = false) (same : first.rank = second.rank) :
    Alike first second := by
  right
  simp [eq, number, number', same]

theorem rank_canon (value : F64) : value.canon.rank = value.rank := by
  unfold canon
  split
  next none_ => exact rank_eq_iff.mpr (.inr ⟨rfl, none_⟩)
  next => rfl

theorem canon_eq_iff : first.canon = second.canon ↔ first.rank = second.rank := by
  constructor
  · intro same
    rw [← rank_canon first, same, rank_canon]
  · intro same
    rcases rank_eq_iff.mp same with rfl | ⟨none_, none_'⟩
    · rfl
    · rw [canon, canon, if_pos none_, if_pos none_']

/-! ## Signs -/

theorem magnitude_signed {negative : Bool} {magnitude : Nat} (small : magnitude < signBit) :
    (signed negative magnitude).magnitude = magnitude := by
  unfold signed F64.magnitude
  unfold signBit at *
  cases negative <;> simp <;> omega

theorem negative_signed {negative : Bool} {magnitude : Nat} (small : magnitude < signBit) :
    (signed negative magnitude).negative = negative := by
  unfold signed F64.negative
  unfold signBit at *
  cases negative <;> simp <;> omega

theorem rank_neg (value : F64) : value.neg.rank = -value.rank := by
  have small := value.magnitude_lt
  unfold neg rank
  rw [magnitude_signed small, negative_signed small]
  cases value.negative <;> simp

theorem isFinite_neg (value : F64) : value.neg.isFinite = value.isFinite := by
  unfold isFinite neg
  rw [magnitude_signed value.magnitude_lt]

theorem toRat_eq_iff : first.toRat = second.toRat ↔ first.rank = second.rank := by
  rw [le_antisymm_iff, toRat_le_iff, toRat_le_iff, ← le_antisymm_iff]

/-! ## Differences -/

theorem isNan_signed {negative : Bool} {magnitude : Nat} (le : magnitude ≤ infinite) :
    (signed negative magnitude).isNan = false := by
  unfold isNan
  rw [magnitude_signed (lt_of_le_of_lt le (by decide)), decide_eq_false (Nat.not_lt.mpr le)]

theorem isNan_ofRat (value : ℚ) : (ofRat value).isNan = false := isNan_signed (Nat.min_le_left _ _)

theorem sub_eq (finite : first.isFinite = true) (finite' : second.isFinite = true) : first.sub second =
    if first.toRat + second.neg.toRat = 0 then signed (first.negative && second.neg.negative) 0
    else ofRat (first.toRat + second.neg.toRat) := by
  have finite'' := (isFinite_neg second).trans finite'
  simp [sub, add, not_isNan_of_isFinite finite, not_isNan_of_isFinite finite'', finite, finite'']

theorem isNan_sub (finite : first.isFinite = true) (finite' : second.isFinite = true) : (first.sub second).isNan = false := by
  rw [sub_eq finite finite']
  split
  · exact isNan_signed (Nat.zero_le _)
  · exact isNan_ofRat _

section

variable (finite : first.isFinite = true) (finite' : second.isFinite = true) (same : first.rank = first'.rank)
  (same' : second.rank = second'.rank)
include finite finite' same same'

theorem rank_sub_congr : (first.sub second).rank = (first'.sub second').rank := by
  have sum : first.toRat + second.neg.toRat = first'.toRat + second'.neg.toRat := by
    have negs : second.neg.toRat = second'.neg.toRat := toRat_eq_iff.mpr (by rw [rank_neg, rank_neg, same'])
    rw [toRat_eq_iff.mpr same, negs]
  rw [sub_eq finite finite', sub_eq ((isFinite_congr same).symm.trans finite) ((isFinite_congr same').symm.trans finite'), sum]
  split
  · exact rank_eq_iff.mpr (.inr ⟨magnitude_signed (by decide), magnitude_signed (by decide)⟩)
  · rfl

theorem lt_sub_congr (bound : F64) : bound.lt (first.sub second) = bound.lt (first'.sub second') := by
  have number := isNan_sub finite finite'
  have number' := isNan_sub ((isFinite_congr same).symm.trans finite) ((isFinite_congr same').symm.trans finite')
  unfold lt
  rw [number, number', rank_sub_congr finite finite' same same']

end

end Boom.Foundations.F64
