import Boom.Foundations.SignedZero
import Boom.Foundations.Single
import Boom.Foundations.Text
import Mathlib.Tactic.Linarith

/-! # Numbers read from text

Integers and doubles as the standard library of Rust reads them: the whole text is the number,
with no blanks around it. -/

namespace Boom.Foundations.Decimal

def digitOf (char : Char) : Nat := char.toNat - '0'.toNat

def valueOf (digits : Text) : Nat := digits.foldl (fun value char => 10 * value + digitOf char) 0

def isWhole (text : Text) : Bool := !text.isEmpty && text.all Char.isDigit

def splitSign : Text → Bool × Text
  | '-' :: rest => (true, rest)
  | '+' :: rest => (false, rest)
  | text => (false, text)

def withSign (negative : Bool) (value : Nat) : Int := if negative then -value else value

def parseInt (bits : Nat) (text : Text) : Option Int :=
  let (negative, digits) := splitSign text
  let value := withSign negative (valueOf digits)
  if isWhole digits ∧ -2 ^ (bits - 1) ≤ value ∧ value < 2 ^ (bits - 1) then some value else none

def parseNat (bits : Nat) (text : Text) : Option Nat :=
  let digits := match text with
    | '+' :: rest => rest
    | _ => text
  if isWhole digits ∧ valueOf digits < 2 ^ bits then some (valueOf digits) else none

def parseExponent : Text → Option Int
  | [] => some 0
  | char :: rest =>
    let (negative, digits) := splitSign rest
    if (char = 'e' ∨ char = 'E') ∧ isWhole digits then some (withSign negative (valueOf digits)) else none

def scaled (negative : Bool) (number : Nat) (exponent : Int) : F64 :=
  F64.rounded negative (number * 10 ^ exponent.toNat) (10 ^ (-exponent).toNat)

def splitPoint : Text → Text × Text
  | '.' :: rest => (rest.takeWhile Char.isDigit, rest.dropWhile Char.isDigit)
  | text => ([], text)

def parseDigits (negative : Bool) (text : Text) : Option F64 :=
  let whole := text.takeWhile Char.isDigit
  let (fraction, rest) := splitPoint (text.dropWhile Char.isDigit)
  if whole.isEmpty ∧ fraction.isEmpty then none
  else (parseExponent rest).map fun exponent => scaled negative (valueOf (whole ++ fraction)) (exponent - fraction.length)

def parseF64 (text : Text) : Option F64 :=
  let (negative, rest) := splitSign text
  let lower := rest.map Char.toLower
  if lower = "inf".toList ∨ lower = "infinity".toList then some (F64.signed negative F64.infinite)
  else if lower = "nan".toList then some F64.nan
  else parseDigits negative rest

example : (parseF64 "-2.50".toList).map F64.toI64 = some (-2) ∧ (parseF64 "1e19".toList).map F64.toI64 = some (2 ^ 63 - 1) := by
  decide +kernel

/-! ## Few characters -/

theorem digitOf_lt {char : Char} (isDigit : char.isDigit = true) : digitOf char < 10 := by
  have bound : char.val ≤ '9'.val := of_decide_eq_true (Bool.and_eq_true_iff.mp isDigit).2
  have upper : char.toNat ≤ 57 := UInt32.le_iff_toNat_le.mp bound
  have zero : '0'.toNat = 48 := rfl
  rw [digitOf, zero]
  omega

theorem foldl_lt {digits : Text} (all : ∀ char ∈ digits, char.isDigit = true) (start : Nat) :
    digits.foldl (fun value char => 10 * value + digitOf char) start < (start + 1) * 10 ^ digits.length := by
  induction digits generalizing start with
  | nil => simp
  | cons char digits ih =>
    have small := digitOf_lt (all char List.mem_cons_self)
    have later := ih (fun char there => all char (List.mem_cons_of_mem _ there)) (10 * start + digitOf char)
    rw [List.foldl_cons, List.length_cons]
    refine later.trans_le ?_
    rw [Nat.pow_succ, Nat.mul_comm (10 ^ _) 10, ← Nat.mul_assoc]
    exact Nat.mul_le_mul_right _ (by omega)

theorem valueOf_lt {digits : Text} (all : ∀ char ∈ digits, char.isDigit = true) :
    valueOf digits < 10 ^ digits.length := by
  simpa [valueOf] using foldl_lt all 0

theorem natAbs_withSign (negative : Bool) (value : Nat) : (withSign negative value).natAbs = value := by
  cases negative <;> simp [withSign]

theorem length_splitSign_le (text : Text) : (splitSign text).2.length ≤ text.length := by
  unfold splitSign
  split <;> simp

variable {text : Text}

theorem natAbs_parseInt_lt {bits : Nat} {value : Int} (parsed : parseInt bits text = some value) :
    value.natAbs < 10 ^ text.length := by
  simp only [parseInt, Option.ite_none_right_eq_some, Option.some.injEq, isWhole, Bool.and_eq_true,
    List.all_eq_true] at parsed
  obtain ⟨⟨⟨-, all⟩, -⟩, rfl⟩ := parsed
  rw [natAbs_withSign]
  exact (valueOf_lt all).trans_le (Nat.pow_le_pow_right (by omega) (length_splitSign_le text))

theorem parseNat_lt {bits : Nat} {value : Nat} (parsed : parseNat bits text = some value) :
    value < 10 ^ text.length := by
  simp only [parseNat, Option.ite_none_right_eq_some, Option.some.injEq, isWhole, Bool.and_eq_true,
    List.all_eq_true] at parsed
  obtain ⟨⟨⟨-, all⟩, -⟩, rfl⟩ := parsed
  refine (valueOf_lt all).trans_le (Nat.pow_le_pow_right (by omega) ?_)
  split <;> simp

theorem isDigit_of_mem_scanned {char : Char} (there : char ∈ text.takeWhile Char.isDigit) :
    char.isDigit = true :=
  List.all_eq_true.mp List.all_takeWhile char there

theorem length_scanned (text : Text) :
    (text.takeWhile Char.isDigit).length + (text.dropWhile Char.isDigit).length = text.length := by
  rw [← List.length_append, List.takeWhile_append_dropWhile]

theorem splitPoint_spec (text : Text) : (∀ char ∈ (splitPoint text).1, char.isDigit = true) ∧
    (splitPoint text).1.length + (splitPoint text).2.length ≤ text.length := by
  unfold splitPoint
  split
  · next rest =>
    have scanned := length_scanned rest
    rw [List.length_cons]
    exact ⟨fun _ there => isDigit_of_mem_scanned there, by dsimp only; omega⟩
  · exact ⟨fun _ there => (List.not_mem_nil there).elim, by simp⟩

theorem parseExponent_of_short {exponent : Int} (short : text.length ≤ 1)
    (parsed : parseExponent text = some exponent) : exponent = 0 := by
  match text with
  | [] => exact (Option.some.inj parsed).symm
  | [char] => simp [parseExponent, splitSign, isWhole] at parsed
  | _ :: _ :: _ => simp at short

theorem parseDigits_of_short {negative : Bool} {value : F64} (short : text.length ≤ 2)
    (parsed : parseDigits negative text = some value) :
    ∃ number < 100, ∃ places : Nat, value = scaled negative number (-places) := by
  have scanned := length_scanned text
  obtain ⟨digits, sizes⟩ := splitPoint_spec (text.dropWhile Char.isDigit)
  simp only [parseDigits, Option.ite_none_left_eq_some, Option.map_eq_some_iff, not_and] at parsed
  obtain ⟨some_, exponent, isExponent, rfl⟩ := parsed
  generalize (splitPoint (text.dropWhile Char.isDigit)).1 = fraction at *
  have one : 1 ≤ (text.takeWhile Char.isDigit).length + fraction.length := by
    by_contra none_
    exact some_ (List.isEmpty_iff_length_eq_zero.mpr (by omega)) (List.isEmpty_iff_length_eq_zero.mpr (by omega))
  obtain rfl := parseExponent_of_short (by omega) isExponent
  refine ⟨valueOf (text.takeWhile Char.isDigit ++ fraction), ?_, fraction.length, by rw [Int.zero_sub]⟩
  have small := @valueOf_lt (text.takeWhile Char.isDigit ++ fraction) fun char there =>
    (List.mem_append.mp there).elim isDigit_of_mem_scanned (digits char)
  refine small.trans_le ((Nat.pow_le_pow_right (by omega) ?_).trans_eq (by decide : 10 ^ 2 = 100))
  rw [List.length_append]
  omega

theorem natAbs_toI64_le (value : F64) : value.toI64.natAbs ≤ F64.unitsOf value.magnitude / F64.scale := by
  have units : (value.units.tdiv F64.scale).natAbs = F64.unitsOf value.magnitude / F64.scale := by
    rw [Int.natAbs_tdiv, F64.units]
    split <;> simp only [Int.natAbs_neg, Int.natAbs_natCast] <;> rfl
  unfold F64.toI64
  split <;> omega

theorem natAbs_scaled_le (negative : Bool) {number : Nat} (less : number < 100) (places : Nat) :
    (scaled negative number (-places)).toI64.natAbs ≤ 128 := by
  refine (natAbs_toI64_le _).trans (Nat.div_le_of_le_mul ?_)
  have tens : 0 < 10 ^ (-(-(places : Int))).toNat := Nat.pow_pos (by decide)
  rw [scaled, F64.rounded, F64.magnitude_signed (show F64.magnitudeOfUnits _ < F64.signBit from
    lt_of_le_of_lt (Nat.min_le_left _ _) (by decide))]
  refine (F64.unitsOf_magnitudeOfUnits_le _).trans ?_
  rw [F64.scale, show 128 = 2 ^ 7 from rfl, ← Nat.pow_add]
  refine roundBits_le (by decide) tens ?_
  calc number * 10 ^ (-(places : Int)).toNat * 2 ^ F64.scaleBits
      ≤ 2 ^ 7 * 2 ^ F64.scaleBits := Nat.mul_le_mul_right _ (by simp; omega)
    _ ≤ 2 ^ (F64.scaleBits + 7) * 10 ^ (-(-(places : Int))).toNat := by
      rw [← Nat.pow_add, Nat.add_comm]
      exact Nat.le_mul_of_pos_right _ tens

theorem natAbs_parseF64_le {value : F64} (short : text.length ≤ 2) (parsed : parseF64 text = some value) :
    value.toI64.natAbs ≤ 128 := by
  have signless := length_splitSign_le text
  have named (name : Text) (long : 2 < name.length) : (splitSign text).2.map Char.toLower ≠ name := by
    rintro rfl
    rw [List.length_map] at long
    omega
  simp only [parseF64, named "inf".toList (by decide +kernel), named "infinity".toList (by decide +kernel),
    named "nan".toList (by decide +kernel), or_self, if_false] at parsed
  obtain ⟨number, less, places, rfl⟩ := parseDigits_of_short (by omega) parsed
  exact natAbs_scaled_le _ less places

end Boom.Foundations.Decimal
