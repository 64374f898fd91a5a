import Boom.Foundations.Bson
import Mathlib.Algebra.Order.Field.Rat
import Mathlib.Algebra.Order.Ring.Cast
import Mathlib.Data.List.Lex
import Mathlib.Data.Prod.Lex
import Mathlib.Data.String.Basic
import Mathlib.Order.Monotone.Basic

/-! # The sort order of BSON values

Values sort by their type and, within a type, by what they hold.  Numbers of every width
are one type and compare by their exact values, with `NaN` below all of them. -/

namespace Boom.Foundations

/-! ## Exact numbers -/

abbrev Exact := ℕ ×ₗ ℚ

namespace Exact

def nan : Exact := toLex (0, 0)

def negInfinity : Exact := toLex (1, 0)

def finite (value : ℚ) : Exact := toLex (2, value)

def infinity : Exact := toLex (3, 0)

theorem finite_le_iff {first second : ℚ} : finite first ≤ finite second ↔ first ≤ second := by
  simp [finite, Prod.Lex.toLex_le_toLex]

theorem finite_between (value : ℚ) : negInfinity < finite value ∧ finite value < infinity := by
  simp [finite, negInfinity, infinity, Prod.Lex.toLex_lt_toLex]

end Exact

namespace F64

def leadingBit : Nat := 0x10000000000000

def unitsOf (magnitude : Nat) : Nat :=
  if magnitude < leadingBit then magnitude
  else (leadingBit + magnitude % leadingBit) * 2 ^ (magnitude / leadingBit - 1)

theorem unitsOf_lt_succ (magnitude : Nat) : unitsOf magnitude < unitsOf (magnitude + 1) := by
  unfold unitsOf leadingBit
  have power : (0 : Nat) < 2 ^ (magnitude / 0x10000000000000 - 1) := Nat.two_pow_pos _
  rcases Nat.lt_trichotomy (magnitude + 1) 0x10000000000000 with below | edge | above
  · rw [if_pos (by omega), if_pos below]
    omega
  · rw [if_pos (by omega), if_neg (by omega), edge, Nat.mod_self, Nat.div_self (by decide)]
    omega
  · rw [if_neg (by omega), if_neg (by omega)]
    by_cases carry : magnitude % 0x10000000000000 + 1 < 0x10000000000000
    · -- The same exponent, and a fraction one larger.
      have fraction : (magnitude + 1) % 0x10000000000000 = magnitude % 0x10000000000000 + 1 := by omega
      have exponent : (magnitude + 1) / 0x10000000000000 = magnitude / 0x10000000000000 := by omega
      rw [fraction, exponent]
      exact Nat.mul_lt_mul_of_pos_right (by omega) power
    · -- The next exponent, and no fraction.
      have fraction : (magnitude + 1) % 0x10000000000000 = 0 := by omega
      have exponent : (magnitude + 1) / 0x10000000000000 - 1 = magnitude / 0x10000000000000 - 1 + 1 := by omega
      rw [fraction, exponent, Nat.pow_succ, Nat.mul_comm (2 ^ _) 2, ← Nat.mul_assoc]
      exact Nat.mul_lt_mul_of_pos_right (by omega) power

theorem unitsOf_strictMono : StrictMono unitsOf := strictMono_nat_of_lt_succ unitsOf_lt_succ

theorem unitsOf_zero : unitsOf 0 = 0 := rfl

def units (value : F64) : Int :=
  if value.negative then -(unitsOf value.magnitude : Int) else unitsOf value.magnitude

def toRat (value : F64) : ℚ := value.units / 2 ^ 1074

def exact (value : F64) : Exact :=
  if value.isNan then Exact.nan
  else if value.isFinite then Exact.finite value.toRat
  else if value.negative then Exact.negInfinity
  else Exact.infinity

theorem exact_of_isFinite {value : F64} (finite : value.isFinite = true) : value.exact = Exact.finite value.toRat := by
  rw [exact, not_isNan_of_isFinite finite, if_neg Bool.false_ne_true, if_pos finite]

theorem units_le_iff (first second : F64) : first.units ≤ second.units ↔ first.rank ≤ second.rank := by
  have mono (one other : Nat) : unitsOf one ≤ unitsOf other ↔ one ≤ other := unitsOf_strictMono.le_iff_le
  have forward := mono first.magnitude second.magnitude
  have backward := mono second.magnitude first.magnitude
  -- A magnitude is zero with its units.
  have none_ := mono first.magnitude 0
  have none' := mono second.magnitude 0
  rw [unitsOf_zero] at none_ none'
  unfold units rank
  cases first.negative <;> cases second.negative <;> simp only [if_true, if_false, Bool.false_eq_true] <;> omega

theorem toRat_le_iff (first second : F64) : first.toRat ≤ second.toRat ↔ first.rank ≤ second.rank := by
  have positive : (0 : ℚ) < 2 ^ 1074 := pow_pos zero_lt_two _
  rw [toRat, toRat, div_le_div_iff_of_pos_right positive, Int.cast_le, units_le_iff]

theorem exact_le_iff {first second : F64} (finite : first.isFinite = true) (finite' : second.isFinite = true) :
    first.exact ≤ second.exact ↔ first.rank ≤ second.rank := by
  rw [exact_of_isFinite finite, exact_of_isFinite finite', Exact.finite_le_iff, toRat_le_iff]

theorem exact_between_iff {value : F64} :
    Exact.negInfinity < value.exact ∧ value.exact < Exact.infinity ↔ value.isFinite = true := by
  constructor
  · rintro ⟨above, below⟩
    unfold exact at above below
    split at above
    · exact absurd above (by simp [Exact.negInfinity, Exact.nan, Prod.Lex.toLex_lt_toLex])
    next number =>
      by_contra infinite
      rw [if_neg infinite] at above
      rw [if_neg number, if_neg infinite] at below
      split at above
      · exact lt_irrefl _ above
      next positive =>
        rw [if_neg positive] at below
        exact lt_irrefl _ below
  · intro finite
    rw [exact_of_isFinite finite]
    exact Exact.finite_between _

end F64

namespace Decimal128

def exact : Decimal128 → Exact
  | .finite coefficient exponent => Exact.finite (coefficient * (10 : ℚ) ^ exponent)
  | .infinity => Exact.infinity
  | .negInfinity => Exact.negInfinity
  | .nan => Exact.nan

end Decimal128

/-! ## Sort keys -/

theorem cons_lt_iff {α : Type} [LinearOrder α] {first second : α} {rest rest' : List α} :
    first :: rest < second :: rest' ↔ first < second ∨ first = second ∧ rest < rest' := List.cons_lt_cons_iff

theorem cons_le_iff {α : Type} [LinearOrder α] {first second : α} {rest rest' : List α} :
    first :: rest ≤ second :: rest' ↔ first < second ∨ first = second ∧ rest ≤ rest' := by
  rw [le_iff_lt_or_eq, cons_lt_iff, List.cons.injEq, or_assoc, ← and_or_left, ← le_iff_lt_or_eq]

abbrev Token := ℕ ×ₗ (Exact ×ₗ String)

namespace Token

def ofType (type_ : Nat) : Token := toLex (type_, toLex (toLex (0, 0), ""))

def ofExact (value : Exact) : Token := toLex (0, toLex (value, ""))

def ofText (text : String) : Token := toLex (0, toLex (toLex (0, 0), text))

theorem ofType_lt {first second : Nat} (less : first < second) : ofType first < ofType second := by
  simp [ofType, Prod.Lex.toLex_lt_toLex, less]

theorem ofExact_le_iff {first second : Exact} : ofExact first ≤ ofExact second ↔ first ≤ second := by
  rw [le_iff_lt_or_eq (a := first)]
  simp [ofExact, Prod.Lex.toLex_le_toLex]

theorem ofExact_lt_iff {first second : Exact} : ofExact first < ofExact second ↔ first < second := by
  rw [← not_le, ofExact_le_iff, not_le]

end Token

namespace Bson

def typeOrder : Bson → Nat
  | .null => 5
  | .int32 _ | .int64 _ | .double _ | .decimal _ => 10
  | .string _ => 15
  | .document _ => 20
  | .array _ => 25
  | .bool _ => 40

mutual

def sortKey : Bson → List Token
  | .null => [Token.ofType 5]
  | .int32 value | .int64 value => [Token.ofType 10, Token.ofExact (Exact.finite value)]
  | .double value => [Token.ofType 10, Token.ofExact value.exact]
  | .decimal value => [Token.ofType 10, Token.ofExact value.exact]
  | .string text => [Token.ofType 15, Token.ofText text]
  | .document fields => Token.ofType 20 :: fieldKeys fields
  | .array items => Token.ofType 25 :: itemKeys items
  | .bool value => [Token.ofType 40, Token.ofExact (Exact.finite (if value then 1 else 0))]

def fieldKeys : List (String × Bson) → List Token
  | [] => [Token.ofType 0]
  | (name, value) :: rest =>
    Token.ofType value.typeOrder :: Token.ofText name :: sortKey value ++ fieldKeys rest

def itemKeys : List Bson → List Token
  | [] => [Token.ofType 0]
  | value :: rest => sortKey value ++ itemKeys rest

end

def keyOf : Option Bson → List Token
  | none => [Token.ofType 0]
  | some value => value.sortKey

end Bson

end Boom.Foundations
