import Mathlib.Data.Int.Order.Basic
import Mathlib.Order.Defs.LinearOrder
import Mathlib.Algebra.Group.Int.Defs
import Mathlib.Algebra.Group.Nat.Defs

/-! # Comparing double-precision numbers

A double is its 64 bits.  Comparisons are what matters here, in the three orders
a program and a document store use: the IEEE comparisons (`NaN` compares false
with everything, `-0.0` equals `0.0`), the total order on bit patterns, and the
store's sort order (`NaN` below every number and equal to itself).

On finite doubles all of them are read off `rank`, the position of the value on
the number line. -/

namespace Boom.Foundations

structure F64 where
  bits : BitVec 64
deriving DecidableEq, Repr

namespace F64

def signBit : Nat := 0x8000000000000000

def negative (value : F64) : Bool := decide (signBit ≤ value.bits.toNat)

def magnitude (value : F64) : Nat := value.bits.toNat % signBit

def infinite : Nat := 0x7ff0000000000000

def isNan (value : F64) : Bool := decide (infinite < value.magnitude)

def isFinite (value : F64) : Bool := decide (value.magnitude < infinite)

def rank (value : F64) : Int :=
  if value.negative then -(value.magnitude : Int) else value.magnitude

/-- IEEE `==`. -/
def eq (first second : F64) : Bool :=
  !first.isNan && !second.isNan && decide (first.rank = second.rank)

/-- IEEE `<`. -/
def lt (first second : F64) : Bool :=
  !first.isNan && !second.isNan && decide (first.rank < second.rank)

/-- IEEE `<=`. -/
def le (first second : F64) : Bool :=
  !first.isNan && !second.isNan && decide (first.rank ≤ second.rank)

def totalRank (value : F64) : Int :=
  if value.negative then -(value.magnitude : Int) - 1 else value.magnitude

def sortRank (value : F64) : Int :=
  if value.isNan then -(signBit : Int) else value.rank

def normalized (value : F64) : BitVec 64 :=
  if value.magnitude = 0 then 0
  else if value.isNan then 0x7ff8000000000000
  else value.bits

def infinity : F64 := ⟨0x7ff0000000000000⟩

def negInfinity : F64 := ⟨0xfff0000000000000⟩

def zero : F64 := ⟨0⟩

def one : F64 := ⟨0x3ff0000000000000⟩

def negOne : F64 := ⟨0xbff0000000000000⟩

def largest : F64 := ⟨0x7fefffffffffffff⟩

variable {first second third : F64}

theorem magnitude_lt (value : F64) : value.magnitude < signBit :=
  Nat.mod_lt _ (by decide)

theorem not_isNan_of_isFinite (finite : first.isFinite = true) : first.isNan = false := by
  simp only [isFinite, isNan, decide_eq_true_eq, decide_eq_false_iff_not] at *
  omega

theorem eq_of_parts (sign : first.negative = second.negative)
    (magnitudes : first.magnitude = second.magnitude) : first = second := by
  have bounded := first.bits.isLt
  have bounded' := second.bits.isLt
  have same : first.bits.toNat = second.bits.toNat := by
    simp only [negative, magnitude, decide_eq_decide] at sign magnitudes
    simp only [signBit] at sign magnitudes
    omega
  cases first
  cases second
  simpa using BitVec.eq_of_toNat_eq same

theorem eq_iff (finite : first.isFinite = true) (finite' : second.isFinite = true) :
    first.eq second = true ↔ first.rank = second.rank := by
  simp [eq, not_isNan_of_isFinite finite, not_isNan_of_isFinite finite']

theorem lt_iff (finite : first.isFinite = true) (finite' : second.isFinite = true) :
    first.lt second = true ↔ first.rank < second.rank := by
  simp [lt, not_isNan_of_isFinite finite, not_isNan_of_isFinite finite']

theorem rank_lt_of_lt (less : first.lt second = true) : first.rank < second.rank := by
  simp only [lt, Bool.and_eq_true, decide_eq_true_eq] at less
  exact less.2

theorem le_iff (finite : first.isFinite = true) (finite' : second.isFinite = true) :
    first.le second = true ↔ first.rank ≤ second.rank := by
  simp [le, not_isNan_of_isFinite finite, not_isNan_of_isFinite finite']

theorem sortRank_of_isFinite (finite : first.isFinite = true) : first.sortRank = first.rank := by
  simp [sortRank, not_isNan_of_isFinite finite]

theorem rank_eq_iff : first.rank = second.rank ↔
    first = second ∨ (first.magnitude = 0 ∧ second.magnitude = 0) := by
  constructor
  · intro same
    by_cases zero : first.magnitude = 0 ∧ second.magnitude = 0
    · exact .inr zero
    · left
      simp only [rank] at same
      cases sign : first.negative <;> cases sign' : second.negative <;>
        simp only [sign, sign', if_true, if_false, Bool.false_eq_true] at same
      · exact eq_of_parts (sign.trans sign'.symm) (by omega)
      · omega
      · omega
      · exact eq_of_parts (sign.trans sign'.symm) (by omega)
  · rintro (rfl | ⟨zero, zero'⟩)
    · rfl
    · simp [rank, zero, zero']

theorem normalized_eq_iff (finite : first.isFinite = true) (finite' : second.isFinite = true) :
    first.normalized = second.normalized ↔ first.rank = second.rank := by
  have nonzero : ∀ value : F64, value.magnitude ≠ 0 → value.bits ≠ 0 := by
    intro value positive zero
    exact positive (by simp [magnitude, zero])
  simp only [rank_eq_iff, normalized, not_isNan_of_isFinite finite, not_isNan_of_isFinite finite',
    Bool.false_eq_true, if_false]
  by_cases zero : first.magnitude = 0 <;> by_cases zero' : second.magnitude = 0
  · simp [zero, zero']
  · have distinct : first ≠ second := by rintro rfl; exact zero' zero
    simpa [zero, zero', distinct] using (nonzero second zero').symm
  · have distinct : first ≠ second := by rintro rfl; exact zero zero'
    simpa [zero, zero', distinct] using nonzero first zero
  · cases first
    cases second
    simp [zero, zero']

theorem rank_le_of_totalRank_le (below : first.totalRank ≤ second.totalRank) :
    first.rank ≤ second.rank := by
  simp only [totalRank, rank] at *
  cases sign : first.negative <;> cases sign' : second.negative <;>
    simp only [sign, sign', Bool.false_eq_true, if_true, if_false] at below ⊢ <;> omega

theorem isFinite_of_between (finite : first.isFinite = true) (finite' : third.isFinite = true)
    (above : first.totalRank ≤ second.totalRank) (below : second.totalRank ≤ third.totalRank) :
    second.isFinite = true := by
  simp only [isFinite, decide_eq_true_eq, totalRank] at *
  cases sign : first.negative <;> cases sign' : second.negative <;> cases sign'' : third.negative <;>
    simp only [sign, sign', sign'', Bool.false_eq_true, if_true, if_false] at above below <;> omega

theorem isFinite_congr (same : first.rank = second.rank) : first.isFinite = second.isFinite := by
  have magnitudes : first.magnitude = second.magnitude := by
    rcases rank_eq_iff.mp same with rfl | ⟨zero, zero'⟩
    · rfl
    · rw [zero, zero']
  simp [isFinite, magnitudes]

theorem isFinite_iff_between : first.isFinite = true ↔
    negInfinity.sortRank < first.sortRank ∧ first.sortRank < infinity.sortRank := by
  have lower : negInfinity.sortRank = -(infinite : Int) := by decide
  have upper : infinity.sortRank = (infinite : Int) := by decide
  have bounded := first.magnitude_lt
  rw [lower, upper]
  have large : infinite < signBit := by decide
  simp only [isFinite, sortRank, isNan, rank, decide_eq_true_eq]
  cases first.negative <;> simp only [Bool.false_eq_true, if_true, if_false] <;>
    split <;> omega

end F64

/-! ## From integers -/

namespace F64

def magnitudeOf (number : Nat) : Nat :=
  if number = 0 then 0
  else
    let exponent := number.log2
    if exponent ≤ 52 then (exponent + 1022) * 2 ^ 52 + number * 2 ^ (52 - exponent)
    else
      let unit := 2 ^ (exponent - 52)
      let kept := number / unit
      let rest := number % unit
      let up := if unit < 2 * rest ∨ (2 * rest = unit ∧ kept % 2 = 1) then 1 else 0
      -- A carry out of the fraction raises the exponent.
      (exponent + 1022) * 2 ^ 52 + kept + up

def ofInt (value : Int) : F64 :=
  ⟨BitVec.ofNat 64 (magnitudeOf value.natAbs + if value < 0 then signBit else 0)⟩

end F64

/-! ## Arithmetic -/

/-- The floating-point operations a platform provides.  Nothing is assumed of them. -/
class Floating (F : Type) extends Add F, Sub F, Mul F, Div F, Neg F, BEq F, OfScientific F where
  less : F → F → Bool
  fmin : F → F → F
  fmax : F → F → F
  abs : F → F
  sqrt : F → F
  remEuclid : F → F → F
  floorInt : F → Int
  ofNat : Nat → F
  maxValue : F
  minValue : F

instance : Floating Float where
  less first second := first < second
  fmin first second :=
    if first.isNaN then second else if second.isNaN || first < second then first else second
  fmax first second :=
    if first.isNaN then second else if second.isNaN || second < first then first else second
  abs := Float.abs
  sqrt := Float.sqrt
  remEuclid value modulus := value - modulus * Float.floor (value / modulus)
  floorInt value := (Float.floor value).toInt64.toInt
  ofNat := Float.ofNat
  maxValue := 1.7976931348623157e308
  minValue := -1.7976931348623157e308

structure Whole where
  value : Int
deriving DecidableEq, Repr

instance : Floating Whole where
  add first second := ⟨first.value + second.value⟩
  sub first second := ⟨first.value - second.value⟩
  mul first second := ⟨first.value * second.value⟩
  div first second := ⟨first.value / second.value⟩
  neg value := ⟨-value.value⟩
  beq first second := first.value == second.value
  ofScientific mantissa negative exponent :=
    ⟨if negative then mantissa / Nat.pow 10 exponent else mantissa * Nat.pow 10 exponent⟩
  less first second := first.value < second.value
  fmin first second := ⟨min first.value second.value⟩
  fmax first second := ⟨max first.value second.value⟩
  abs value := ⟨value.value.natAbs⟩
  sqrt value := ⟨value.value.toNat.sqrt⟩
  remEuclid value modulus := ⟨value.value % modulus.value⟩
  floorInt value := value.value
  ofNat value := ⟨value⟩
  maxValue := ⟨9007199254740992⟩
  minValue := ⟨-9007199254740992⟩

end Boom.Foundations
