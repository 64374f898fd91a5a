import Boom.Foundations.Rounding

/-! # Arithmetic on doubles

A result is the exact one rounded to the nearest double, the even one of two; what is too large
is an infinity. -/

namespace Boom.Foundations

/-! ## Rounding -/

def roundEven (number divisor : Nat) : Nat :=
  let kept := number / divisor
  let rest := number % divisor
  if divisor < 2 * rest ∨ (2 * rest = divisor ∧ kept % 2 = 1) then kept + 1 else kept

def roundBits (precision number divisor : Nat) : Nat :=
  let shift := (number / divisor).log2 + 1 - precision
  roundEven number (divisor * 2 ^ shift) * 2 ^ shift

namespace F64

def nan : F64 := ⟨0x7ff8000000000000⟩

def signed (negative : Bool) (magnitude : Nat) : F64 :=
  ⟨BitVec.ofNat 64 (magnitude + if negative then signBit else 0)⟩

def magnitudeOfUnits (units : Nat) : Nat :=
  min infinite ((units.log2 - 52) * leadingBit + units / 2 ^ (units.log2 - 52))

theorem unitsOf_magnitudeOfUnits_le (units : Nat) : unitsOf (magnitudeOfUnits units) ≤ units := by
  refine (unitsOf_strictMono.monotone (Nat.min_le_right _ _)).trans ?_
  by_cases large : 52 < units.log2
  · obtain ⟨normal, bounded⟩ := significand_bounds large
    rw [unitsOf_normal normal bounded.le]
    exact Nat.div_mul_le_self _ _
  · rw [Nat.sub_eq_zero_of_le (Nat.not_lt.mp large), Nat.zero_mul, Nat.zero_add, Nat.pow_zero, Nat.div_one]
    by_cases subnormal : units < leadingBit
    · rw [unitsOf, if_pos subnormal]
    · have bounded : units < 2 ^ 53 := (Nat.log2_lt (by rintro rfl; exact subnormal (by decide))).mp (by omega)
      have exact_ := @unitsOf_normal 0 units (Nat.not_lt.mp subnormal) bounded.le
      rw [Nat.zero_mul, Nat.zero_add, Nat.pow_zero, Nat.mul_one] at exact_
      exact exact_.le

def rounded (negative : Bool) (number divisor : Nat) : F64 :=
  signed negative (magnitudeOfUnits (roundBits 53 (number * scale) divisor))

def ofRat (value : ℚ) : F64 := rounded (decide (value < 0)) value.num.natAbs value.den

/-! ## Operations -/

def neg (value : F64) : F64 := signed (!value.negative) value.magnitude

def add (first second : F64) : F64 :=
  if first.isNan || second.isNan then nan
  else if first.isFinite && second.isFinite then
    -- Nothing is left of opposites, and its sign is that of both or a plus.
    if first.toRat + second.toRat = 0 then signed (first.negative && second.negative) 0
    else ofRat (first.toRat + second.toRat)
  else if first.isFinite then second
  else if second.isFinite || first.negative == second.negative then first
  else nan

def sub (first second : F64) : F64 := first.add second.neg

def mul (first second : F64) : F64 :=
  let negative := first.negative != second.negative
  if first.isNan || second.isNan then nan
  else if first.isFinite && second.isFinite then
    rounded negative (first.toRat * second.toRat).num.natAbs (first.toRat * second.toRat).den
  else if first.magnitude = 0 || second.magnitude = 0 then nan
  else signed negative infinite

def div (first second : F64) : F64 :=
  let negative := first.negative != second.negative
  if first.isNan || second.isNan then nan
  else if first.isFinite then
    if !second.isFinite then signed negative 0
    else if second.magnitude = 0 then
      if first.magnitude = 0 then nan else signed negative infinite
    else rounded negative (first.toRat / second.toRat).num.natAbs (first.toRat / second.toRat).den
  else if second.isFinite then signed negative infinite
  else nan

def maximum (first second : F64) : F64 :=
  if first.isNan then second else if second.isNan || second.lt first then first else second

def floor (value : F64) : F64 :=
  if !value.isFinite then value
  else if value.toRat.floor = 0 then signed value.negative 0
  else ofRat value.toRat.floor

def toI64 (value : F64) : Int :=
  if value.isNan then 0 else max (-2 ^ 63) (min (2 ^ 63 - 1) (value.units.tdiv scale))

theorem toI64_bounds (value : F64) : -2 ^ 63 ≤ value.toI64 ∧ value.toI64 < 2 ^ 63 := by
  unfold toI64
  split <;> omega

example : (ofRat 365.25).mul (ofInt 6777) = ofRat 2475299.25 := by decide +kernel

end F64

end Boom.Foundations
