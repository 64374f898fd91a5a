import Boom.Foundations.Single

/-! # Comparing single-precision numbers, and the other operations

A number that is not `NaN` has a place on the number line, which all comparisons read.  A double
becomes the nearest single. -/

namespace Boom.Foundations.F32

def isNan : F32 → Bool
  | .nan => true
  | _ => false

def place : F32 → ℤ ×ₗ ℤ
  | .nan => toLex (0, 0)
  | .infinite negative => toLex (if negative then -1 else 1, 0)
  | .finite negative units => toLex (0, signedUnits negative units)

/-- IEEE `<`. -/
def lt (first second : F32) : Bool := !first.isNan && !second.isNan && decide (first.place < second.place)

/-- IEEE `<=`. -/
def le (first second : F32) : Bool := !first.isNan && !second.isNan && decide (first.place ≤ second.place)

def neg : F32 → F32
  | .nan => .nan
  | .infinite negative => .infinite !negative
  | .finite negative units => .finite (!negative) units

def abs : F32 → F32
  | .nan => .nan
  | .infinite _ => .infinite false
  | .finite _ units => .finite false units

def sub (first second : F32) : F32 := first.add second.neg

def mul : F32 → F32 → F32
  | .nan, _ => .nan
  | _, .nan => .nan
  | .infinite negative, .infinite negative' => .infinite (negative != negative')
  | .infinite negative, .finite negative' units => if units = 0 then .nan else .infinite (negative != negative')
  | .finite negative units, .infinite negative' => if units = 0 then .nan else .infinite (negative != negative')
  | .finite negative units, .finite negative' units' => round (negative != negative') (units * units') scale

def one : F32 := .finite false scale

def ofNat (number : Nat) : F32 := round false (number * scale) 1

def ofF64 (value : F64) : F32 :=
  if value.isNan then .nan
  else if value.isFinite then round value.negative (value.units.natAbs * scale) F64.scale
  else .infinite value.negative

variable {first second : F32}

theorem lt_eq (number : first.isNan = false) (number' : second.isNan = false) :
    first.lt second = decide (first.place < second.place) := by
  simp [lt, number, number']

example : (ofF64 (.ofRat 0.1)).lt (ofF64 (.ofRat 0.2)) = true := by decide +kernel

end Boom.Foundations.F32
