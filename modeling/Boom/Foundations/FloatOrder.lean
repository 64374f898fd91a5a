import Boom.Foundations.Double
import Mathlib.Order.Defs.Unbundled

/-! # Rounded numbers in order

What a platform's floating point provides for work on the sphere, and what a program may
rely on however results are rounded: the finite numbers are ordered by the comparisons, and
rounding keeps the order of differences. -/

namespace Boom.Foundations

/-- The comparisons and functions beside the arithmetic. -/
class Trigonometric (F : Type) extends Floating F where
  /-- IEEE `<=`. -/
  lessEq : F → F → Bool
  /-- The total order on bit patterns. -/
  totalLe : F → F → Bool
  isFinite : F → Bool
  clamp : F → F → F → F
  hypot : F → F → F
  sin : F → F
  cos : F → F
  arcsin : F → F
  arctan : F → F
  atan2 : F → F → F
  toRadians : F → F
  toDegrees : F → F

open Floating Trigonometric

/-- A number that is neither infinite nor `NaN`. -/
def FiniteFloat (F : Type) [Trigonometric F] : Type :=
  { value : F // isFinite value = true }

instance (F : Type) [Trigonometric F] : LE (FiniteFloat F) where
  le first second := less second.val first.val = false

/-- What holds of IEEE arithmetic on finite numbers, whatever it is compared with. -/
class LawfulFloating (F : Type) [Trigonometric F] : Prop where
  le_total (first second : FiniteFloat F) : first ≤ second ∨ second ≤ first
  le_trans {first second third : FiniteFloat F} : first ≤ second → second ≤ third → first ≤ third
  less_of_le {first second : FiniteFloat F} {bound : F} :
    first ≤ second → less second.val bound = true → less first.val bound = true
  lessEq_of_le {first second : FiniteFloat F} {bound : F} :
    first ≤ second → lessEq second.val bound = true → lessEq first.val bound = true
  /-- Rounding keeps the order of differences. -/
  less_sub {first second : FiniteFloat F} (third : FiniteFloat F) {bound : F} :
    first ≤ second → less bound (first.val - third.val) = true → less bound (second.val - third.val) = true
  sub_lessEq {low least high most : FiniteFloat F} {bound : F} :
    least ≤ low → high ≤ most → lessEq (most.val - least.val) bound = true → lessEq (high.val - low.val) bound = true
  fmin_spec (first second : FiniteFloat F) :
    fmin first.val second.val = first.val ∧ first ≤ second ∨ fmin first.val second.val = second.val ∧ second ≤ first
  fmax_spec (first second : FiniteFloat F) :
    fmax first.val second.val = first.val ∧ second ≤ first ∨ fmax first.val second.val = second.val ∧ first ≤ second
  totalLe_total (first second : F) : totalLe first second = true ∨ totalLe second first = true
  totalLe_trans {first second third : F} :
    totalLe first second = true → totalLe second third = true → totalLe first third = true
  totalLe_antisymm {first second : F} : totalLe first second = true → totalLe second first = true → first = second

variable {F : Type} [Trigonometric F] [LawfulFloating F]

theorem FiniteFloat.le_refl (number : FiniteFloat F) : number ≤ number :=
  (LawfulFloating.le_total number number).elim id id

end Boom.Foundations
