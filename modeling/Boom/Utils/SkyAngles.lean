import Boom.Foundations.Sphere

/-! # Angles on the sky

Positions are right ascensions and declinations in degrees, with real numbers for doubles.
Cells and bins are numbered with the integers of a machine. -/

namespace Boom.Utils

open Boom.Foundations Real

def toI64 (value : Int) : Int :=
  max (-2 ^ 63) (min (2 ^ 63 - 1) value)

def addI64 (first second : Int) : Int :=
  (first + second).bmod (2 ^ 64)

noncomputable def toRadians (degrees : ℝ) : ℝ :=
  degrees * (π / 180)

noncomputable def toDegrees (angle : ℝ) : ℝ :=
  angle * (180 / π)

noncomputable def remEuclid (value modulus : ℝ) : ℝ :=
  value - modulus * ⌊value / modulus⌋

noncomputable def angularSeparationDeg (ra1 dec1 ra2 dec2 : ℝ) : ℝ :=
  let r1 := toRadians ra1
  let d1 := toRadians dec1
  let r2 := toRadians ra2
  let d2 := toRadians dec2
  let sd := sin ((d2 - d1) / 2)
  let sr := sin ((r2 - r1) / 2)
  let h := sd * sd + cos d1 * cos d2 * sr * sr
  toDegrees (2 * arcsin (max (-1) (min 1 (√h))))

noncomputable def hypot (x y : ℝ) : ℝ :=
  Real.sqrt (x * x + y * y)

theorem abs_le_hypot (x y : ℝ) : |x| ≤ hypot x y ∧ |y| ≤ hypot x y := by
  have squareX := mul_self_nonneg x
  have squareY := mul_self_nonneg y
  refine ⟨Real.abs_le_sqrt ?_, Real.abs_le_sqrt ?_⟩ <;> nlinarith

theorem hypot_sub_comm (x x' y y' : ℝ) : hypot (x - x') (y - y') = hypot (x' - x) (y' - y) := by
  unfold hypot
  congr 1
  ring

def IsDec (dec : ℝ) : Prop :=
  |dec| ≤ 90

theorem toRadians_sub (first second : ℝ) : toRadians (first - second) = toRadians first - toRadians second :=
  sub_mul _ _ _

theorem toRadians_add (first second : ℝ) : toRadians (first + second) = toRadians first + toRadians second :=
  add_mul _ _ _

theorem toRadians_le_iff {first second : ℝ} : toRadians first ≤ toRadians second ↔ first ≤ second :=
  mul_le_mul_iff_left₀ (by positivity)

theorem toRadians_lt_iff {first second : ℝ} : toRadians first < toRadians second ↔ first < second :=
  mul_lt_mul_iff_left₀ (by positivity)

theorem toRadians_nonneg {degrees : ℝ} (nonneg : 0 ≤ degrees) : 0 ≤ toRadians degrees :=
  mul_nonneg nonneg (by positivity)

theorem toRadians_pos {degrees : ℝ} (positive : 0 < degrees) : 0 < toRadians degrees :=
  mul_pos positive (by positivity)

theorem toRadians_half (degrees : ℝ) : toRadians (degrees / 2) = toRadians degrees / 2 := by
  unfold toRadians
  ring

@[simp] theorem toRadians_right : toRadians 90 = π / 2 := by
  unfold toRadians
  ring

@[simp] theorem toRadians_straight : toRadians 180 = π := by
  unfold toRadians
  ring

theorem abs_toRadians (degrees : ℝ) : |toRadians degrees| = toRadians |degrees| := by
  rw [toRadians, abs_mul, abs_of_pos (by positivity : (0 : ℝ) < π / 180), toRadians]

theorem toDegrees_toRadians (degrees : ℝ) : toDegrees (toRadians degrees) = degrees := by
  have := pi_ne_zero
  rw [toDegrees, toRadians]
  field_simp

theorem toDegrees_le_iff {angle degrees : ℝ} : toDegrees angle ≤ degrees ↔ angle ≤ toRadians degrees := by
  have positive := pi_pos
  rw [toDegrees, toRadians, mul_div_assoc', div_le_iff₀ pi_pos, ← mul_div_assoc, le_div_iff₀ (by norm_num)]

theorem IsDec.upright {dec : ℝ} (isDec : IsDec dec) : Upright (toRadians dec) := by
  rw [Upright, abs_toRadians, ← toRadians_right]
  exact toRadians_le_iff.mpr isDec

theorem angularSeparationDeg_eq (ra1 dec1 ra2 dec2 : ℝ) : angularSeparationDeg ra1 dec1 ra2 dec2 =
    toDegrees (separation (toRadians dec1) (toRadians dec2) (toRadians (ra2 - ra1))) := by
  simp only [angularSeparationDeg, separation, separationHav, toRadians_sub, sq, mul_assoc]

section

variable {ra1 dec1 ra2 dec2 size : ℝ} (isDec : IsDec dec1) (isDec' : IsDec dec2) (nonneg : 0 ≤ size) (bounded : size ≤ 180)

include isDec isDec' nonneg bounded

theorem angularSeparationDeg_le_iff : angularSeparationDeg ra1 dec1 ra2 dec2 ≤ size ↔
    separationHav (toRadians dec1) (toRadians dec2) (toRadians (ra2 - ra1)) ≤ sin (toRadians size / 2) ^ 2 := by
  rw [angularSeparationDeg_eq, toDegrees_le_iff]
  exact separation_le_iff isDec.upright isDec'.upright (toRadians_nonneg nonneg)
    (by rw [← toRadians_straight]; exact toRadians_le_iff.mpr bounded)

theorem angularSeparationDeg_le_iff_cos : angularSeparationDeg ra1 dec1 ra2 dec2 ≤ size ↔
    cos (toRadians size) ≤ sin (toRadians dec1) * sin (toRadians dec2) +
      cos (toRadians dec1) * cos (toRadians dec2) * cos (toRadians (ra2 - ra1)) := by
  rw [angularSeparationDeg_eq, toDegrees_le_iff]
  exact separation_le_iff_cos isDec.upright isDec'.upright (toRadians_nonneg nonneg)
    (by rw [← toRadians_straight]; exact toRadians_le_iff.mpr bounded)

theorem abs_dec_sub_le_of_close (close : angularSeparationDeg ra1 dec1 ra2 dec2 ≤ size) : |dec2 - dec1| ≤ size := by
  rw [angularSeparationDeg_le_iff isDec isDec' nonneg bounded] at close
  have apart := abs_dec_sub_le isDec.upright isDec'.upright (toRadians_nonneg nonneg)
    (by rw [← toRadians_straight]; exact toRadians_le_iff.mpr bounded) close
  rwa [← toRadians_sub, abs_toRadians, toRadians_le_iff] at apart

end

theorem remEuclid_turn (ra : ℝ) : remEuclid ra 360 / 360 = Int.fract (ra / 360) := by
  rw [remEuclid, Int.fract]
  ring

theorem cos_toRadians_le {dec dec' : ℝ} (further : |dec| ≤ |dec'|) (isDec : IsDec dec') :
    cos (toRadians dec') ≤ cos (toRadians dec) := by
  rw [← cos_abs, ← cos_abs (toRadians dec), abs_toRadians, abs_toRadians]
  refine cos_le_cos_of_nonneg_of_le_pi (toRadians_nonneg (abs_nonneg _)) ?_ (toRadians_le_iff.mpr further)
  rw [← toRadians_straight]
  exact toRadians_le_iff.mpr (by unfold IsDec at isDec; linarith)

theorem angularSeparationDeg_comm (ra dec ra' dec' : ℝ) :
    angularSeparationDeg ra dec ra' dec' = angularSeparationDeg ra' dec' ra dec := by
  have turned (first second : ℝ) : sin ((first - second) / 2) = -sin ((second - first) / 2) := by
    rw [← sin_neg]
    congr 1
    ring
  simp only [angularSeparationDeg]
  rw [turned (toRadians dec'), turned (toRadians ra')]
  ring_nf

end Boom.Utils
