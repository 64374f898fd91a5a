import Boom.Foundations.Numerals
import Mathlib.Analysis.SpecialFunctions.Trigonometric.Bounds

/-! # Separations on the sphere

Two directions are given by their declinations and the turn that takes one to the other, all
three angles in radians. What is proved here is what a small separation says about these
angles, and about bins a circle is cut into. -/

namespace Boom.Foundations

open Real

/-! ## Separations -/

noncomputable def separationHav (dec dec' turn : ℝ) : ℝ :=
  sin ((dec' - dec) / 2) ^ 2 + cos dec * cos dec' * sin (turn / 2) ^ 2

noncomputable def separation (dec dec' turn : ℝ) : ℝ :=
  2 * arcsin (max (-1) (min 1 (√(separationHav dec dec' turn))))

def Upright (dec : ℝ) : Prop :=
  |dec| ≤ π / 2

theorem Upright.cos_nonneg {dec : ℝ} (upright : Upright dec) : 0 ≤ cos dec :=
  cos_nonneg_of_mem_Icc (abs_le.mp upright)

theorem sin_half_sq (angle : ℝ) : sin (angle / 2) ^ 2 = (1 - cos angle) / 2 := by
  rw [sin_sq_eq_half_sub, mul_div_cancel₀ angle two_ne_zero]
  ring

theorem separationHav_eq (dec dec' turn : ℝ) :
    separationHav dec dec' turn = (1 - (sin dec * sin dec' + cos dec * cos dec' * cos turn)) / 2 := by
  rw [separationHav, sin_half_sq, sin_half_sq, cos_sub]
  ring

section

variable {dec dec' turn : ℝ} (upright : Upright dec) (upright' : Upright dec')

include upright upright'

theorem separationHav_le_one : separationHav dec dec' turn ≤ 1 := by
  have weights := mul_nonneg upright.cos_nonneg upright'.cos_nonneg
  have turned : -(cos dec * cos dec') ≤ cos dec * cos dec' * cos turn := by
    nlinarith [neg_one_le_cos turn]
  have summed := cos_le_one (dec + dec')
  rw [cos_add] at summed
  rw [separationHav_eq]
  linarith

theorem separation_le_iff {size : ℝ} (nonneg : 0 ≤ size) (bounded : size ≤ π) :
    separation dec dec' turn ≤ size ↔ separationHav dec dec' turn ≤ sin (size / 2) ^ 2 := by
  have inside : √(separationHav dec dec' turn) ∈ Set.Icc (-1 : ℝ) 1 :=
    ⟨(neg_one_lt_zero.le).trans (sqrt_nonneg _), sqrt_le_one.mpr (separationHav_le_one upright upright')⟩
  rw [separation, min_eq_right inside.2, max_eq_right inside.1, ← le_div_iff₀' two_pos,
    arcsin_le_iff_le_sin inside ⟨by linarith, by linarith⟩]
  exact sqrt_le_left (sin_nonneg_of_nonneg_of_le_pi (by linarith) (by linarith))

theorem separation_le_iff_cos {size : ℝ} (nonneg : 0 ≤ size) (bounded : size ≤ π) :
    separation dec dec' turn ≤ size ↔ cos size ≤ sin dec * sin dec' + cos dec * cos dec' * cos turn := by
  rw [separation_le_iff upright upright' nonneg bounded, separationHav_eq, sin_half_sq]
  constructor <;> intro close <;> linarith

theorem abs_dec_sub_le {size : ℝ} (nonneg : 0 ≤ size) (bounded : size ≤ π)
    (close : separationHav dec dec' turn ≤ sin (size / 2) ^ 2) : |dec' - dec| ≤ size := by
  have weights := mul_nonneg upright.cos_nonneg upright'.cos_nonneg
  have part : sin ((dec' - dec) / 2) ^ 2 ≤ sin (size / 2) ^ 2 :=
    (le_add_of_nonneg_right (mul_nonneg weights (sq_nonneg _))).trans close
  have bounds := abs_le.mp upright
  have bounds' := abs_le.mp upright'
  have halves : |(dec' - dec) / 2| ≤ π / 2 := abs_le.mpr ⟨by linarith, by linarith⟩
  rw [sin_half_sq, sin_half_sq] at part
  have cosines : cos size ≤ cos |dec' - dec| := by rw [cos_abs]; linarith
  refine (strictAntiOn_cos.le_iff_ge ⟨nonneg, bounded⟩ ⟨abs_nonneg _, ?_⟩).mp cosines
  exact abs_le.mpr ⟨by linarith, by linarith⟩

omit upright' in
theorem cos_mul_abs_sin_half_turn_le {size narrowest : ℝ} (nonneg : 0 ≤ narrowest) (narrower : narrowest ≤ cos dec)
    (narrower' : narrowest ≤ cos dec') (sizeNonneg : 0 ≤ size) (bounded : size ≤ π)
    (close : separationHav dec dec' turn ≤ sin (size / 2) ^ 2) : narrowest * |sin (turn / 2)| ≤ sin (size / 2) := by
  have weights : narrowest ^ 2 ≤ cos dec * cos dec' := by
    rw [sq]
    exact mul_le_mul narrower narrower' nonneg upright.cos_nonneg
  have part : (narrowest * |sin (turn / 2)|) ^ 2 ≤ sin (size / 2) ^ 2 := by
    rw [mul_pow, sq_abs]
    calc narrowest ^ 2 * sin (turn / 2) ^ 2 ≤ cos dec * cos dec' * sin (turn / 2) ^ 2 :=
          mul_le_mul_of_nonneg_right weights (sq_nonneg _)
      _ ≤ separationHav dec dec' turn := le_add_of_nonneg_left (sq_nonneg _)
      _ ≤ sin (size / 2) ^ 2 := close
  exact (pow_le_pow_iff_left₀ (mul_nonneg nonneg (abs_nonneg _))
    (sin_nonneg_of_nonneg_of_le_pi (by linarith) (by linarith)) two_ne_zero).mp part

end

/-! ## The plane -/

section

variable {dec dec' turn narrowest : ℝ} (positive : 0 < narrowest) (narrower' : narrowest ≤ cos dec')

include positive narrower'

end

/-! ## Turns -/

theorem exists_abs_sub_le_arcsin {angle bound : ℝ} (small : |sin angle| ≤ bound) :
    ∃ halves : ℤ, |angle - halves * π| ≤ arcsin bound := by
  refine ⟨round (angle / π), ?_⟩
  have near := abs_sub_round (angle / π)
  have inside : |angle - round (angle / π) * π| ≤ π / 2 := by
    calc |angle - round (angle / π) * π| = |angle / π - round (angle / π)| * π := by
          rw [← abs_of_pos pi_pos, ← abs_mul, abs_of_pos pi_pos, sub_mul, div_mul_cancel₀ angle pi_ne_zero]
      _ ≤ 1 / 2 * π := mul_le_mul_of_nonneg_right near pi_pos.le
      _ = π / 2 := by ring
  have bounds := abs_le.mp inside
  have same : |sin (angle - round (angle / π) * π)| = |sin angle| := by
    rw [sin_sub_int_mul_pi, abs_mul, abs_zpow, abs_neg, abs_one, one_zpow, one_mul]
  have positive := abs_sin_eq_sin_abs_of_abs_le_pi (by linarith : |angle - round (angle / π) * π| ≤ π)
  have back := @arcsin_sin |angle - round (angle / π) * π| (by linarith [abs_nonneg (angle - round (angle / π) * π)]) inside
  rw [← back, ← positive, same]
  exact arcsin_le_arcsin small

section

variable {dec dec' turn size : ℝ}

theorem cos_mul_abs_sin_turn_le (upright : Upright dec) (nonneg : 0 ≤ size) (bounded : size ≤ π / 2)
    (close : cos size ≤ sin dec * sin dec' + cos dec * cos dec' * cos turn) : cos dec * |sin turn| ≤ sin size := by
  have cosNonneg : 0 ≤ cos size := cos_nonneg_of_mem_Icc ⟨by linarith, bounded⟩
  -- The right-hand side is a product of two vectors, one of them of length one.
  have product : (sin dec * sin dec' + cos dec * cos dec' * cos turn) ^ 2 ≤ sin dec ^ 2 + (cos dec * cos turn) ^ 2 := by
    nlinarith [sq_nonneg (sin dec * cos dec' - cos dec * cos turn * sin dec'), sin_sq_add_cos_sq dec']
  have squares : cos size ^ 2 ≤ sin dec ^ 2 + (cos dec * cos turn) ^ 2 :=
    (pow_le_pow_left₀ cosNonneg close 2).trans product
  have turned : (cos dec * |sin turn|) ^ 2 ≤ sin size ^ 2 := by
    rw [mul_pow, sq_abs]
    nlinarith [sin_sq_add_cos_sq dec, sin_sq_add_cos_sq turn, sin_sq_add_cos_sq size]
  exact (pow_le_pow_iff_left₀ (mul_nonneg upright.cos_nonneg (abs_nonneg _))
    (sin_nonneg_of_nonneg_of_le_pi nonneg (by linarith [pi_pos])) two_ne_zero).mp turned

theorem abs_sin_lt_cos (inside : |dec| + size < π / 2) (nonneg : 0 ≤ size) : |sin dec| < cos size := by
  have bounded := abs_nonneg dec
  rw [abs_sin_eq_sin_abs_of_abs_le_pi (by linarith [pi_pos]), ← sin_pi_div_two_sub]
  exact sin_lt_sin_of_lt_of_le_pi_div_two (by linarith [pi_pos]) (by linarith) (by linarith)

theorem exists_turns_of_close (upright : Upright dec) (upright' : Upright dec') (nonneg : 0 ≤ size)
    (inside : |dec| + size < π / 2) (close : cos size ≤ sin dec * sin dec' + cos dec * cos dec' * cos turn) :
    ∃ turns : ℤ, |turn - turns * (2 * π)| ≤ arcsin (sin size / cos dec) := by
  have bounded := abs_nonneg dec
  have decPositive : 0 < cos dec := cos_pos_of_mem_Ioo (abs_lt.mp (by linarith))
  have small : |sin turn| ≤ sin size / cos dec := by
    rw [le_div_iff₀' decPositive]
    exact cos_mul_abs_sin_turn_le upright nonneg (by linarith) close
  -- The directions are on the same side of the axis, so the turn is less than a right angle.
  have forwards : 0 < cos turn := by
    by_contra backwards
    have behind : cos dec * cos dec' * cos turn ≤ 0 :=
      mul_nonpos_of_nonneg_of_nonpos (mul_nonneg upright.cos_nonneg upright'.cos_nonneg) (not_lt.mp backwards)
    have product : sin dec * sin dec' ≤ |sin dec| := by
      calc sin dec * sin dec' ≤ |sin dec * sin dec'| := le_abs_self _
        _ = |sin dec| * |sin dec'| := abs_mul _ _
        _ ≤ |sin dec| * 1 := mul_le_mul_of_nonneg_left (abs_sin_le_one _) (abs_nonneg _)
        _ = |sin dec| := mul_one _
    have less := abs_sin_lt_cos inside nonneg
    linarith
  obtain ⟨halves, near⟩ := exists_abs_sub_le_arcsin small
  obtain ⟨turns, rfl | rfl⟩ := halves.even_or_odd'
  · refine ⟨turns, ?_⟩
    rwa [Int.cast_mul, Int.cast_ofNat, mul_assoc, mul_left_comm] at near
  · have right := near.trans (arcsin_le_pi_div_two _)
    have ahead := cos_nonneg_of_mem_Icc (abs_le.mp right)
    have behind : cos (turn - ((2 * turns + 1 : ℤ) : ℝ) * π) = -cos turn := by
      rw [cos_sub_int_mul_pi, Odd.neg_one_zpow ⟨turns, rfl⟩, neg_one_mul]
    linarith

end

/-! ## Bins on a circle -/

noncomputable def ringBin (bins : Int) (place : ℝ) : Int :=
  ⌊place * bins⌋ % bins

theorem ringBin_add_int (bins : Int) (place : ℝ) (turns : Int) : ringBin bins (place + turns) = ringBin bins place := by
  rw [ringBin, add_mul, ← Int.cast_mul, Int.floor_add_intCast, Int.add_mul_emod_self_right, ringBin]

theorem floor_fract_mul {bins : Int} (positive : 0 < bins) (place : ℝ) : ⌊Int.fract place * bins⌋ = ringBin bins place := by
  have binsPositive : (0 : ℝ) < bins := Int.cast_pos.mpr positive
  have low : 0 ≤ ⌊Int.fract place * bins⌋ := Int.floor_nonneg.mpr (mul_nonneg (Int.fract_nonneg _) binsPositive.le)
  have high : ⌊Int.fract place * bins⌋ < bins :=
    Int.floor_lt.mpr ((mul_lt_iff_lt_one_left binsPositive).mpr (Int.fract_lt_one _))
  have fraction : Int.fract place = place + (-⌊place⌋ : Int) := by
    rw [Int.fract, Int.cast_neg, sub_eq_add_neg]
  rw [← Int.emod_eq_of_lt low high, fraction]
  exact ringBin_add_int bins place _

theorem exists_step_floor {place place' : ℝ} (close : |place' - place| ≤ 1) :
    ∃ step ∈ [-1, 0, 1], ⌊place⌋ + step = ⌊place'⌋ := by
  have bounds := abs_le.mp close
  have above : ⌊place'⌋ ≤ ⌊place⌋ + 1 := by
    rw [← Int.floor_add_one]
    exact Int.floor_le_floor (by linarith)
  have below : ⌊place⌋ ≤ ⌊place'⌋ + 1 := by
    rw [← Int.floor_add_one]
    exact Int.floor_le_floor (by linarith)
  refine ⟨⌊place'⌋ - ⌊place⌋, ?_, add_sub_cancel _ _⟩
  simp only [List.mem_cons, List.not_mem_nil, or_false]
  omega

theorem exists_step_ringBin {bins : Int} {place place' : ℝ} {turns : Int}
    (close : |place' - place - turns| * bins ≤ 1) (positive : 0 < bins) :
    ∃ step ∈ [-1, 0, 1], (ringBin bins place + step) % bins = ringBin bins place' := by
  have binsPositive : (0 : ℝ) < bins := Int.cast_pos.mpr positive
  have scaled : |(place' - turns) * bins - place * bins| ≤ 1 := by
    rw [← sub_mul, abs_mul, abs_of_pos binsPositive, sub_right_comm]
    exact close
  obtain ⟨step, isStep, stepped⟩ := exists_step_floor scaled
  refine ⟨step, isStep, ?_⟩
  calc (ringBin bins place + step) % bins = (⌊place * bins⌋ + step) % bins := Int.emod_add_emod _ _ _
    _ = ringBin bins (place' - turns) := by rw [stepped, ringBin]
    _ = ringBin bins place' := by rw [← ringBin_add_int bins (place' - turns) turns, sub_add_cancel]

end Boom.Foundations
