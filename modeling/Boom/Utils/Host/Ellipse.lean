import Boom.Utils.SkyAngles

/-! # Ellipses of galaxies

How far out of a galaxy a place lies, in units of the galaxy's radius towards it.  Numbers are those of
the machine as far as they are not finite, and real numbers where they are. -/

namespace Boom.Utils.Host

open Real

noncomputable section

/-- A number of the machine. -/
inductive Number where
  | nan
  | infinite (negative : Bool)
  | finite (value : ℝ)

def Number.max : Number → ℝ → Number
  | .nan, other => .finite other
  | .infinite true, other => .finite other
  | .infinite false, _ => .infinite false
  | .finite value, other => .finite (Max.max value other)

inductive HostError where
  | noCandidates
  | nonFiniteShape (a b pa : Number)
  | semiAxesNotPositive (a b : ℝ)

structure Transient where
  ra : Number
  dec : Number

structure GalaxyCandidate where
  ra : Number
  dec : Number
  aArcsec : Number
  bArcsec : Number
  paDeg : Number
  redshift : Option Number
  mag : Option Number
  magErr : Option Number

structure Ellipse where
  a : ℝ
  b : ℝ
  paRad : ℝ
  axisRatio : ℝ

def Ellipse.new (aArcsec bArcsec paDeg : Number) : Except HostError Ellipse :=
  match aArcsec, bArcsec, paDeg with
  | .finite a, .finite b, .finite pa =>
    if a ≤ 0 ∨ b ≤ 0 then .error (.semiAxesNotPositive a b)
    else
      let axes := if b ≤ a then (a, b) else (b, a)
      .ok { a := axes.1, b := axes.2, paRad := toRadians pa, axisRatio := axes.2 / axes.1 }
  | _, _, _ => .error (.nonFiniteShape aArcsec bArcsec paDeg)

def Ellipse.fromCandidate (candidate : GalaxyCandidate) (minBArcsec : ℝ) : Except HostError Ellipse :=
  Ellipse.new candidate.aArcsec (candidate.bArcsec.max minBArcsec) candidate.paDeg

/-! ## Offsets -/

structure DlrResult where
  separationArcsec : ℝ
  directionalRadius : ℝ
  fractionalOffset : ℝ

def hypot (x y : ℝ) : ℝ := √(x ^ 2 + y ^ 2)

def atan2 (y x : ℝ) : ℝ := Complex.arg ⟨x, y⟩

def eastOf (transientRa galaxyRa galaxyDec : ℝ) : ℝ :=
  let draDeg := transientRa - galaxyRa
  let wrapped := if 180 < draDeg then draDeg - 360 else if draDeg < -180 then draDeg + 360 else draDeg
  wrapped * cos (toRadians galaxyDec) * 3600

def northOf (transientDec galaxyDec : ℝ) : ℝ := (transientDec - galaxyDec) * 3600

def dlrAt (dra ddec : ℝ) (ellipse : Ellipse) : DlrResult :=
  let separation := hypot dra ddec
  if separation < 1e-15 then { separationArcsec := 0, directionalRadius := ellipse.a, fractionalOffset := 0 }
  else
    let xMaj := dra * sin ellipse.paRad + ddec * cos ellipse.paRad
    let yMin := dra * cos ellipse.paRad - ddec * sin ellipse.paRad
    let t := atan2 yMin xMaj
    let denom := hypot (ellipse.b * cos t) (ellipse.a * sin t)
    let directionalRadius := if 1e-15 < denom then ellipse.a * ellipse.b / denom else ellipse.a
    { separationArcsec := separation, directionalRadius := directionalRadius, fractionalOffset := separation / directionalRadius }

def computeDlr (transientRa transientDec galaxyRa galaxyDec : Number) (ellipse : Ellipse) : Option DlrResult :=
  match transientRa, transientDec, galaxyRa, galaxyDec with
  | .finite ra, .finite dec, .finite ra', .finite dec' => some (dlrAt (eastOf ra ra' dec') (northOf dec dec') ellipse)
  | _, _, _, _ => none

/-! ## What the offset is -/

def ellipseOffset (major minor pa east north : ℝ) : ℝ :=
  hypot ((east * sin pa + north * cos pa) / major) ((east * cos pa - north * sin pa) / minor)

def offsetIn (major minor pa east north : ℝ) : ℝ :=
  if hypot east north < 1e-15 then 0
  else if major * minor * ellipseOffset major minor pa east north ≤ 1e-15 * hypot east north then hypot east north / major
  else ellipseOffset major minor pa east north

section

variable {x y a b east north : ℝ}

theorem hypot_nonneg (x y : ℝ) : 0 ≤ hypot x y := sqrt_nonneg _

theorem hypot_mul_left {scale : ℝ} (nonneg : 0 ≤ scale) (x y : ℝ) : hypot (scale * x) (scale * y) = scale * hypot x y := by
  rw [hypot, mul_pow, mul_pow, ← mul_add, sqrt_mul (sq_nonneg scale), sqrt_sq nonneg, hypot]

theorem least_mul_hypot_le (nonneg : 0 ≤ a) (nonneg' : 0 ≤ b) (x y : ℝ) : min a b * hypot x y ≤ hypot (a * x) (b * y) := by
  have least := le_min nonneg nonneg'
  rw [← hypot_mul_left least]
  refine sqrt_le_sqrt ?_
  rw [mul_pow, mul_pow, mul_pow, mul_pow]
  gcongr
  · exact min_le_left a b
  · exact min_le_right a b

theorem hypot_turn (east north pa : ℝ) :
    hypot (east * sin pa + north * cos pa) (east * cos pa - north * sin pa) = hypot east north := by
  unfold hypot
  congr 1
  linear_combination (east ^ 2 + north ^ 2) * sin_sq_add_cos_sq pa

theorem norm_eq_hypot (x y : ℝ) : ‖(⟨x, y⟩ : ℂ)‖ = hypot x y := by
  rw [Complex.norm_def, Complex.normSq_mk, hypot, sq, sq]

theorem hypot_mul_cos (apart : 0 < hypot x y) : hypot x y * cos (atan2 y x) = x := by
  have some_ : (⟨x, y⟩ : ℂ) ≠ 0 := by
    rw [← norm_pos_iff, norm_eq_hypot]
    exact apart
  rw [atan2, Complex.cos_arg some_, norm_eq_hypot, mul_div_cancel₀ _ apart.ne']

theorem hypot_mul_sin (apart : 0 < hypot x y) : hypot x y * sin (atan2 y x) = y := by
  rw [atan2, Complex.sin_arg, norm_eq_hypot, mul_div_cancel₀ _ apart.ne']

theorem mul_hypot_div (positive : 0 < a) (positive' : 0 < b) (x y : ℝ) :
    a * b * hypot (x / a) (y / b) = hypot (b * x) (a * y) := by
  rw [← hypot_mul_left (mul_pos positive positive').le]
  congr 1
  · field_simp
  · field_simp

theorem hypot_mul_denom (apart : 0 < hypot x y) (positive : 0 < a) (positive' : 0 < b) :
    hypot x y * hypot (b * cos (atan2 y x)) (a * sin (atan2 y x)) = a * b * hypot (x / a) (y / b) := by
  rw [mul_hypot_div positive positive', ← hypot_mul_left (hypot_nonneg x y), mul_left_comm, hypot_mul_cos apart,
    mul_left_comm, hypot_mul_sin apart]

theorem fractionalOffset_dlrAt {ellipse : Ellipse} (positive : 0 < ellipse.a) (positive' : 0 < ellipse.b) :
    (dlrAt east north ellipse).fractionalOffset = offsetIn ellipse.a ellipse.b ellipse.paRad east north := by
  unfold dlrAt offsetIn
  dsimp only
  split
  next => rfl
  next far =>
    have apart : 0 < hypot east north := lt_of_lt_of_le (by norm_num) (not_lt.mp far)
    have turned := hypot_turn east north ellipse.paRad
    unfold ellipseOffset
    generalize east * sin ellipse.paRad + north * cos ellipse.paRad = x at *
    generalize east * cos ellipse.paRad - north * sin ellipse.paRad = y at *
    have denom := hypot_mul_denom (turned ▸ apart) positive positive'
    rw [turned] at denom
    generalize hypot (ellipse.b * cos (atan2 y x)) (ellipse.a * sin (atan2 y x)) = thickness at *
    have thin : ellipse.a * ellipse.b * hypot (x / ellipse.a) (y / ellipse.b) ≤ 1e-15 * hypot east north ↔ ¬ 1e-15 < thickness := by
      rw [← denom, mul_comm, mul_le_mul_iff_left₀ apart, not_lt]
    by_cases wide : 1e-15 < thickness
    · have some_ : 0 < thickness := lt_trans (by norm_num) wide
      rw [if_neg fun isThin => thin.mp isThin wide]
      simp only [wide, if_true]
      rw [div_div_eq_mul_div, denom, mul_div_cancel_left₀ _ (mul_pos positive positive').ne']
    · rw [if_pos (thin.mpr wide)]
      simp only [wide, if_false]

theorem offsetIn_nonneg {major minor : ℝ} (positive : 0 < major) (pa : ℝ) : 0 ≤ offsetIn major minor pa east north := by
  unfold offsetIn
  split
  next => exact le_refl 0
  next =>
    split
    next => exact div_nonneg (hypot_nonneg _ _) positive.le
    next => exact hypot_nonneg _ _

theorem offsetIn_eq {major minor : ℝ} (wide : 1e-15 < major) (wide' : 1e-15 < minor) (pa : ℝ) (far : 1e-15 ≤ hypot east north) :
    offsetIn major minor pa east north = ellipseOffset major minor pa east north := by
  have apart : 0 < hypot east north := lt_of_lt_of_le (by norm_num) far
  have positive : 0 < major := lt_trans (by norm_num) wide
  have positive' : 0 < minor := lt_trans (by norm_num) wide'
  have thick : 1e-15 * hypot east north < major * minor * ellipseOffset major minor pa east north := by
    rw [ellipseOffset, mul_hypot_div positive positive', ← hypot_turn east north pa]
    rw [← hypot_turn east north pa] at apart
    exact (mul_lt_mul_of_pos_right (lt_min wide' wide) apart).trans_le (least_mul_hypot_le positive'.le positive.le _ _)
  rw [offsetIn, if_neg (not_lt.mpr far), if_neg (not_le.mpr thick)]

end

/-! ## Shapes of galaxies -/

/-- A shape of three numbers. -/
structure HasShape (galaxy : GalaxyCandidate) (a b pa : ℝ) : Prop where
  major : galaxy.aArcsec = .finite a
  minor : galaxy.bArcsec = .finite b
  angle : galaxy.paDeg = .finite pa

section

variable {galaxy : GalaxyCandidate} {a b pa minBArcsec : ℝ} {ellipse : Ellipse}

theorem fromCandidate_of_shape (shape : HasShape galaxy a b pa) (positive : 0 < a) (floor : 0 < minBArcsec) :
    ∃ ellipse, Ellipse.fromCandidate galaxy minBArcsec = .ok ellipse ∧ ellipse.a = max a (max b minBArcsec) ∧
      ellipse.b = min a (max b minBArcsec) ∧ ellipse.paRad = toRadians pa := by
  have positive' : 0 < max b minBArcsec := lt_max_of_lt_right floor
  have made : Ellipse.fromCandidate galaxy minBArcsec = Ellipse.new (.finite a) (.finite (max b minBArcsec)) (.finite pa) := by
    rw [Ellipse.fromCandidate, shape.major, shape.minor, shape.angle, Number.max]
  rw [made, Ellipse.new, if_neg (not_or.mpr ⟨not_le.mpr positive, not_le.mpr positive'⟩)]
  refine ⟨_, rfl, ?_, ?_, rfl⟩
  · rcases le_total (max b minBArcsec) a with le | le
    · rw [max_eq_left le]
      simp only [le, if_true]
    · rw [max_eq_right le]
      dsimp only
      split
      next le' => exact le_antisymm le le'
      next => rfl
  · rcases le_total (max b minBArcsec) a with le | le
    · rw [min_eq_right le]
      simp only [le, if_true]
    · rw [min_eq_left le]
      dsimp only
      split
      next le' => exact le_antisymm le' le
      next => rfl

theorem ellipse_pos (ok : Ellipse.fromCandidate galaxy minBArcsec = .ok ellipse) : 0 < ellipse.a ∧ 0 < ellipse.b := by
  unfold Ellipse.fromCandidate Ellipse.new at ok
  split at ok
  next =>
    split at ok
    next => cases ok
    next positive =>
      obtain ⟨first, second⟩ := not_or.mp positive
      obtain rfl := Except.ok.inj ok
      dsimp only
      split
      next => exact ⟨not_le.mp first, not_le.mp second⟩
      next => exact ⟨not_le.mp second, not_le.mp first⟩
  next => cases ok

theorem shape_of_fromCandidate (ok : Ellipse.fromCandidate galaxy minBArcsec = .ok ellipse)
    (known : galaxy.bArcsec ≠ .nan ∧ galaxy.bArcsec ≠ .infinite true) : ∃ a b pa, HasShape galaxy a b pa ∧ 0 < a := by
  unfold Ellipse.fromCandidate Ellipse.new at ok
  split at ok
  next a b pa isMajor isMinor isAngle =>
    split at ok
    next => cases ok
    next positive =>
      match isB : galaxy.bArcsec with
      | .nan => exact absurd isB known.1
      | .infinite true => exact absurd isB known.2
      | .infinite false =>
        rw [isB, Number.max] at isMinor
        cases isMinor
      | .finite b => exact ⟨a, b, pa, ⟨isMajor, isB, isAngle⟩, not_le.mp (not_or.mp positive).1⟩
  next => cases ok

end

end

end Boom.Utils.Host
