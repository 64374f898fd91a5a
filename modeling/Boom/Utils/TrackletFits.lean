import Boom.Utils.SkyGrid
import Boom.Utils.Tracklets

/-! # Fits of constant motion

What a fit goes through before it is accepted, and, with real numbers for the platform's, how
far apart positions along the equator and across it are and where the tangent plane shows them. -/

namespace Boom.Utils.Linking

open Boom.Foundations Real

/-! ## One fit -/

section Plane

variable {F : Type} [Trigonometric F] {cfg : TrackletConfig F} {center second : Detection F} {rest : List (Detection F)}
  {jds t : List F} {jdRef rms : F} {plane : List (F × F)} {x y : F × F}

/-- The steps of a fit up to where it is accepted. -/
structure Fitted (cfg : TrackletConfig F) (dets : List (Detection F)) (center : Detection F) (jdRef rms : F) (x y : F × F) : Prop where
  short : Floating.less cfg.maxSpanDays ((dets.map (·.jd.val)).foldl Floating.fmax Floating.minValue -
    (dets.map (·.jd.val)).foldl Floating.fmin Floating.maxValue) = false
  isRef : total (dets.map (·.jd.val)) / Floating.ofNat dets.length = jdRef
  isFit : ∃ plane, dets.mapM (fun d => tangentPlane d.ra.val d.dec.val center.ra.val center.dec.val) = some plane ∧
    fitLine ((dets.map (·.jd.val)).map (· - jdRef)) (plane.map (·.1)) = some x ∧
    fitLine ((dets.map (·.jd.val)).map (· - jdRef)) (plane.map (·.2)) = some y ∧
    Floating.sqrt (total (residuals ((dets.map (·.jd.val)).map (· - jdRef)) plane x y) / Floating.ofNat dets.length) * 3600.0 = rms

theorem Fitted.accepted (fitted : Fitted cfg (center :: second :: rest) center jdRef rms x y)
    (tight : Floating.less cfg.maxRmsArcsec rms = false)
    (fast : Floating.less (Trigonometric.hypot x.2 y.2) cfg.minRateDegPerDay = false)
    (slow : Floating.less cfg.maxRateDegPerDay (Trigonometric.hypot x.2 y.2) = false) :
    ∃ seed, fitTracklet cfg (center :: second :: rest) = some seed ∧ seed.jdRef = jdRef ∧ ∀ jd, predict seed jd =
      fromTangentPlane (x.1 + x.2 * (jd - jdRef)) (y.1 + y.2 * (jd - jdRef)) center.ra.val center.dec.val := by
  obtain ⟨short, rfl, plane, isPlane, isX, isY, rfl⟩ := fitted
  simp only [fitTracklet, short, isPlane, isX, isY, tight, fast, slow, Option.bind_eq_bind, Option.bind_some, Bool.false_eq_true, if_false,
    Bool.or_false]
  exact ⟨_, rfl, rfl, fun _ => rfl⟩

theorem Fitted.refused (fitted : Fitted cfg (center :: second :: rest) center jdRef rms x y)
    (loose : Floating.less cfg.maxRmsArcsec rms = true) : fitTracklet cfg (center :: second :: rest) = none := by
  obtain ⟨short, rfl, plane, isPlane, isX, isY, rfl⟩ := fitted
  simp only [fitTracklet, short, isPlane, isX, isY, loose, Option.bind_eq_bind, Option.bind_some, Bool.false_eq_true, if_false, if_true]

end Plane

/-! ## Exact arithmetic -/

@[reducible] noncomputable def exactReals : Trigonometric ℝ where
  less first second := decide (first < second)
  fmin := min
  fmax := max
  abs number := |number|
  sqrt := Real.sqrt
  remEuclid := Utils.remEuclid
  floorInt := Int.floor
  ofNat := Nat.cast
  maxValue := 1.7976931348623157e308
  minValue := -1.7976931348623157e308
  lessEq first second := decide (first ≤ second)
  totalLe first second := decide (first ≤ second)
  isFinite _ := true
  clamp number least most := max least (min most number)
  hypot := Utils.hypot
  sin := Real.sin
  cos := Real.cos
  arcsin := Real.arcsin
  arctan := Real.arctan
  atan2 := SkyGrid.atan2
  toRadians := Utils.toRadians
  toDegrees := Utils.toDegrees

section Operations

variable (x y z : ℝ)

@[simp] theorem less_exact : @Floating.less ℝ exactReals.toFloating x y = decide (x < y) := rfl

@[simp] theorem lessEq_exact : @Trigonometric.lessEq ℝ exactReals x y = decide (x ≤ y) := rfl

@[simp] theorem totalLe_exact : @Trigonometric.totalLe ℝ exactReals x y = decide (x ≤ y) := rfl

@[simp] theorem isFinite_exact : @Trigonometric.isFinite ℝ exactReals x = true := rfl

@[simp] theorem fmin_exact : @Floating.fmin ℝ exactReals.toFloating x y = min x y := rfl

@[simp] theorem fmax_exact : @Floating.fmax ℝ exactReals.toFloating x y = max x y := rfl

@[simp] theorem abs_exact : @Floating.abs ℝ exactReals.toFloating x = |x| := rfl

@[simp] theorem sqrt_exact : @Floating.sqrt ℝ exactReals.toFloating x = √x := rfl

@[simp] theorem ofNat_exact (count : Nat) : @Floating.ofNat ℝ exactReals.toFloating count = count := rfl

@[simp] theorem maxValue_exact : @Floating.maxValue ℝ exactReals.toFloating = 1.7976931348623157e308 := rfl

@[simp] theorem minValue_exact : @Floating.minValue ℝ exactReals.toFloating = -1.7976931348623157e308 := rfl

@[simp] theorem clamp_exact : @Trigonometric.clamp ℝ exactReals x y z = max y (min z x) := rfl

@[simp] theorem hypot_exact : @Trigonometric.hypot ℝ exactReals x y = Utils.hypot x y := rfl

@[simp] theorem sin_exact : @Trigonometric.sin ℝ exactReals x = sin x := rfl

@[simp] theorem cos_exact : @Trigonometric.cos ℝ exactReals x = cos x := rfl

@[simp] theorem arcsin_exact : @Trigonometric.arcsin ℝ exactReals x = arcsin x := rfl

@[simp] theorem toRadians_exact : @Trigonometric.toRadians ℝ exactReals x = Utils.toRadians x := rfl

@[simp] theorem toDegrees_exact : @Trigonometric.toDegrees ℝ exactReals x = Utils.toDegrees x := rfl

end Operations

theorem le_exact {first second : @FiniteFloat ℝ exactReals} :
    @LE.le _ (@instLEFiniteFloat ℝ exactReals) first second ↔ first.val ≤ second.val :=
  decide_eq_false_iff_not.trans not_lt

theorem lawful_exact : @LawfulFloating ℝ exactReals :=
  let _ := exactReals
  { le_total := fun first second => (le_total first.val second.val).imp le_exact.mpr le_exact.mpr
    le_trans := fun below above => le_exact.mpr ((le_exact.mp below).trans (le_exact.mp above))
    less_of_le := fun ordered less => decide_eq_true ((le_exact.mp ordered).trans_lt (of_decide_eq_true less))
    lessEq_of_le := fun ordered less => decide_eq_true ((le_exact.mp ordered).trans (of_decide_eq_true less))
    less_sub := fun third _ ordered less =>
      decide_eq_true ((of_decide_eq_true less).trans_le (sub_le_sub_right (le_exact.mp ordered) third.val))
    sub_lessEq := fun early late fits =>
      decide_eq_true ((sub_le_sub (le_exact.mp late) (le_exact.mp early)).trans (of_decide_eq_true fits))
    fmin_spec := fun first second => (le_total first.val second.val).imp
      (fun below => ⟨min_eq_left below, le_exact.mpr below⟩) fun below => ⟨min_eq_right below, le_exact.mpr below⟩
    fmax_spec := fun first second => (le_total second.val first.val).imp
      (fun below => ⟨max_eq_left below, le_exact.mpr below⟩) fun below => ⟨max_eq_right below, le_exact.mpr below⟩
    totalLe_total := fun first second => (le_total first second).imp decide_eq_true decide_eq_true
    totalLe_trans := fun below above => decide_eq_true ((of_decide_eq_true below).trans (of_decide_eq_true above))
    totalLe_antisymm := fun below above => (of_decide_eq_true below).antisymm (of_decide_eq_true above) }

theorem three_nonneg_exact : @Floating.less ℝ exactReals.toFloating 3.0 0.0 = false := by
  simp only [less_exact]
  norm_num

noncomputable def standard : @TrackletConfig ℝ exactReals :=
  @TrackletConfig.default ℝ exactReals three_nonneg_exact

theorem total_exact (values : List ℝ) : @total ℝ exactReals values = values.sum := by
  have zero : (0.0 : ℝ) = 0 := by norm_num
  rw [List.sum_eq_foldl]
  exact congrArg (values.foldl (· + ·)) zero

theorem fitLine_exact {t v : List ℝ} {a b : ℝ} (mt mv num den : ℝ) (isMt : t.sum / t.length = mt) (isMv : v.sum / t.length = mv)
    (isNum : (List.zipWith (fun ti vi => (ti - mt) * (vi - mv)) t v).sum = num)
    (isDen : (List.zipWith (fun ti _ => (ti - mt) * (ti - mt)) t v).sum = den) (positive : 0 < den) (isB : num / den = b)
    (isA : mv - b * mt = a) : @fitLine ℝ exactReals t v = some (a, b) := by
  have above : decide (den ≤ 0.0) = false := decide_eq_false (by norm_num; exact positive)
  simp only [fitLine, total_exact, ofNat_exact, isMt, isMv, isNum, isDen, lessEq_exact, above, Bool.false_eq_true, if_false, isB, isA]

/-! ## Along the equator and across it -/

theorem half_le_cos {degrees : ℝ} (small : |degrees| ≤ 1) : 1 / 2 ≤ cos (Utils.toRadians degrees) := by
  have radians : |Utils.toRadians degrees| ≤ 1 := by
    rw [abs_toRadians, Utils.toRadians]
    have := pi_lt_four
    nlinarith [abs_nonneg degrees, pi_pos]
  have square : Utils.toRadians degrees ^ 2 ≤ 1 := by
    rw [← sq_abs]
    nlinarith [abs_nonneg (Utils.toRadians degrees)]
  linarith [one_sub_sq_div_two_le_cos (x := Utils.toRadians degrees)]

/-- How far from its centre the tangent plane shows what is `degrees` away. -/
noncomputable def planeDeg (degrees : ℝ) : ℝ :=
  Utils.toDegrees (tan (Utils.toRadians degrees))

theorem planeDeg_bounds {degrees : ℝ} (positive : 0 < degrees) (small : degrees ≤ 1) :
    degrees < planeDeg degrees ∧ planeDeg degrees ≤ 2 * degrees := by
  have cosine := half_le_cos (by rwa [abs_of_pos positive] : |degrees| ≤ 1)
  have right : Utils.toRadians degrees < π / 2 := by
    rw [← toRadians_right]
    exact toRadians_lt_iff.mpr (by linarith)
  have scale : (0 : ℝ) < 180 / π := by positivity
  constructor
  -- The tangent is above its angle, and below twice the angle where the cosine is at least a half.
  · have below := mul_lt_mul_of_pos_right (lt_tan (toRadians_pos positive) right) scale
    rwa [← Utils.toDegrees, toDegrees_toRadians] at below
  · have double : Utils.toRadians (2 * degrees) = 2 * Utils.toRadians degrees := by
      unfold Utils.toRadians
      ring
    rw [planeDeg, toDegrees_le_iff, tan_eq_sin_div_cos, div_le_iff₀ (by linarith), double]
    nlinarith [sin_le (toRadians_nonneg positive.le), toRadians_nonneg positive.le]

theorem planeDeg_neg (degrees : ℝ) : planeDeg (-degrees) = -planeDeg degrees := by
  simp only [planeDeg, Utils.toRadians, Utils.toDegrees, neg_mul, tan_neg]

theorem separation_along {ra : ℝ} (nonneg : 0 ≤ ra) (bounded : ra ≤ 180) : Utils.angularSeparationDeg 0 0 ra 0 = ra := by
  have half : 0 ≤ Utils.toRadians ra / 2 ∧ Utils.toRadians ra / 2 ≤ π / 2 := by
    have := toRadians_nonneg nonneg
    have := toRadians_le_iff.mpr bounded
    rw [toRadians_straight] at this
    constructor <;> linarith
  have zero : Utils.toRadians 0 = 0 := zero_mul _
  have sine := sin_nonneg_of_nonneg_of_le_pi half.1 (by linarith [pi_pos])
  simp only [Utils.angularSeparationDeg, zero, sub_zero, zero_div, sin_zero, cos_zero, mul_zero, mul_one, one_mul, zero_add,
    sqrt_mul_self sine]
  rw [min_eq_right (sin_le_one _), max_eq_right (by linarith), arcsin_sin (by linarith [pi_pos]) half.2, mul_div_cancel₀ _ two_ne_zero,
    toDegrees_toRadians]

theorem separation_across {dec size : ℝ} (close : |dec| ≤ size) (bounded : size ≤ 90) :
    Utils.angularSeparationDeg 0 dec 0 0 ≤ size := by
  have isDec : IsDec dec := close.trans bounded
  have nonneg := le_trans (abs_nonneg _) close
  rw [angularSeparationDeg_le_iff isDec (by simp [IsDec]) nonneg (by linarith)]
  have zero : Utils.toRadians 0 = 0 := zero_mul _
  have half : |Utils.toRadians dec / 2| ≤ Utils.toRadians size / 2 := by
    rw [abs_div, abs_toRadians, abs_two]
    exact div_le_div_of_nonneg_right (toRadians_le_iff.mpr close) zero_le_two
  have right : Utils.toRadians size / 2 ≤ π / 2 := by
    have := toRadians_le_iff.mpr (bounded.trans (by norm_num : (90 : ℝ) ≤ 180))
    rw [toRadians_straight] at this
    linarith
  simp only [separationHav, zero, sub_zero, zero_div, sin_zero, zero_sub, neg_div, sin_neg, neg_sq]
  have sine := sin_le_sin_of_le_of_le_pi_div_two (by linarith [abs_nonneg (Utils.toRadians dec / 2), pi_pos]) right half
  have nonneg' := sin_nonneg_of_nonneg_of_le_pi (abs_nonneg (Utils.toRadians dec / 2)) (by linarith [pi_pos])
  have square : sin (Utils.toRadians dec / 2) ^ 2 = sin |Utils.toRadians dec / 2| ^ 2 := by
    rcases abs_choice (Utils.toRadians dec / 2) with same | same <;> rw [same]
    rw [sin_neg, neg_sq]
  rw [square]
  nlinarith

theorem separation_exact (ra1 dec1 ra2 dec2 : ℝ) :
    @angularSeparationDeg ℝ exactReals ra1 dec1 ra2 dec2 = Utils.angularSeparationDeg ra1 dec1 ra2 dec2 := by
  simp only [angularSeparationDeg, Utils.angularSeparationDeg, sqrt_exact, clamp_exact, sin_exact, cos_exact, arcsin_exact,
    toRadians_exact, toDegrees_exact]
  norm_num

theorem tangentPlane_self_exact (ra dec : ℝ) : @tangentPlane ℝ exactReals ra dec ra dec = some (0, 0) := by
  have square := sin_sq_add_cos_sq (Utils.toRadians dec)
  have one : sin (Utils.toRadians dec) * sin (Utils.toRadians dec) + cos (Utils.toRadians dec) * cos (Utils.toRadians dec) = 1 := by linarith
  simp only [tangentPlane, sub_self, sin_exact, cos_exact, lessEq_exact, toRadians_exact, toDegrees_exact, cos_zero, sin_zero, mul_one, one,
    mul_zero, zero_div]
  norm_num [Utils.toDegrees, mul_comm]

theorem tangentPlane_along {ra : ℝ} (small : |ra| ≤ 1) : @tangentPlane ℝ exactReals ra 0 0 0 = some (planeDeg ra, 0) := by
  have near := half_le_cos small
  have zero : Utils.toRadians 0 = 0 := zero_mul _
  simp only [tangentPlane, sin_exact, cos_exact, lessEq_exact, toRadians_exact, toDegrees_exact, zero, sin_zero, cos_zero, sub_zero, zero_mul,
    one_mul, zero_add]
  rw [if_neg (by norm_num; linarith), ← tan_eq_sin_div_cos]
  simp [planeDeg, Utils.toDegrees]

theorem tangentPlane_across {dec : ℝ} (small : |dec| ≤ 1) : @tangentPlane ℝ exactReals 0 dec 0 0 = some (0, planeDeg dec) := by
  have near := half_le_cos small
  have zero : Utils.toRadians 0 = 0 := zero_mul _
  simp only [tangentPlane, sin_exact, cos_exact, lessEq_exact, toRadians_exact, toDegrees_exact, zero, sin_zero, cos_zero, sub_zero, zero_mul,
    one_mul, zero_add, mul_one, mul_zero, zero_div]
  rw [if_neg (by norm_num; linarith), ← tan_eq_sin_div_cos]
  simp [planeDeg, Utils.toDegrees]

end Boom.Utils.Linking
