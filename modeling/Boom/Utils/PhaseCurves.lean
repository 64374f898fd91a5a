import Boom.Foundations.Medians
import Boom.Foundations.Numerals
import Mathlib.Analysis.SpecialFunctions.Log.Base

/-! # Phase curves of moving objects

The slope of a phase curve is the one of a scan that leaves the least scatter, and its level the
median of what is left.  Points far from a first fit are dropped, and the rest is fitted again.

Arithmetic is that of the real numbers, and the light of a phase angle is any function of it and the
slope. -/

namespace Boom.Utils.PhaseCurves

open Boom.Foundations

noncomputable section

structure Point where
  rh : Option ℝ
  delta : Option ℝ
  phase : Option ℝ
  mag : Option ℝ

structure PhaseCurve where
  h : ℝ
  g12 : ℝ
  scatter : ℝ
  n : Nat

def MIN_POINTS : Nat := 8

def MIN_PHASE_SPAN : ℝ := 15

def MIN_POINTS_FOR_SLOPE : Nat := 20

def MIN_SCATTER : ℝ := 0.02

def CLIP_SIGMA : ℝ := 3

def DEFAULT_G12 : ℝ := 0.5

structure Usable where
  reduced : ℝ
  phase : ℝ

def reducedMagnitude (rh delta mag : ℝ) : ℝ := mag - 5 * Real.logb 10 (rh * delta)

def Point.usable (point : Point) : Option Usable := do
  let rh ← point.rh
  let delta ← point.delta
  let phase ← point.phase
  let mag ← point.mag
  if 0 < rh ∧ 0 < delta then some { reduced := reducedMagnitude rh delta mag, phase := phase } else none

def usable (points : List Point) : List Usable := points.filterMap Point.usable

def robustScatter (residuals : List ℝ) (center : ℝ) : Option ℝ :=
  (median (residuals.map fun r => |r - center|)).map fun mad => 1.4826 * mad

def phaseSpan (points : List Usable) : ℝ :=
  match points.map Usable.phase with
  | [] => 0
  | first :: rest => rest.foldl max first - rest.foldl min first

def candidates (points : List Usable) : List ℝ :=
  if MIN_PHASE_SPAN ≤ phaseSpan points ∧ MIN_POINTS_FOR_SLOPE ≤ points.length then
    (List.range 101).map fun i : Nat => (i : ℝ) / 100
  else [DEFAULT_G12]

section

variable (hg12 : ℝ → ℝ → ℝ)

def residual (g12 : ℝ) (point : Usable) : ℝ := point.reduced - hg12 point.phase g12

def curveAt (kept : List Usable) (n : Nat) (g12 : ℝ) : Option PhaseCurve := do
  let residuals := kept.map (residual hg12 g12)
  let h ← median residuals
  let scatter ← robustScatter residuals h
  some { h := h, g12 := g12, scatter := scatter, n := n }

def better (best : Option PhaseCurve) (curve : PhaseCurve) : Option PhaseCurve :=
  match best with
  | none => some curve
  | some held => if curve.scatter < held.scatter then some curve else some held

def tryCandidate (kept : List Usable) (n : Nat) (best : Option PhaseCurve) (g12 : ℝ) : Option PhaseCurve :=
  match curveAt hg12 kept n g12 with
  | none => best
  | some curve => better best curve

def scan (candidates : List ℝ) (kept : List Usable) (n : Nat) : Option PhaseCurve :=
  candidates.foldl (tryCandidate hg12 kept n) none

def survives (curve : PhaseCurve) (point : Usable) : Bool :=
  |residual hg12 curve.g12 point - curve.h| ≤ CLIP_SIGMA * curve.scatter

def surviving (curve : PhaseCurve) (kept : List Usable) : Option (List Usable) :=
  let surviving := kept.filter (survives hg12 curve)
  if surviving.length < MIN_POINTS ∨ surviving.length = kept.length then none else some surviving

def passes (points : List Usable) : Option PhaseCurve := do
  let first ← scan hg12 (candidates points) points points.length
  match surviving hg12 first points with
  | none => some first
  | some kept => scan hg12 (candidates points) kept points.length

def fit (points : List Point) : Option PhaseCurve :=
  let usable := usable points
  if usable.length < MIN_POINTS then none
  else (passes hg12 usable).map fun curve => { curve with scatter := max curve.scatter MIN_SCATTER }

/-! ## One scan -/

variable {hg12} {kept points : List Usable} {members : List Usable} {n : Nat} {g12 : ℝ} {curve : PhaseCurve} {slopes : List ℝ}

theorem curveAt_eq_some (isCurve : curveAt hg12 kept n g12 = some curve) :
    curve.g12 = g12 ∧ median (kept.map (residual hg12 curve.g12)) = some curve.h ∧
      ∃ mad, median ((kept.map (residual hg12 curve.g12)).map fun r => |r - curve.h|) = some mad ∧
        curve.scatter = 1.4826 * mad := by
  simp only [curveAt, robustScatter, Option.bind_eq_bind, Option.bind_eq_some_iff, Option.map_eq_some_iff] at isCurve
  obtain ⟨h, isLevel, scatter, ⟨mad, isMad, isScatter⟩, isCurve⟩ := isCurve
  obtain rfl := Option.some.inj isCurve
  exact ⟨rfl, isLevel, mad, isMad, isScatter.symm⟩

theorem exists_curveAt (hg12 : ℝ → ℝ → ℝ) (some_ : kept ≠ []) (n : Nat) (g12 : ℝ) : ∃ curve, curveAt hg12 kept n g12 = some curve := by
  obtain ⟨h, isLevel⟩ := exists_median (kept.map (residual hg12 g12)) (by simpa using some_)
  obtain ⟨mad, isMad⟩ := exists_median ((kept.map (residual hg12 g12)).map fun r => |r - h|) (by simpa using some_)
  refine ⟨{ h := h, g12 := g12, scatter := 1.4826 * mad, n := n }, ?_⟩
  simp only [curveAt, robustScatter, isLevel, isMad, Option.bind_eq_bind, Option.bind_some, Option.map_some]

theorem tryCandidate_spec {best : Option PhaseCurve} (holds : ∀ held ∈ best, curveAt hg12 kept n held.g12 = some held) :
    ∀ held ∈ tryCandidate hg12 kept n best g12, curveAt hg12 kept n held.g12 = some held := by
  unfold tryCandidate
  cases isCurve : curveAt hg12 kept n g12 with
  | none => exact holds
  | some curve =>
    have own : curveAt hg12 kept n curve.g12 = some curve := by rw [(curveAt_eq_some isCurve).1, isCurve]
    intro held isHeld
    cases best with
    | none =>
      obtain rfl : curve = held := Option.some.inj isHeld
      exact own
    | some old =>
      simp only [better] at isHeld
      split at isHeld
      · obtain rfl : curve = held := Option.some.inj isHeld
        exact own
      · exact holds held isHeld

theorem curveAt_of_scan (isBest : scan hg12 slopes kept n = some curve) : curveAt hg12 kept n curve.g12 = some curve := by
  have general : ∀ (slopes : List ℝ) (best : Option PhaseCurve), (∀ held ∈ best, curveAt hg12 kept n held.g12 = some held) →
      ∀ held ∈ slopes.foldl (tryCandidate hg12 kept n) best, curveAt hg12 kept n held.g12 = some held := by
    intro slopes
    induction slopes with
    | nil => exact fun _ holds => holds
    | cons g12 rest ih => exact fun best holds => ih _ (tryCandidate_spec holds)
  exact general slopes none (by simp) curve isBest

theorem isSome_tryCandidate (some_ : kept ≠ []) (best : Option PhaseCurve) : (tryCandidate hg12 kept n best g12).isSome = true := by
  obtain ⟨curve, isCurve⟩ := exists_curveAt hg12 some_ n g12
  rw [tryCandidate, isCurve]
  cases best with
  | none => rfl
  | some held =>
    simp only [better]
    split <;> rfl

theorem exists_scan (hg12 : ℝ → ℝ → ℝ) (someSlope : slopes ≠ []) (some_ : kept ≠ []) (n : Nat) :
    ∃ curve, scan hg12 slopes kept n = some curve := by
  obtain ⟨before, last, rfl⟩ : ∃ before last, slopes = before ++ [last] :=
    ⟨_, _, (List.dropLast_append_getLast someSlope).symm⟩
  rw [scan, List.foldl_append]
  exact Option.isSome_iff_exists.mp (isSome_tryCandidate some_ _)

def Between (hg12 : ℝ → ℝ → ℝ) (members : List Usable) (curve : PhaseCurve) : Prop :=
  ∃ low ∈ members, ∃ high ∈ members, residual hg12 curve.g12 low ≤ curve.h ∧ curve.h ≤ residual hg12 curve.g12 high

theorem between_of_scan (isBest : scan hg12 slopes kept n = some curve) (sub : members.Sublist kept)
    (half : kept.length < 2 * members.length) : Between hg12 members curve := by
  obtain ⟨-, isLevel, -⟩ := curveAt_eq_some (curveAt_of_scan isBest)
  obtain ⟨low, isLow, high, isHigh, below, above⟩ :=
    median_between isLevel (sub.map (residual hg12 curve.g12)).subperm (by simpa using half)
  obtain ⟨lowPoint, isLowPoint, rfl⟩ := List.mem_map.mp isLow
  obtain ⟨highPoint, isHighPoint, rfl⟩ := List.mem_map.mp isHigh
  exact ⟨lowPoint, isLowPoint, highPoint, isHighPoint, below, above⟩

/-! ## What the clip leaves -/

theorem half_survive (isBest : scan hg12 slopes kept n = some curve) :
    kept.length ≤ 2 * (kept.filter (survives hg12 curve)).length := by
  obtain ⟨-, -, mad, isMad, isScatter⟩ := curveAt_eq_some (curveAt_of_scan isBest)
  have nonneg : 0 ≤ mad := by
    by_cases some_ : kept = []
    · subst some_
      simp [median, inOrder] at isMad
    · have positive := List.length_pos_iff.mpr some_
      obtain ⟨low, isLow, -, -, le, -⟩ := median_between isMad (List.Subperm.refl _) (by
        rw [List.length_map, List.length_map]
        omega)
      obtain ⟨r, -, rfl⟩ := List.mem_map.mp isLow
      exact (abs_nonneg _).trans le
  have half := half_le_median isMad
  rw [List.length_map, List.length_map, List.map_map, List.countP_map] at half
  refine half.trans (Nat.mul_le_mul_left 2 ?_)
  rw [← List.countP_eq_length_filter]
  refine List.countP_mono_left fun point _ near => ?_
  have near : |residual hg12 curve.g12 point - curve.h| ≤ mad := of_decide_eq_true near
  refine decide_eq_true ?_
  rw [isScatter, CLIP_SIGMA]
  linarith

def fitted (hg12 : ℝ → ℝ → ℝ) (points : List Usable) (point : Usable) : Bool :=
  match scan hg12 (candidates points) points points.length with
  | none => true
  | some first =>
    match surviving hg12 first points with
    | none => true
    | some _ => survives hg12 first point

theorem candidates_ne_nil (points : List Usable) : candidates points ≠ [] := by
  unfold candidates
  split
  · exact List.map_eq_nil_iff.not.mpr (List.range_eq_nil.not.mpr (by decide : ¬ 101 = 0))
  · exact List.cons_ne_nil _ _

theorem exists_passes (hg12 : ℝ → ℝ → ℝ) (some_ : points ≠ []) : ∃ curve, passes hg12 points = some curve ∧
    scan hg12 (candidates points) (points.filter (fitted hg12 points)) points.length = some curve := by
  obtain ⟨first, isFirst⟩ := exists_scan hg12 (candidates_ne_nil points) some_ points.length
  unfold passes fitted
  simp only [isFirst, Option.bind_eq_bind, Option.bind_some]
  cases isSurviving : surviving hg12 first points with
  | none => exact ⟨first, rfl, by simpa using isFirst⟩
  | some left =>
    simp only [surviving] at isSurviving
    split at isSurviving
    next => cases isSurviving
    next enough =>
      obtain rfl := Option.some.inj isSurviving
      have someLeft : points.filter (survives hg12 first) ≠ [] := by
        intro none_
        simp [none_, MIN_POINTS] at enough
      obtain ⟨curve, isCurve⟩ := exists_scan hg12 (candidates_ne_nil points) someLeft points.length
      exact ⟨curve, isCurve, isCurve⟩

theorem majority_fitted (sub : members.Sublist points) (most : 3 * points.length < 4 * members.length) :
    (points.filter (fitted hg12 points)).length < 2 * (members.filter (fitted hg12 points)).length := by
  have half : points.length ≤ 2 * (points.filter (fitted hg12 points)).length := by
    unfold fitted
    split
    next => simp; omega
    next first isFirst =>
      split
      next => simp; omega
      next => exact half_survive isFirst
  have others := sub.countP_le (p := fun point => !fitted hg12 points point)
  have split := List.length_eq_countP_add_countP (l := points) (fitted hg12 points)
  have split' := List.length_eq_countP_add_countP (l := members) (fitted hg12 points)
  simp only [Bool.not_eq_true, Bool.decide_eq_false] at split split'
  rw [← List.countP_eq_length_filter, ← List.countP_eq_length_filter] at *
  omega

end

/-- The level lies among the residuals of a majority of the usable points if this is one of the
    points of the last pass too, which more than three quarters of the usable points always are. -/
theorem majority_holds_level (hg12 : ℝ → ℝ → ℝ) (points : List Point) (enough : MIN_POINTS ≤ (usable points).length) :
    ∃ curve, fit hg12 points = some curve ∧
      (∀ members : List Usable, members.Sublist (usable points) →
        ((usable points).filter (fitted hg12 (usable points))).length <
          2 * (members.filter (fitted hg12 (usable points))).length →
        Between hg12 members curve) ∧
      ∀ members : List Usable, members.Sublist (usable points) → 3 * (usable points).length < 4 * members.length →
        Between hg12 members curve := by
  have some_ : usable points ≠ [] := by
    intro none_
    simp [none_, MIN_POINTS] at enough
  obtain ⟨curve, isCurve, isBest⟩ := exists_passes hg12 some_
  have majority : ∀ members : List Usable, members.Sublist (usable points) →
      ((usable points).filter (fitted hg12 (usable points))).length <
        2 * (members.filter (fitted hg12 (usable points))).length →
      Between hg12 members { curve with scatter := max curve.scatter MIN_SCATTER } := by
    intro members sub half
    obtain ⟨low, isLow, high, isHigh, below, above⟩ := between_of_scan isBest (sub.filter _) half
    exact ⟨low, (List.mem_filter.mp isLow).1, high, (List.mem_filter.mp isHigh).1, below, above⟩
  refine ⟨_, ?_, majority, fun members sub most => majority members sub (majority_fitted sub most)⟩
  rw [fit, if_neg (Nat.not_lt.mpr enough), isCurve]
  rfl

/-! ## A majority that the clip takes apart -/

def plain (mag : ℝ) : Point := { rh := some 1, delta := some 1, phase := some 0, mag := some mag }

def halfActive : List Point :=
  [plain (-1), plain (-1), plain (-1), plain (-1), plain (-1), plain 0, plain 0, plain 0, plain 100, plain 100, plain 100]

def at0 (reduced : ℝ) : Usable := { reduced := reduced, phase := 0 }

def quietPoints : List Usable := [at0 0, at0 0, at0 0, at0 100, at0 100, at0 100]

theorem usable_halfActive : usable halfActive = [at0 (-1), at0 (-1), at0 (-1), at0 (-1), at0 (-1)] ++ quietPoints := by
  simp [usable, halfActive, quietPoints, Point.usable, plain, reducedMagnitude, at0]

theorem residual_at0 (g12 reduced : ℝ) : residual (fun _ _ => 0) g12 (at0 reduced) = reduced := by simp [residual, at0]

theorem scan_halfActive : scan (fun _ _ => 0) [DEFAULT_G12] (usable halfActive) (usable halfActive).length =
    some { h := 0, g12 := DEFAULT_G12, scatter := 1.4826 * 1, n := 11 } := by
  have level : median [-1, -1, -1, -1, -1, 0, 0, 0, 100, 100, (100 : ℝ)] = some 0 := by
    have ordered : inOrder [-1, -1, -1, -1, -1, 0, 0, 0, 100, 100, (100 : ℝ)] = _ := inOrder_eq (.refl _) (by norm_num)
    simp [median, ordered]
  have spread : median [1, 1, 1, 1, 1, 0, 0, 0, 100, 100, (100 : ℝ)] = some 1 := by
    have perm : [0, 0, 0, 1, 1, 1, 1, 1, 100, 100, (100 : ℝ)].Perm [1, 1, 1, 1, 1, 0, 0, 0, 100, 100, 100] :=
      (@List.perm_append_comm _ [0, 0, 0] [1, 1, 1, 1, (1 : ℝ)]).append_right [100, 100, 100]
    have ordered := inOrder_eq perm (by norm_num)
    simp [median, ordered]
  rw [usable_halfActive]
  simp [scan, tryCandidate, curveAt, quietPoints, residual_at0, level, robustScatter, spread, better]

theorem scan_survivors : scan (fun _ _ => 0) [DEFAULT_G12]
    [at0 (-1), at0 (-1), at0 (-1), at0 (-1), at0 (-1), at0 0, at0 0, at0 0] 11 =
      some { h := -1, g12 := DEFAULT_G12, scatter := 1.4826 * 0, n := 11 } := by
  have level : median [-1, -1, -1, -1, -1, 0, 0, (0 : ℝ)] = some (-1) := by
    have ordered : inOrder [-1, -1, -1, -1, -1, 0, 0, (0 : ℝ)] = _ := inOrder_eq (.refl _) (by norm_num)
    simp [median, ordered]
    norm_num
  have spread : median [0, 0, 0, 0, 0, 1, 1, (1 : ℝ)] = some 0 := by
    have ordered : inOrder [0, 0, 0, 0, 0, 1, 1, (1 : ℝ)] = _ := inOrder_eq (.refl _) (by norm_num)
    simp [median, ordered]
  simp [scan, tryCandidate, curveAt, residual_at0, level, robustScatter, spread, better]

theorem passes_halfActive : passes (fun _ _ => 0) (usable halfActive) =
    some { h := -1, g12 := DEFAULT_G12, scatter := 1.4826 * 0, n := 11 } := by
  have slopes : candidates (usable halfActive) = [DEFAULT_G12] := by
    rw [candidates, if_neg]
    rintro ⟨-, enough⟩
    simp [usable_halfActive, quietPoints, MIN_POINTS_FOR_SLOPE] at enough
  have left : surviving (fun _ _ => 0) { h := 0, g12 := DEFAULT_G12, scatter := 1.4826 * 1, n := 11 } (usable halfActive) =
      some [at0 (-1), at0 (-1), at0 (-1), at0 (-1), at0 (-1), at0 0, at0 0, at0 0] := by
    rw [usable_halfActive]
    have near : (1 : ℝ) ≤ 3 * 1.4826 := by norm_num
    have nearest : (0 : ℝ) ≤ 3 * 1.4826 := by norm_num
    have far : ¬ (100 : ℝ) ≤ 3 * 1.4826 := by norm_num
    simp [surviving, quietPoints, survives, residual_at0, CLIP_SIGMA, near, nearest, far, MIN_POINTS]
  unfold passes
  rw [slopes, scan_halfActive, Option.bind_eq_bind, Option.bind_some, left]
  have length : (usable halfActive).length = 11 := by simp [usable_halfActive, quietPoints]
  dsimp only
  rw [length, scan_survivors]

/-- A minority of active points is the level of the second pass, below all of the majority. -/
theorem active_moves_level : ∃ curve, fit (fun _ _ => 0) halfActive = some curve ∧
    MIN_POINTS ≤ (usable halfActive).length ∧ quietPoints.Sublist (usable halfActive) ∧
    (usable halfActive).length < 2 * quietPoints.length ∧ ¬ Between (fun _ _ => 0) quietPoints curve := by
  have length : (usable halfActive).length = 11 := by simp [usable_halfActive, quietPoints]
  refine ⟨{ h := -1, g12 := DEFAULT_G12, scatter := max (1.4826 * 0) MIN_SCATTER, n := 11 }, ?_,
    by simp [length, MIN_POINTS], ?_, by simp [length, quietPoints], ?_⟩
  · rw [fit, if_neg (by simp [length, MIN_POINTS]), passes_halfActive]
    rfl
  · rw [usable_halfActive]
    exact List.sublist_append_right _ _
  · rintro ⟨low, isLow, -, -, below, -⟩
    simp only [quietPoints, List.mem_cons, List.not_mem_nil, or_false] at isLow
    rcases isLow with rfl | rfl | rfl | rfl | rfl | rfl <;> rw [residual_at0] at below <;> norm_num at below

/-- All of the points hold the level, as any of more than three quarters do. -/
theorem all_hold_level : ∃ curve, fit (fun _ _ => 0) halfActive = some curve ∧ Between (fun _ _ => 0) (usable halfActive) curve := by
  have length : (usable halfActive).length = 11 := by simp [usable_halfActive, quietPoints]
  obtain ⟨curve, isCurve, -, most⟩ := majority_holds_level (fun _ _ => 0) halfActive (by rw [length]; decide)
  exact ⟨curve, isCurve, most _ (.refl _) (by rw [length]; decide)⟩

end

end Boom.Utils.PhaseCurves
