import Boom.Utils.VolumeLevels

/-! # What the coverage map of a credible volume hides

A query is narrowed to the coverage map before positions are tested at their distances, so a
position that qualifies should be covered.  The map is cut at the density of the level, and
once more at a probability: a pixel stays if the more probable pixels hold no more than the
level. -/

namespace Boom.Utils

open Boom.Foundations

variable {F : Type}

theorem Skymap.mem_of_lookup {map : Skymap F} {row : Pixel F} :
    ∀ {order ipix : Nat}, map.lookup order ipix = some row → row ∈ map.rows
  | 0, _, found => List.mem_reverse.mp (List.mem_of_find?_eq_some found)
  | order + 1, ipix, found => by
    rw [lookup] at found
    cases here : map.uniqToRow (1 <<< (2 * (order + 1) + 2) + ipix) with
    | some _ =>
      rw [here] at found
      obtain rfl := Option.some.inj found
      exact List.mem_reverse.mp (List.mem_of_find?_eq_some here)
    | none =>
      rw [here] at found
      exact mem_of_lookup found

theorem Skymap.mem_of_ang2pix {Position : Type} {hash : Nat → Position → Nat} {map : Skymap F} {position : Position}
    {row : Pixel F} (found : map.ang2pix hash position = some row) : row ∈ map.rows := by
  rw [ang2pix] at found
  split at found
  · exact List.mem_of_getElem? found
  · exact mem_of_lookup found

variable [Field F] [LinearOrder F] [IsStrictOrderedRing F] [RealFunctions F]

/-- The more probable pixels hold no more than the level, and what is denser than the densest
    point of this one less than it. -/
def Skymap.Within (map : Skymap F) (distBins : Nat) (level : F) (row : Pixel F) : Prop :=
  map.probAbove row.prob ≤ level ∧ ∃ peak, row.peakDpdv = some peak ∧ map.held distBins (peak < ·) < level

theorem covers_build_iff (sorts : DescendingSort F) {map : Skymap F} (nonneg : ∀ row ∈ map.rows, 0 ≤ row.prob)
    (distBins : Nat) {level : F} (above : 0 < level) (ipix : Nat) :
    (credibleVolumeTo2dMoc sorts map (CredibleVolumeIndex.build sorts map distBins) level).covers ipix = true ↔
      ∃ row ∈ map.rows, row.over map.maxOrder ipix = true ∧ map.Within distBins level row := by
  rw [covers_iff sorts nonneg (CredibleVolumeIndex.ranked_build sorts map distBins) above]
  simp only [CredibleVolumeIndex.searchedProbVol_build, Skymap.Within]

/-- The coverage map hides no distance that qualifies at a position, if and only if what is
    denser than the densest point of the position's pixel holds more than the level, so that
    none qualifies, or a pixel over the position is within the level. -/
theorem volume_covered_iff {Position : Type} (hash : Nat → Position → Nat) (sorts : DescendingSort F) (map : Skymap F)
    (nonneg : ∀ row ∈ map.rows, 0 ≤ row.prob) (distBins : Nat) (level : F) (above : 0 < level) (position : Position) :
    (∀ distance value, (CredibleVolumeIndex.build sorts map distBins).searchedProbVolAt hash map position distance =
        some value → value ≤ level →
      (credibleVolumeTo2dMoc sorts map (CredibleVolumeIndex.build sorts map distBins) level).covers
        (hash map.maxOrder position) = true) ↔
      ∀ row peak, map.ang2pix hash position = some row → row.peakDpdv = some peak →
        level < map.held distBins (peak < ·) ∨
          ∃ outer ∈ map.rows, outer.over map.maxOrder (hash map.maxOrder position) = true ∧ map.Within distBins level outer := by
  rw [covers_build_iff sorts nonneg distBins above]
  constructor
  · intro covered row peak found isPeak
    refine (lt_or_ge level _).imp_right fun early => ?_
    -- The distance at which the posterior of the pixel is centred.
    obtain ⟨mu, isMu, atMu⟩ := Option.bind_eq_some_iff.mp isPeak
    refine covered mu _ ?_ early
    simp [CredibleVolumeIndex.searchedProbVolAt, found, atMu, CredibleVolumeIndex.searchedProbVol_build]
  · intro inside distance value qualifies early
    obtain ⟨row, found, at_⟩ := Option.bind_eq_some_iff.mp qualifies
    obtain ⟨dpdv, isDpdv, isValue⟩ := Option.bind_eq_some_iff.mp at_
    obtain rfl := Option.some.inj isValue
    rw [CredibleVolumeIndex.searchedProbVol_build] at early
    obtain ⟨peak, isPeak, denser⟩ := Pixel.dpdv_le_peak (nonneg row (Skymap.mem_of_ang2pix found)) isDpdv
    -- At its centre the pixel is densest, so there it enters the volume first.
    have fewer : map.held distBins (peak < ·) ≤ map.held distBins (dpdv < ·) :=
      map.held_mono distBins fun density above => decide_eq_true (denser.trans_lt (of_decide_eq_true above))
    exact (inside row peak found isPeak).resolve_left (not_lt.mpr (fewer.trans early))

/-! ## A narrow posterior in an improbable pixel -/

noncomputable def narrow : Pixel ℝ := ⟨5, 0.1, some 100, some 1, some 1⟩

noncomputable def twoPixels : Skymap ℝ := ⟨[wide, narrow], false⟩

noncomputable def inNarrow : ℝ × ℝ := (135, 41.8)

def secondPixel (_order : Nat) (_position : ℝ × ℝ) : Nat := 1

theorem twoPixels_nonneg : ∀ row ∈ twoPixels.rows, 0 ≤ row.prob := by
  simp only [twoPixels, List.forall_mem_cons, List.not_mem_nil, false_imp_iff, implies_true, and_true]
  exact ⟨by norm_num [wide], by norm_num [narrow]⟩

theorem peak_order0 {row : Pixel ℝ} {sigma : ℝ} (mu : row.distmu = some 100) (width : row.distsigma = some sigma)
    (norm : row.distnorm = some 1) (positive : 0 < sigma) (order : uniqToOrder row.uniq = 0) :
    row.dpdv 100 = some (row.prob / sigma * (3 * RealFunctions.exp 0 / (RealFunctions.pi * sqrtTwoPi))) := by
  have params : row.distParams = some (100, sigma, 1) := by simp [Pixel.distParams, mu, width, norm, positive]
  have pi : (RealFunctions.pi : ℝ) ≠ 0 := RealFunctions.pi_pos.ne'
  have root : (sqrtTwoPi : ℝ) ≠ 0 := sqrtTwoPi_pos.ne'
  have exponent : (-0.5 : ℝ) * ((100 - 100) / sigma) ^ 2 = 0 := by norm_num
  simp only [Pixel.dpdv, params, Option.map_some, Pixel.density, Pixel.areaSr, order, exponent, Option.some.injEq]
  have width := positive.ne'
  norm_num
  field_simp
  ring

theorem narrow_densest : ∃ peak, narrow.dpdv 100 = some peak ∧ twoPixels.held 200 (peak < ·) = 0 := by
  refine ⟨_, peak_order0 rfl rfl rfl one_pos (by decide), Skymap.held_densest twoPixels_nonneg 200 ?_⟩
  have scale : 0 < 3 * RealFunctions.exp 0 / (RealFunctions.pi * (sqrtTwoPi : ℝ)) := by
    have pi : 0 < (RealFunctions.pi : ℝ) := RealFunctions.pi_pos
    have root : 0 < (sqrtTwoPi : ℝ) := sqrtTwoPi_pos
    have exp := RealFunctions.exp_pos (0 : ℝ)
    positivity
  simp only [twoPixels, List.forall_mem_cons, List.not_mem_nil, false_imp_iff, implies_true, and_true]
  constructor
  · intro peak isPeak
    have atMean := @peak_order0 wide _ rfl rfl rfl (by norm_num) (by decide)
    obtain rfl := Option.some.inj (isPeak.symm.trans atMean)
    exact mul_le_mul_of_nonneg_right (by norm_num [wide, narrow]) scale.le
  · intro peak isPeak
    have atMean := @peak_order0 narrow _ rfl rfl rfl one_pos (by decide)
    exact (Option.some.inj (isPeak.symm.trans atMean)).le

theorem twoPixels_maxOrder : twoPixels.maxOrder = 0 :=
  show max (max 0 (uniqToOrder 4)) (uniqToOrder 5) = 0 by decide

theorem narrow_found : twoPixels.ang2pix secondPixel inNarrow = some narrow := by
  show (if twoPixels.flat then twoPixels.rows[1]? else twoPixels.lookup twoPixels.maxOrder 1) = some narrow
  rw [twoPixels_maxOrder]
  rfl

theorem narrow_first :
    (CredibleVolumeIndex.build .merge twoPixels 200).searchedProbVolAt secondPixel twoPixels inNarrow 100 = some 0 := by
  obtain ⟨peak, isPeak, first⟩ := narrow_densest
  simp [CredibleVolumeIndex.searchedProbVolAt, narrow_found, isPeak, CredibleVolumeIndex.searchedProbVol_build, first]

theorem twoPixels_over {row : Pixel ℝ} (there : row ∈ twoPixels.rows)
    (isOver : row.over twoPixels.maxOrder (secondPixel twoPixels.maxOrder inNarrow) = true) : row = narrow := by
  rw [twoPixels_maxOrder] at isOver
  rcases List.mem_cons.mp there with rfl | last
  · exact absurd isOver (show ¬ (1 >>> (2 * (0 - uniqToOrder 4)) == uniqToIpix 4) = true by decide)
  · exact List.mem_singleton.mp last

theorem narrow_probAbove : twoPixels.probAbove narrow.prob = 0.9 := by
  have above : narrow.prob < wide.prob := by norm_num [wide, narrow]
  have only : (twoPixels.rows.map (·.prob)).filter (narrow.prob < ·) = [wide.prob] := by
    simp [twoPixels, above]
  rw [Skymap.probAbove, only, List.sum_singleton]
  rfl

/-- At level 0.95 both pixels are within the level. -/
theorem volume_covered_iff_narrow :
    (CredibleVolumeIndex.build .merge twoPixels 200).searchedProbVolAt secondPixel twoPixels inNarrow 100 = some 0 ∧
      (credibleVolumeTo2dMoc .merge twoPixels (CredibleVolumeIndex.build .merge twoPixels 200) 0.95).covers
        (secondPixel twoPixels.maxOrder inNarrow) = true := by
  refine ⟨narrow_first, (volume_covered_iff secondPixel .merge twoPixels twoPixels_nonneg 200 0.95 (by norm_num)
    inNarrow).mpr (fun row peak _ _ => .inr ⟨narrow, by simp [twoPixels], ?_, ?_, ?_⟩) 100 0 narrow_first (by norm_num)⟩
  · rw [twoPixels_maxOrder]
    exact show (1 >>> (2 * (0 - uniqToOrder 5)) == uniqToIpix 5) = true by decide
  · rw [narrow_probAbove]
    norm_num
  · obtain ⟨peak, isPeak, first⟩ := narrow_densest
    exact ⟨peak, isPeak, first.trans_lt (by norm_num)⟩

/-- At level 0.5 the position in the narrow pixel enters the volume first, and the coverage
    map leaves it out, since the wide pixel alone holds more. -/
theorem narrow_hidden :
    (CredibleVolumeIndex.build .merge twoPixels 200).searchedProbVolAt secondPixel twoPixels inNarrow 100 = some 0 ∧
      (credibleVolumeTo2dMoc .merge twoPixels (CredibleVolumeIndex.build .merge twoPixels 200) 0.5).covers
        (secondPixel twoPixels.maxOrder inNarrow) = false := by
  refine ⟨narrow_first, Bool.eq_false_iff.mpr fun covered => ?_⟩
  obtain ⟨row, there, isOver, within, -⟩ := (covers_build_iff .merge twoPixels_nonneg 200 (by norm_num) _).mp covered
  rw [twoPixels_over there isOver, narrow_probAbove] at within
  norm_num at within

end Boom.Utils
