import Boom.Foundations.Numerals
import Boom.Foundations.Ranking
import Mathlib.Analysis.SpecialFunctions.Trigonometric.Basic
import Mathlib.Data.Rat.Cast.OfScientific
import Mathlib.Tactic.Positivity

/-! # The coverage map of a credible volume

A 3D sky map gives each pixel a probability and a distance posterior.  Its voxels, ranked by
probability density, say at which credible level a position and a distance enter the volume;
its coverage map is what a query is narrowed to before.

Numbers are those of an ordered field with an exponential, so rounding is left out. -/

namespace Boom.Utils

open Boom.Foundations

class RealFunctions (F : Type) [Field F] [LinearOrder F] where
  exp : F → F
  exp_pos : ∀ x, 0 < exp x
  exp_mono : ∀ x y, x ≤ y → exp x ≤ exp y
  pi : F
  pi_pos : 0 < pi

noncomputable instance : RealFunctions ℝ where
  exp := Real.exp
  exp_pos := Real.exp_pos
  exp_mono _ _ := Real.exp_le_exp.mpr
  pi := Real.pi
  pi_pos := Real.pi_pos

variable {F : Type}

def sqrtTwoPi [Field F] : F :=
  2.5066282746310002

/-! ## Pixels -/

def uniqToOrder (uniq : Nat) : Nat :=
  uniq.log2 / 2 - 1

def uniqToIpix (uniq : Nat) : Nat :=
  uniq - 1 <<< (2 * uniqToOrder uniq + 2)

/-- A row of the table.  `none` is a distance column that is not finite. -/
structure Pixel (F : Type) where
  uniq : Nat
  prob : F
  distmu : Option F
  distsigma : Option F
  distnorm : Option F

namespace Pixel

def cell (row : Pixel F) : Nat × Nat :=
  (uniqToOrder row.uniq, uniqToIpix row.uniq)

section Densities

variable [Field F] [LinearOrder F] [RealFunctions F]

def areaSr (row : Pixel F) : F :=
  4 * RealFunctions.pi / (12 * ((1 <<< (2 * uniqToOrder row.uniq) : Nat) : F))

def distParams (row : Pixel F) : Option (F × F × F) :=
  match row.distmu, row.distsigma, row.distnorm with
  | some mu, some sigma, some norm => if 0 < sigma ∧ 0 < norm then some (mu, sigma, norm) else none
  | _, _, _ => none

def density (row : Pixel F) (sigma norm zSq : F) : F :=
  row.prob / row.areaSr * norm * (RealFunctions.exp (-0.5 * zSq) / (sigma * sqrtTwoPi))

def dpdv (row : Pixel F) (distance : F) : Option F :=
  row.distParams.map fun (mu, sigma, norm) => row.density sigma norm (((distance - mu) / sigma) ^ 2)

def peakDpdv (row : Pixel F) : Option F :=
  row.distmu.bind row.dpdv

def voxels (row : Pixel F) (distBins : Nat) (dr : F) : List (F × F) :=
  match row.distParams with
  | none => []
  | some (mu, sigma, norm) =>
    (List.range distBins).filterMap fun (bin : Nat) =>
      let r := ((bin : F) + 0.5) * dr
      let zSq := ((r - mu) / sigma) ^ 2
      if 25 < zSq then none
      else
        let dpdv := row.density sigma norm zSq
        if 0 < dpdv then some (dpdv, dpdv * row.areaSr * r * r * dr) else none

end Densities

end Pixel

structure Skymap (F : Type) where
  rows : List (Pixel F)
  flat : Bool

namespace Skymap

def maxOrder (map : Skymap F) : Nat :=
  (map.rows.map fun row => uniqToOrder row.uniq).foldl max 0

def uniqToRow (map : Skymap F) (uniq : Nat) : Option (Pixel F) :=
  map.rows.reverse.find? (·.uniq == uniq)

def lookup (map : Skymap F) : Nat → Nat → Option (Pixel F)
  | 0, ipix => map.uniqToRow (1 <<< 2 + ipix)
  | order + 1, ipix => (map.uniqToRow (1 <<< (2 * (order + 1) + 2) + ipix)).orElse fun _ => map.lookup order (ipix >>> 2)

variable {Position : Type}

def ang2pix (hash : Nat → Position → Nat) (map : Skymap F) (position : Position) : Option (Pixel F) :=
  let ipix := hash map.maxOrder position
  if map.flat then map.rows[ipix]? else map.lookup map.maxOrder ipix

end Skymap

/-! ## The ranking of the voxels -/

structure CredibleVolumeIndex (F : Type) where
  sortedDpdv : List F
  cumProb : List F

section Index

variable [Field F] [LinearOrder F] [RealFunctions F]

namespace Skymap

def dMax (map : Skymap F) : F :=
  (map.rows.filterMap fun row =>
    match row.distmu, row.distsigma with
    | some mu, some sigma => if 0 < sigma then some (mu + 5 * sigma) else none
    | _, _ => none).foldl max 0

def voxels (map : Skymap F) (distBins : Nat) : List (F × F) :=
  let probThreshold := (map.rows.map (·.prob)).sum * 1e-7
  (map.rows.filter fun row => ¬ row.prob < probThreshold).flatMap fun row =>
    row.voxels distBins (map.dMax / distBins)

end Skymap

namespace CredibleVolumeIndex

def build (sorts : DescendingSort F) (map : Skymap F) (distBins : Nat) : CredibleVolumeIndex F :=
  if map.dMax ≤ 0 then ⟨[], []⟩
  else
    let voxels := sorts.sort Prod.fst (map.voxels distBins)
    let totalDp := (voxels.map Prod.snd).sum
    let normFactor := if 0 < totalDp then 1 / totalDp else 1
    { sortedDpdv := voxels.map Prod.fst
      cumProb := runningSums 0 (voxels.map fun voxel => voxel.2 * normFactor) }

def densityThreshold (index : CredibleVolumeIndex F) (credibleLevel : F) : F :=
  cutoff index.sortedDpdv (partitionPoint (· < credibleLevel) index.cumProb)

def searchedProbVol (index : CredibleVolumeIndex F) (dpdv : F) : F :=
  let k := partitionPoint (dpdv < ·) index.sortedDpdv
  if k = 0 then 0
  else if index.cumProb.length ≤ k then 1
  else cutoff index.cumProb (k - 1)

def searchedProbVolAt {Position : Type} (hash : Nat → Position → Nat) (index : CredibleVolumeIndex F)
    (map : Skymap F) (position : Position) (distance : F) : Option F := do
  let row ← map.ang2pix hash position
  let dpdv ← row.dpdv distance
  some (index.searchedProbVol dpdv)

end CredibleVolumeIndex

/-! ## The coverage map -/

structure HpxMoc where
  depth : Nat
  cells : List (Nat × Nat)

def HpxMoc.covers (moc : HpxMoc) (ipix : Nat) : Bool :=
  moc.cells.any fun cell => ipix >>> (2 * (moc.depth - cell.1)) == cell.2

def probFloor2d (sorts : DescendingSort F) (map : Skymap F) (credibleLevel : F) : F :=
  let sortedProb := sorts.sort id (map.rows.map (·.prob))
  cutoff sortedProb (partitionPoint (· ≤ credibleLevel) (runningSums 0 sortedProb))

def credibleVolumeTo2dMoc (sorts : DescendingSort F) (map : Skymap F) (index : CredibleVolumeIndex F)
    (credibleLevel : F) : HpxMoc where
  depth := map.maxOrder
  cells := (map.rows.filter fun row =>
    !(row.prob < probFloor2d sorts map credibleLevel) &&
      row.peakDpdv.any (index.densityThreshold credibleLevel ≤ ·)).map Pixel.cell

end Index

/-! ## What the index holds -/

section Ranked

variable [Field F] [LinearOrder F] [IsStrictOrderedRing F] [RealFunctions F]

theorem Pixel.areaSr_pos (row : Pixel F) : 0 < row.areaSr := by
  have pi : 0 < (RealFunctions.pi : F) := RealFunctions.pi_pos
  have pixels : 0 < ((1 <<< (2 * uniqToOrder row.uniq) : Nat) : F) := by
    rw [Nat.one_shiftLeft]
    exact_mod_cast Nat.two_pow_pos _
  unfold areaSr
  positivity

omit [RealFunctions F] in
theorem sqrtTwoPi_pos : 0 < (sqrtTwoPi : F) := by
  norm_num [sqrtTwoPi]

theorem Skymap.mem_voxels {map : Skymap F} {distBins : Nat} {voxel : F × F} (there : voxel ∈ map.voxels distBins) :
    ∃ area r, 0 < voxel.1 ∧ 0 < area ∧ (0 < map.dMax → 0 < r) ∧ 0 < distBins ∧
      voxel.2 = voxel.1 * area * r * r * (map.dMax / distBins) := by
  obtain ⟨row, _, inRow⟩ := List.mem_flatMap.mp there
  unfold Pixel.voxels at inRow
  split at inRow
  · cases inRow
  next mu sigma norm _ =>
    obtain ⟨bin, inRange, made⟩ := List.mem_filterMap.mp inRow
    have bins : 0 < distBins := (Nat.zero_le bin).trans_lt (List.mem_range.mp inRange)
    have middle : 0 < (bin : F) + 0.5 := add_pos_of_nonneg_of_pos (Nat.cast_nonneg bin) (by norm_num)
    simp only [Option.ite_none_left_eq_some, Option.ite_none_right_eq_some, Option.some.injEq] at made
    obtain ⟨_, dense, rfl⟩ := made
    exact ⟨row.areaSr, _, dense, row.areaSr_pos,
      fun extent => mul_pos middle (div_pos extent (Nat.cast_pos.mpr bins)), bins, rfl⟩

theorem Skymap.voxels_pos {map : Skymap F} {distBins : Nat} (extent : 0 < map.dMax) :
    ∀ voxel ∈ map.voxels distBins, 0 < voxel.1 ∧ 0 < voxel.2 := by
  intro voxel there
  obtain ⟨area, r, dense, wide, far, bins, holds⟩ := mem_voxels there
  have dr : 0 < map.dMax / distBins := div_pos extent (Nat.cast_pos.mpr bins)
  exact ⟨dense, holds ▸ mul_pos (mul_pos (mul_pos (mul_pos dense wide) (far extent)) (far extent)) dr⟩

namespace CredibleVolumeIndex

structure Ranked (index : CredibleVolumeIndex F) : Prop where
  descending : Descending index.sortedDpdv
  sameLength : index.cumProb.length = index.sortedDpdv.length
  rising : index.cumProb.Pairwise (· ≤ ·)
  full : 0 < index.cumProb.length → cutoff index.cumProb (index.cumProb.length - 1) = 1

theorem ranked_build (sorts : DescendingSort F) (map : Skymap F) (distBins : Nat) :
    (build sorts map distBins).Ranked := by
  unfold build
  split
  · exact ⟨.nil, rfl, .nil, fun some => absurd some (by simp)⟩
  next extent =>
    let voxels := sorts.sort Prod.fst (map.voxels distBins)
    have positive : ∀ voxel ∈ voxels, 0 < voxel.2 := fun voxel there =>
      (Skymap.voxels_pos (not_le.mp extent) voxel ((sorts.perm _ _).mem_iff.mp there)).2
    have total : voxels ≠ [] → 0 < (voxels.map Prod.snd).sum := by
      intro some
      apply List.sum_pos
      · intro dp there
        obtain ⟨voxel, isVoxel, rfl⟩ := List.mem_map.mp there
        exact positive voxel isVoxel
      · simpa using some
    have factor : 0 ≤ if 0 < (voxels.map Prod.snd).sum then 1 / (voxels.map Prod.snd).sum else 1 := by
      split
      next above => exact (div_pos one_pos above).le
      next => exact zero_le_one
    constructor
    · exact List.pairwise_map.mpr (sorts.sorted Prod.fst _)
    · simp
    · apply runningSums_rising
      intro dp there
      obtain ⟨voxel, isVoxel, rfl⟩ := List.mem_map.mp there
      exact mul_nonneg (positive voxel isVoxel).le factor
    · intro some
      have nonempty : voxels ≠ [] := by
        rintro none
        simp only [voxels] at none
        simp [none, runningSums] at some
      have above := total nonempty
      rw [cutoff, List.getElem?_eq_getElem (by omega), Option.getD_some, getElem_runningSums, zero_add,
        List.take_of_length_le (by simp only [length_runningSums, List.length_map]; omega), List.sum_map_mul_right,
        if_pos above, mul_one_div, div_self above.ne']

omit [IsStrictOrderedRing F] [RealFunctions F] in
theorem Ranked.densityThreshold_le_iff {index : CredibleVolumeIndex F} (ranked : index.Ranked) {level dpdv : F}
    (above : 0 < level) (nonneg : 0 ≤ dpdv) :
    index.densityThreshold level ≤ dpdv ↔ index.searchedProbVol dpdv < level := by
  have split : SplitBy (· < level) index.cumProb :=
    ranked.rising.imp fun ordered below => decide_eq_true (ordered.trans_lt (of_decide_eq_true below))
  have bounded : partitionPoint (dpdv < ·) index.sortedDpdv ≤ index.cumProb.length :=
    ranked.sameLength ▸ partitionPoint_le_length
  rw [densityThreshold, cutoff_le_iff ranked.descending nonneg]
  simp only [searchedProbVol]
  generalize partitionPoint (dpdv < ·) index.sortedDpdv = denser at bounded
  by_cases first : denser = 0
  · simp [first, above]
  rw [if_neg first]
  have inside : denser - 1 < index.cumProb.length := by omega
  have atIndex : index.cumProb[denser - 1] = cutoff index.cumProb (denser - 1) := by
    rw [cutoff, List.getElem?_eq_getElem inside, Option.getD_some]
  rw [le_partitionPoint_iff split (by omega) inside, decide_eq_true_eq, atIndex]
  split
  next all =>
    obtain rfl : denser = index.cumProb.length := by omega
    rw [ranked.full (by omega)]
  next => rfl

end CredibleVolumeIndex

end Ranked

/-! ## What the coverage map covers -/

section Coverage

variable [Field F] [LinearOrder F] [IsStrictOrderedRing F] [RealFunctions F]

def Skymap.probAbove (map : Skymap F) (prob : F) : F :=
  ((map.rows.map (·.prob)).filter (prob < ·)).sum

def Pixel.over (row : Pixel F) (depth ipix : Nat) : Bool :=
  ipix >>> (2 * (depth - row.cell.1)) == row.cell.2

omit [RealFunctions F] in
theorem probFloor2d_le_iff (sorts : DescendingSort F) {map : Skymap F} (nonneg : ∀ row ∈ map.rows, 0 ≤ row.prob)
    {level : F} (least : 0 ≤ level) {row : Pixel F} (there : row ∈ map.rows) :
    probFloor2d sorts map level ≤ row.prob ↔ map.probAbove row.prob ≤ level := by
  have perm := sorts.perm id (map.rows.map (·.prob))
  have isProb : row.prob ∈ sorts.sort id (map.rows.map (·.prob)) := perm.mem_iff.mpr (List.mem_map_of_mem there)
  have descending : Descending (sorts.sort id (map.rows.map (·.prob))) := sorts.sorted id _
  have each : ∀ prob ∈ sorts.sort id (map.rows.map (·.prob)), 0 ≤ prob := by
    intro prob isProb
    obtain ⟨other, isRow, rfl⟩ := List.mem_map.mp (perm.mem_iff.mp isProb)
    exact nonneg other isRow
  rw [probFloor2d, cutoff_runningSums_le_iff descending each least isProb, Skymap.probAbove, (perm.filter _).sum_eq]

omit [IsStrictOrderedRing F] [RealFunctions F] in
theorem Pixel.distParams_eq_some {row : Pixel F} {mu sigma norm : F} (params : row.distParams = some (mu, sigma, norm)) :
    row.distmu = some mu ∧ 0 < sigma ∧ 0 < norm := by
  unfold distParams at params
  split at params
  next isMu _ _ =>
    simp only [Option.ite_none_right_eq_some, Option.some.injEq, Prod.mk.injEq] at params
    obtain ⟨⟨sigmaPos, normPos⟩, rfl, rfl, rfl⟩ := params
    exact ⟨isMu, sigmaPos, normPos⟩
  next => cases params

theorem Pixel.peakDpdv_nonneg {row : Pixel F} (nonneg : 0 ≤ row.prob) {peak : F} (isPeak : row.peakDpdv = some peak) :
    0 ≤ peak := by
  obtain ⟨mu, _, at_⟩ := Option.bind_eq_some_iff.mp isPeak
  obtain ⟨⟨center, sigma, norm⟩, params, rfl⟩ := Option.map_eq_some_iff.mp at_
  obtain ⟨-, sigmaPos, normPos⟩ := distParams_eq_some params
  have area := row.areaSr_pos
  have width := mul_pos sigmaPos sqrtTwoPi_pos
  exact mul_nonneg (mul_nonneg (div_nonneg nonneg area.le) normPos.le)
    (div_nonneg (RealFunctions.exp_pos _).le width.le)

theorem covers_iff (sorts : DescendingSort F) {map : Skymap F} (nonneg : ∀ row ∈ map.rows, 0 ≤ row.prob)
    {index : CredibleVolumeIndex F} (ranked : index.Ranked) {level : F} (above : 0 < level) (ipix : Nat) :
    (credibleVolumeTo2dMoc sorts map index level).covers ipix = true ↔
      ∃ row ∈ map.rows, row.over map.maxOrder ipix = true ∧ map.probAbove row.prob ≤ level ∧
        ∃ peak, row.peakDpdv = some peak ∧ index.searchedProbVol peak < level := by
  have kept : ∀ row ∈ map.rows, (!decide (row.prob < probFloor2d sorts map level) &&
      row.peakDpdv.any (index.densityThreshold level ≤ ·)) = true ↔ map.probAbove row.prob ≤ level ∧
        ∃ peak, row.peakDpdv = some peak ∧ index.searchedProbVol peak < level := by
    intro row there
    rw [Bool.and_eq_true, Bool.not_eq_true', decide_eq_false_iff_not, not_lt,
      probFloor2d_le_iff sorts nonneg above.le there, Option.any_eq_true]
    refine and_congr_right fun _ => exists_congr fun peak => ?_
    constructor
    · rintro ⟨isPeak, reaches⟩
      have least := Pixel.peakDpdv_nonneg (nonneg row there) isPeak
      exact ⟨isPeak, (ranked.densityThreshold_le_iff above least).mp (of_decide_eq_true reaches)⟩
    · rintro ⟨isPeak, early⟩
      have least := Pixel.peakDpdv_nonneg (nonneg row there) isPeak
      exact ⟨isPeak, decide_eq_true ((ranked.densityThreshold_le_iff above least).mpr early)⟩
  simp only [credibleVolumeTo2dMoc, HpxMoc.covers, List.any_map, List.any_filter, List.any_eq_true, Bool.and_eq_true]
  refine exists_congr fun row => and_congr_right fun there => ?_
  rw [← kept row there, Bool.and_eq_true, and_comm]
  rfl

/-! ### The densest pixel -/

theorem Pixel.density_le_peak {row : Pixel F} (nonneg : 0 ≤ row.prob) {mu sigma norm : F}
    (params : row.distParams = some (mu, sigma, norm)) (distance : F) :
    ∃ peak, row.peakDpdv = some peak ∧ row.density sigma norm (((distance - mu) / sigma) ^ 2) ≤ peak := by
  obtain ⟨isMu, sigmaPos, normPos⟩ := distParams_eq_some params
  have atPeak : row.peakDpdv = some (row.density sigma norm (((mu - mu) / sigma) ^ 2)) := by
    simp [peakDpdv, isMu, dpdv, params]
  refine ⟨_, atPeak, ?_⟩
  have area := row.areaSr_pos
  have width := mul_pos sigmaPos sqrtTwoPi_pos
  have nearer : (-0.5 : F) * ((distance - mu) / sigma) ^ 2 ≤ -0.5 * ((mu - mu) / sigma) ^ 2 := by
    rw [sub_self, zero_div, zero_pow two_ne_zero, mul_zero]
    exact mul_nonpos_of_nonpos_of_nonneg (by norm_num) (sq_nonneg _)
  exact mul_le_mul_of_nonneg_left (div_le_div_of_nonneg_right (RealFunctions.exp_mono _ _ nearer) width.le)
    (mul_nonneg (div_nonneg nonneg area.le) normPos.le)

theorem Pixel.dpdv_le_peak {row : Pixel F} (nonneg : 0 ≤ row.prob) {distance dpdv : F}
    (isDpdv : row.dpdv distance = some dpdv) : ∃ peak, row.peakDpdv = some peak ∧ dpdv ≤ peak := by
  obtain ⟨⟨mu, sigma, norm⟩, params, rfl⟩ := Option.map_eq_some_iff.mp isDpdv
  exact density_le_peak nonneg params distance

theorem Pixel.voxels_le_peak {row : Pixel F} (nonneg : 0 ≤ row.prob) {distBins : Nat} {dr : F} {voxel : F × F}
    (there : voxel ∈ row.voxels distBins dr) : ∃ peak, row.peakDpdv = some peak ∧ voxel.1 ≤ peak := by
  unfold Pixel.voxels at there
  split at there
  · cases there
  next mu sigma norm params =>
    obtain ⟨bin, _, made⟩ := List.mem_filterMap.mp there
    simp only [Option.ite_none_left_eq_some, Option.ite_none_right_eq_some, Option.some.injEq] at made
    obtain ⟨_, _, rfl⟩ := made
    exact density_le_peak nonneg params _

end Coverage

end Boom.Utils
