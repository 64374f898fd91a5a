import Boom.Utils.Moc

/-! # Levels and densities of a credible volume

`density_threshold` goes from a level to a density and `searched_prob_vol` from a density to a
level, both over the same ranking.  How much the voxels of the sky map hold, counted before
they are ranked, says what either of them should return. -/

namespace Boom.Utils

open Boom.Foundations

variable {F : Type} [Field F] [LinearOrder F] [IsStrictOrderedRing F] [RealFunctions F]

def Skymap.held (map : Skymap F) (distBins : Nat) (passes : F → Bool) : F :=
  weight passes (map.voxels distBins) / ((map.voxels distBins).map Prod.snd).sum

def Skymap.shares (sorts : DescendingSort F) (map : Skymap F) (distBins : Nat) : List (F × F) :=
  (sorts.sort Prod.fst (map.voxels distBins)).map fun voxel =>
    (voxel.1, voxel.2 / ((map.voxels distBins).map Prod.snd).sum)

omit [IsStrictOrderedRing F] in
theorem Skymap.weight_shares (sorts : DescendingSort F) (map : Skymap F) (distBins : Nat) (passes : F → Bool) :
    weight passes (map.shares sorts distBins) = map.held distBins passes := by
  have ranked := (sorts.perm Prod.fst (map.voxels distBins)).filter fun voxel => passes voxel.1
  simp only [weight, shares, List.filter_map, List.map_map, Function.comp_def, div_eq_mul_inv]
  rw [List.sum_map_mul_right, (ranked.map Prod.snd).sum_eq, held, weight, div_eq_mul_inv]

omit [IsStrictOrderedRing F] [RealFunctions F] in
theorem Skymap.dMax_nonneg (map : Skymap F) : 0 ≤ map.dMax := by
  have least : ∀ (far : List F) (most : F), 0 ≤ most → 0 ≤ far.foldl max most := by
    intro far
    induction far with
    | nil => exact fun _ nonneg => nonneg
    | cons next rest ih => exact fun most nonneg => ih _ (nonneg.trans (le_max_left most next))
  exact least _ _ le_rfl

theorem Skymap.mass_nonneg (map : Skymap F) (distBins : Nat) :
    ∀ voxel ∈ map.voxels distBins, 0 ≤ voxel.2 := by
  intro voxel there
  obtain ⟨area, r, dense, wide, -, -, holds⟩ := mem_voxels there
  have dr : 0 ≤ map.dMax / distBins := div_nonneg map.dMax_nonneg (Nat.cast_nonneg distBins)
  rw [holds, mul_assoc (voxel.1 * area)]
  exact mul_nonneg (mul_nonneg (mul_pos dense wide).le (mul_self_nonneg r)) dr

theorem Skymap.held_mono (map : Skymap F) (distBins : Nat) {passes passes' : F → Bool}
    (sub : ∀ dpdv, passes dpdv = true → passes' dpdv = true) : map.held distBins passes ≤ map.held distBins passes' := by
  have masses := map.mass_nonneg distBins
  have fewer : ((map.voxels distBins).filter fun voxel => passes voxel.1).Sublist
      ((map.voxels distBins).filter fun voxel => passes' voxel.1) :=
    List.monotone_filter_right _ fun voxel => sub voxel.1
  refine div_le_div_of_nonneg_right ?_ (List.sum_nonneg (List.forall_mem_map.mpr masses))
  refine (fewer.map Prod.snd).sum_le_sum (List.forall_mem_map.mpr fun voxel there => ?_)
  exact masses voxel (List.mem_of_mem_filter there)

/-- Nothing is denser than the densest point of all pixels. -/
theorem Skymap.held_densest {map : Skymap F} (nonneg : ∀ row ∈ map.rows, 0 ≤ row.prob) (distBins : Nat) {dpdv : F}
    (densest : ∀ row ∈ map.rows, ∀ peak, row.peakDpdv = some peak → peak ≤ dpdv) : map.held distBins (dpdv < ·) = 0 := by
  have none_ : (map.voxels distBins).filter (fun voxel => dpdv < voxel.1) = [] := by
    refine List.filter_eq_nil_iff.mpr fun voxel there => ?_
    obtain ⟨row, kept, inRow⟩ := List.mem_flatMap.mp there
    have isRow := List.mem_of_mem_filter kept
    obtain ⟨peak, isPeak, below⟩ := Pixel.voxels_le_peak (nonneg row isRow) inRow
    simpa using below.trans (densest row isRow peak isPeak)
  rw [held, weight, none_, List.map_nil, List.sum_nil, zero_div]

namespace CredibleVolumeIndex

variable {sorts : DescendingSort F} {map : Skymap F} {distBins : Nat}

section

variable (entries : (build sorts map distBins).sortedDpdv ≠ [])
include entries

omit [IsStrictOrderedRing F] in
theorem extent_of_build : 0 < map.dMax := by
  by_contra none
  exact entries (by rw [build, if_pos (not_lt.mp none)])

theorem voxelsTotal_pos :
    0 < ((map.voxels distBins).map Prod.snd).sum := by
  have extent := extent_of_build entries
  apply List.sum_pos
  · exact List.forall_mem_map.mpr fun voxel there => (Skymap.voxels_pos extent voxel there).2
  · intro none
    apply entries
    have nil : sorts.sort Prod.fst (map.voxels distBins) = [] :=
      List.length_eq_zero_iff.mp ((sorts.perm _ _).length_eq.trans (by simpa using none))
    simp [build, not_le.mpr extent, nil]

theorem build_eq_shares :
    build sorts map distBins =
      ⟨(map.shares sorts distBins).map Prod.fst, runningSums 0 ((map.shares sorts distBins).map Prod.snd)⟩ := by
  have total := voxelsTotal_pos entries
  have sameTotal := ((sorts.perm Prod.fst (map.voxels distBins)).map Prod.snd).sum_eq
  simp only [build, if_neg (not_le.mpr (extent_of_build entries)), sameTotal, if_pos total, Skymap.shares,
    List.map_map, Function.comp_def, mul_one_div]

theorem sum_shares : ((map.shares sorts distBins).map Prod.snd).sum = 1 := by
  have all := map.weight_shares sorts distBins fun _ => true
  simp only [weight, Skymap.held, List.filter_true] at all
  rw [all, div_self (voxelsTotal_pos entries).ne']

theorem share_nonneg :
    ∀ share ∈ map.shares sorts distBins, 0 < share.1 ∧ 0 ≤ share.2 := by
  intro share there
  obtain ⟨voxel, isVoxel, rfl⟩ := List.mem_map.mp there
  obtain ⟨dense, holds⟩ :=
    Skymap.voxels_pos (extent_of_build entries) voxel ((sorts.perm _ _).mem_iff.mp isVoxel)
  exact ⟨dense, (div_pos holds (voxelsTotal_pos entries)).le⟩

end

/-- A map of no extent has voxels that hold nothing, and one without voxels holds nothing. -/
theorem held_of_unranked (unranked : (build sorts map distBins).sortedDpdv = []) (passes : F → Bool) :
    map.held distBins passes = 0 := by
  have empty : ∀ voxel ∈ map.voxels distBins, voxel.2 = 0 := by
    intro voxel there
    -- Of no extent, or without anything to rank.
    by_cases extent : map.dMax ≤ 0
    · obtain ⟨area, r, -, -, -, -, holds⟩ := Skymap.mem_voxels there
      rw [holds, le_antisymm extent map.dMax_nonneg, zero_div, mul_zero]
    · rw [build, if_neg extent, List.map_eq_nil_iff] at unranked
      have ranked := (sorts.perm Prod.fst (map.voxels distBins)).mem_iff.mpr there
      rw [unranked] at ranked
      cases ranked
  have total : ((map.voxels distBins).map Prod.snd).sum = 0 := List.sum_eq_zero (List.forall_mem_map.mpr empty)
  rw [Skymap.held, total, div_zero]

/-- The level at which a density enters the volume is what the denser voxels hold. -/
theorem searchedProbVol_build (sorts : DescendingSort F) (map : Skymap F) (distBins : Nat) (dpdv : F) :
    (build sorts map distBins).searchedProbVol dpdv = map.held distBins (dpdv < ·) := by
  by_cases unranked : (build sorts map distBins).sortedDpdv = []
  · rw [held_of_unranked unranked, searchedProbVol, unranked]
    rfl
  have isShares := build_eq_shares unranked
  have descending : Descending ((map.shares sorts distBins).map Prod.fst) := by
    simpa [isShares] using (ranked_build sorts map distBins).descending
  have all := sum_shares unranked
  rw [← map.weight_shares sorts, weight_eq_take (descending.splitBy dpdv), isShares]
  simp only [searchedProbVol, length_runningSums]
  -- Before the place of the density stand the denser voxels, and the running sum there is their share.
  have bounded := @partitionPoint_le_length F (dpdv < ·) ((map.shares sorts distBins).map Prod.fst)
  generalize partitionPoint (dpdv < ·) ((map.shares sorts distBins).map Prod.fst) = denser at bounded ⊢
  rw [List.length_map] at bounded
  split
  next none_ => rw [none_, List.take_zero, List.sum_nil]
  next some_ =>
    split
    next every => rw [List.take_of_length_le every, all]
    next fewer =>
      rw [cutoff, List.getElem?_eq_getElem (by simp; omega), Option.getD_some, getElem_runningSums, zero_add,
        Nat.sub_add_cancel (Nat.one_le_iff_ne_zero.mpr some_)]

/-- What lies above the threshold of a level holds less than the level, and what reaches it at
    least the level; a density on either side of it enters the volume on that side of the
    level. -/
theorem densityThreshold_inverts (sorts : DescendingSort F) (map : Skymap F) (distBins : Nat)
    (entries : (build sorts map distBins).sortedDpdv ≠ []) (level : F) (above : 0 < level) (most : level ≤ 1) :
    map.held distBins ((build sorts map distBins).densityThreshold level < ·) < level ∧
      level ≤ map.held distBins ((build sorts map distBins).densityThreshold level ≤ ·) ∧
      ∀ dpdv ∈ (build sorts map distBins).sortedDpdv,
        ((build sorts map distBins).densityThreshold level < dpdv →
          (build sorts map distBins).searchedProbVol dpdv < level) ∧
        (dpdv < (build sorts map distBins).densityThreshold level →
          level ≤ (build sorts map distBins).searchedProbVol dpdv) := by
  have ranked := ranked_build sorts map distBins
  have isShares := build_eq_shares entries
  have shares := share_nonneg entries
  have isThreshold : cutoff ((map.shares sorts distBins).map Prod.fst)
      (partitionPoint (· < level) (runningSums 0 ((map.shares sorts distBins).map Prod.snd))) =
        (build sorts map distBins).densityThreshold level := by
    rw [isShares, densityThreshold]
  have descending : Descending ((map.shares sorts distBins).map Prod.fst) := by
    simpa [isShares] using ranked.descending
  -- Past the end of the ranking the threshold is zero, and no ranked density is below that.
  have nonneg : 0 ≤ (build sorts map distBins).densityThreshold level := by
    rw [← isThreshold, cutoff]
    cases at_ : ((map.shares sorts distBins).map Prod.fst)[partitionPoint (· < level)
        (runningSums 0 ((map.shares sorts distBins).map Prod.snd))]? with
    | none => exact le_rfl
    | some dpdv =>
      obtain ⟨share, there, rfl⟩ := List.mem_map.mp (List.mem_of_getElem? at_)
      exact (shares share there).1.le
  obtain ⟨fewer, enough⟩ := weight_above_cutoff descending (fun share there => (shares share there).2) above
    (most.trans (sum_shares entries).ge) isThreshold nonneg
  rw [Skymap.weight_shares] at fewer enough
  refine ⟨fewer, enough, fun dpdv there => ?_⟩
  have least : 0 ≤ dpdv := by
    rw [isShares] at there
    obtain ⟨share, isShare, rfl⟩ := List.mem_map.mp there
    exact (shares share isShare).1.le
  have enters := ranked.densityThreshold_le_iff above least
  exact ⟨fun denser => enters.mp denser.le, fun sparser => not_lt.mp (mt enters.mpr (not_le.mpr sparser))⟩

omit [IsStrictOrderedRing F] in
theorem build_ne_nil (extent : 0 < map.dMax) {voxel : F × F} (there : voxel ∈ map.voxels distBins) :
    (build sorts map distBins).sortedDpdv ≠ [] := by
  have ranked : voxel ∈ sorts.sort Prod.fst (map.voxels distBins) := (sorts.perm _ _).mem_iff.mpr there
  rw [build, if_neg (not_le.mpr extent)]
  exact List.ne_nil_of_mem (List.mem_map_of_mem ranked)

end CredibleVolumeIndex

/-! ## Two voxels of one density -/

noncomputable def wide : Pixel ℝ := ⟨4, 0.9, some 100, some 50, some 1⟩

noncomputable def twins : Skymap ℝ := ⟨[wide, { wide with uniq := 5 }], false⟩

theorem twins_dMax : twins.dMax = 350 := by
  have extent : max 0 (100 + 5 * 50 : ℝ) = 350 := by norm_num
  simpa [twins, Skymap.dMax, wide] using extent

theorem wide_voxel : ∃ voxel, voxel ∈ wide.voxels 1 350 := by
  have params : wide.distParams = some (100, 50, 1) := by norm_num [wide, Pixel.distParams]
  have offset : ((((0 : ℕ) : ℝ) + 0.5) * 350 - 100) / 50 = 1.5 := by norm_num
  have near : ¬ (25 : ℝ) < 1.5 ^ 2 := by norm_num
  have dense : 0 < wide.density 50 1 (1.5 ^ 2 : ℝ) := by
    have area := wide.areaSr_pos
    have root := @sqrtTwoPi_pos ℝ _ _ _
    have exp := RealFunctions.exp_pos (-0.5 * 1.5 ^ 2 : ℝ)
    have prob : (0 : ℝ) < wide.prob := by norm_num [wide]
    unfold Pixel.density
    positivity
  let r : ℝ := (((0 : ℕ) : ℝ) + 0.5) * 350
  refine ⟨(wide.density 50 1 (1.5 ^ 2), wide.density 50 1 (1.5 ^ 2) * wide.areaSr * r * r * 350), ?_⟩
  rw [Pixel.voxels, params]
  refine List.mem_filterMap.mpr ⟨0, List.mem_range.mpr one_pos, ?_⟩
  simp only [offset, if_neg near, if_pos dense, r]

theorem twins_ranked : (CredibleVolumeIndex.build .merge twins 1).sortedDpdv ≠ [] := by
  obtain ⟨voxel, there⟩ := wide_voxel
  have kept : ¬ wide.prob < (twins.rows.map (·.prob)).sum * 1e-7 := by norm_num [twins, wide]
  have inMap : voxel ∈ twins.voxels 1 := by
    refine List.mem_flatMap.mpr ⟨wide, List.mem_filter.mpr ⟨List.mem_cons_self, decide_eq_true kept⟩, ?_⟩
    rw [twins_dMax, Nat.cast_one, div_one]
    exact there
  exact CredibleVolumeIndex.build_ne_nil (by norm_num [twins_dMax]) inMap

/-- Half the probability lies in either voxel, and the threshold of that level is their
    common density. -/
theorem densityThreshold_inverts_twins :
    twins.held 1 ((CredibleVolumeIndex.build .merge twins 1).densityThreshold 0.5 < ·) < 0.5 ∧
      0.5 ≤ twins.held 1 ((CredibleVolumeIndex.build .merge twins 1).densityThreshold 0.5 ≤ ·) := by
  obtain ⟨fewer, enough, -⟩ :=
    CredibleVolumeIndex.densityThreshold_inverts .merge twins 1 twins_ranked 0.5 (by norm_num) (by norm_num)
  exact ⟨fewer, enough⟩

end Boom.Utils
