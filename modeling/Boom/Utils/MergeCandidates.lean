import Boom.Foundations.Ascending
import Boom.Utils.SkyAngles

/-! # Pairs of tracks worth a joint fit

Which tracks may be pieces of one object is asked of every two tracks, but only those in
neighbouring cells of the sky are looked at. Where an orbit places an object, and how fast it
moves there, is given for every track, and so is whether an orbit passes near other tracklets. -/

namespace Boom.Utils

open Boom.Foundations Real

/-! ## Sets of tracklets -/

def isSubset (small big : List Nat) : Bool :=
  small.isSublist big

structure SetIndex where
  sets : List (List Nat)

namespace SetIndex

def byMember (index : SetIndex) (m : Nat) : List Nat :=
  index.sets.zipIdx.flatMap fun entry => (entry.1.filter (· = m)).map fun _ => entry.2

theorem mem_byMember {index : SetIndex} {m i : Nat} : i ∈ index.byMember m ↔ ∃ set, index.sets[i]? = some set ∧ m ∈ set := by
  simp only [byMember, List.mem_flatMap, List.mem_map, List.mem_filter, decide_eq_true_eq]
  constructor
  · rintro ⟨entry, listed, _, ⟨member, rfl⟩, rfl⟩
    exact ⟨entry.1, List.mem_zipIdx_iff_getElem?.mp listed, member⟩
  · rintro ⟨set, isSet, member⟩
    exact ⟨(set, i), List.mem_zipIdx_iff_getElem?.mpr isSet, m, ⟨member, rfl⟩, rfl⟩

end SetIndex

def disjoint {α : Type} [LinearOrder α] : List α → List α → Bool
  | first :: rest, second :: later =>
    if first < second then disjoint rest (second :: later)
    else if second < first then disjoint (first :: rest) later
    else false
  | _, _ => true
termination_by first second => first.length + second.length

theorem disjoint_iff {α : Type} [LinearOrder α] {first second : List α} (inOrder : StrictlyAscending first) (inOrder' : StrictlyAscending second) :
    disjoint first second = true ↔ first.Disjoint second := by
  induction first, second using disjoint.induct with
  | case1 first rest second later before ih =>
    -- The smaller head is before everything in the other list.
    obtain ⟨_, inOrderRest⟩ := List.pairwise_cons.mp inOrder
    obtain ⟨before', _⟩ := List.pairwise_cons.mp inOrder'
    have absent : first ∉ second :: later := by
      rintro (_ | ⟨_, listed⟩)
      · exact lt_irrefl _ before
      · exact lt_asymm before (before' _ listed)
    rw [disjoint, if_pos before, ih inOrderRest inOrder', List.disjoint_cons_left]
    exact (and_iff_right absent).symm
  | case2 first rest second later notBefore after ih =>
    obtain ⟨before', _⟩ := List.pairwise_cons.mp inOrder
    obtain ⟨_, inOrderLater⟩ := List.pairwise_cons.mp inOrder'
    have absent : second ∉ first :: rest := by
      rintro (_ | ⟨_, listed⟩)
      · exact lt_irrefl _ after
      · exact lt_asymm after (before' _ listed)
    rw [disjoint, if_neg notBefore, if_pos after, ih inOrder inOrderLater, List.disjoint_cons_right]
    exact (and_iff_right absent).symm
  | case3 first rest second later notBefore notAfter =>
    rw [disjoint, if_neg notBefore, if_neg notAfter]
    have same : first = second := le_antisymm (not_lt.mp notAfter) (not_lt.mp notBefore)
    simp [same]
  | case4 first second shape =>
    cases first with
    | nil => simp [disjoint]
    | cons head rest =>
      cases second with
      | nil => simp [disjoint]
      | cons head' rest' => exact (shape head rest head' rest' rfl rfl).elim

/-! ## Cells of the sky -/

def mergeRadiusDeg : ℝ := 2

noncomputable def mergeRateDegPerDay : ℝ := 1 / 10

structure SkyMotion where
  ra : ℝ
  dec : ℝ
  raRate : ℝ
  decRate : ℝ
  isDec : IsDec dec

noncomputable def bandOf (dec size : ℝ) : Int :=
  ⌊dec / size⌋

noncomputable def farthestDec (band : Int) (size : ℝ) : ℝ :=
  let poleward := max |band * size| |(band + 1) * size|
  min (poleward + size) 90

open Classical in
noncomputable def skyBins (band : Int) (size : ℝ) : Int :=
  let farthest := toRadians (farthestDec band size)
  let half := sin (toRadians (size / 2)) / cos farthest
  -- At the pole the quotient is infinite.
  let width := if cos farthest = 0 ∨ 1 ≤ half then 360 else 2 * toDegrees (arcsin half)
  max ⌊360 / width⌋ 1

noncomputable def skyCell (ra : ℝ) (band : Int) (size : ℝ) : Int × Int :=
  let bins := skyBins band size
  (⌊remEuclid ra 360 / 360 * bins⌋ % bins, bins)

theorem skyBins_pos (band : Int) (size : ℝ) : 0 < skyBins band size :=
  Int.one_pos.trans_le (le_max_right _ _)

theorem skyCell_eq (ra : ℝ) (band : Int) (size : ℝ) :
    skyCell ra band size = (ringBin (skyBins band size) (ra / 360), skyBins band size) := by
  rw [skyCell, remEuclid_turn, floor_fract_mul (skyBins_pos band size), ringBin, Int.emod_emod]

theorem farthestDec_nonneg (band : Int) {size : ℝ} (positive : 0 < size) : 0 ≤ farthestDec band size :=
  le_min (add_nonneg (le_max_of_le_left (abs_nonneg _)) positive.le) (by norm_num)

theorem isDec_farthestDec (band : Int) {size : ℝ} (positive : 0 < size) : IsDec (farthestDec band size) := by
  rw [IsDec, abs_of_nonneg (farthestDec_nonneg band positive)]
  exact min_le_right _ _

theorem skyBins_mul_le {band : Int} {size half : ℝ} (isHalf : half = sin (toRadians (size / 2)) / cos (toRadians (farthestDec band size)))
    (narrow : ¬ (cos (toRadians (farthestDec band size)) = 0 ∨ 1 ≤ half)) (positive : 0 < half) :
    skyBins band size * arcsin half ≤ π := by
  have arcPositive := arcsin_pos.mpr positive
  have arcHalf := arcsin_le_pi_div_two half
  have bins : skyBins band size = max ⌊π / arcsin half⌋ 1 := by
    rw [isHalf] at narrow ⊢
    have width : 360 / (2 * toDegrees (arcsin (sin (toRadians (size / 2)) / cos (toRadians (farthestDec band size))))) =
        π / arcsin (sin (toRadians (size / 2)) / cos (toRadians (farthestDec band size))) := by
      rw [toDegrees]
      field_simp
      norm_num
    simp only [skyBins, if_neg narrow, width]
  have fits : (skyBins band size : ℝ) ≤ π / arcsin half := by
    rw [bins, Int.cast_max, Int.cast_one]
    refine max_le (Int.floor_le _) ((one_le_div arcPositive).mpr ?_)
    linarith [pi_pos]
  exact (le_div_iff₀ arcPositive).mp fits

theorem abs_le_poleward {dec size : ℝ} (positive : 0 < size) :
    |dec| ≤ max |bandOf dec size * size| |(bandOf dec size + 1) * size| := by
  have low : bandOf dec size * size ≤ dec := (le_div_iff₀ positive).mp (Int.floor_le _)
  have high : dec ≤ (bandOf dec size + 1) * size := ((div_lt_iff₀ positive).mp (Int.lt_floor_add_one _)).le
  exact abs_le_max_abs_abs low high

section

variable {ra dec ra' dec' size : ℝ} (isDec : IsDec dec) (isDec' : IsDec dec') (positive : 0 < size) (bounded : size ≤ 180)
  (close : angularSeparationDeg ra dec ra' dec' ≤ size)

include isDec isDec' positive bounded close

theorem cos_farthest_mul_le : cos (toRadians (farthestDec (bandOf dec' size) size)) *
    |sin (toRadians (ra' - ra) / 2)| ≤ sin (toRadians size / 2) := by
  have apart := abs_dec_sub_le_of_close isDec isDec' positive.le bounded close
  have inBand := @abs_le_poleward dec' size positive
  have reached : |dec| ≤ |dec'| + size := by
    have split := abs_sub_abs_le_abs_sub dec dec'
    rw [abs_sub_comm] at split
    linarith
  have farthestNonneg := farthestDec_nonneg (bandOf dec' size) positive
  have isFarthest := isDec_farthestDec (bandOf dec' size) positive
  have within : |dec| ≤ |farthestDec (bandOf dec' size) size| := by
    rw [abs_of_nonneg farthestNonneg]
    exact le_min (by linarith) isDec
  have within' : |dec'| ≤ |farthestDec (bandOf dec' size) size| := by
    rw [abs_of_nonneg farthestNonneg]
    exact le_min (by linarith) isDec'
  refine cos_mul_abs_sin_half_turn_le isDec.upright isFarthest.upright.cos_nonneg (cos_toRadians_le within isFarthest)
    (cos_toRadians_le within' isFarthest) (toRadians_nonneg positive.le) ?_ ?_
  · rw [← toRadians_straight]
    exact toRadians_le_iff.mpr bounded
  · exact (angularSeparationDeg_le_iff isDec isDec' positive.le bounded).mp close

theorem exists_step_skyCell : ∃ step ∈ [-1, 0, 1],
    ((skyCell ra (bandOf dec' size) size).1 + step) % (skyCell ra (bandOf dec' size) size).2 =
      (skyCell ra' (bandOf dec' size) size).1 := by
  have narrow := cos_farthest_mul_le isDec isDec' positive bounded close
  have binsPositive := skyBins_pos (bandOf dec' size) size
  rw [skyCell_eq, skyCell_eq]
  obtain ⟨half, isHalf⟩ : ∃ half, half = sin (toRadians (size / 2)) / cos (toRadians (farthestDec (bandOf dec' size) size)) :=
    ⟨_, rfl⟩
  by_cases whole : cos (toRadians (farthestDec (bandOf dec' size) size)) = 0 ∨ 1 ≤ half
  · -- One bin goes around.
    have single : skyBins (bandOf dec' size) size = 1 := by
      rw [isHalf] at whole
      simp only [skyBins, if_pos whole]
      norm_num
    exact ⟨0, by simp, by simp [single, ringBin]⟩
  · have farPositive : 0 < cos (toRadians (farthestDec (bandOf dec' size) size)) :=
      lt_of_le_of_ne (isDec_farthestDec _ positive).upright.cos_nonneg (Ne.symm (not_or.mp whole).1)
    have halfPositive : 0 < half := by
      rw [isHalf]
      refine div_pos (sin_pos_of_pos_of_lt_pi (toRadians_pos (by linarith)) ?_) farPositive
      rw [← toRadians_straight]
      exact toRadians_lt_iff.mpr (by linarith)
    have small : |sin (toRadians (ra' - ra) / 2)| ≤ half := by
      rw [isHalf, le_div_iff₀' farPositive, toRadians_half]
      exact narrow
    obtain ⟨turns, near⟩ := exists_abs_sub_le_arcsin small
    refine @exists_step_ringBin _ _ _ turns ?_ binsPositive
    have inTurns : |toRadians (ra' - ra) / 2 - turns * π| = |ra' / 360 - ra / 360 - turns| * π := by
      rw [← abs_of_pos pi_pos, ← abs_mul, abs_of_pos pi_pos, toRadians]
      congr 1
      ring
    have fits := skyBins_mul_le isHalf whole halfPositive
    have binsNonneg : (0 : ℝ) ≤ skyBins (bandOf dec' size) size := Int.cast_nonneg binsPositive.le
    have scaled : |ra' / 360 - ra / 360 - turns| * skyBins (bandOf dec' size) size * π ≤ 1 * π := by
      calc |ra' / 360 - ra / 360 - turns| * skyBins (bandOf dec' size) size * π
          = skyBins (bandOf dec' size) size * (|ra' / 360 - ra / 360 - turns| * π) := by ring
        _ ≤ skyBins (bandOf dec' size) size * arcsin half := mul_le_mul_of_nonneg_left (inTurns ▸ near) binsNonneg
        _ ≤ 1 * π := by rwa [one_mul]
    exact le_of_mul_le_mul_right scaled pi_pos

theorem exists_step_bandOf : ∃ step ∈ [-1, 0, 1], bandOf dec size + step = bandOf dec' size := by
  have apart := abs_dec_sub_le_of_close isDec isDec' positive.le bounded close
  refine exists_step_floor ?_
  rw [← sub_div, abs_div, abs_of_pos positive]
  exact (div_le_one positive).mpr apart

end

/-! ## Pairs -/

structure Pieces (Track : Type) where
  tracks : List Track
  members : List (List Nat)
  nights : List (List Int)
  length_members : members.length = tracks.length
  length_nights : nights.length = tracks.length
  nights_ascending : ∀ days ∈ nights, StrictlyAscending days

section Pairs

variable {Track : Type} (skyMotion : Track → Option SkyMotion) (predicts : Track → List Nat → Bool)

noncomputable def cellKey (at_ : SkyMotion) : Int × Int :=
  let band := bandOf at_.dec mergeRadiusDeg
  (band, (skyCell at_.ra band mergeRadiusDeg).1)

noncomputable def gridCell (motion : List (Option SkyMotion)) (key : Int × Int) : List Nat :=
  (List.range motion.length).filter fun i => (motion[i]?.join.map cellKey) = some key

def landsNear (pieces : Pieces Track) (i j : Nat) : Bool :=
  match pieces.tracks[i]?, pieces.members[j]? with
  | some track, some members => predicts track members
  | _, _ => false

open Classical in
noncomputable def movingAlike (pieces : Pieces Track) (i j : Nat) (at_ at_j : SkyMotion) : Bool :=
  decide (i < j) && decide (angularSeparationDeg at_.ra at_.dec at_j.ra at_j.dec ≤ mergeRadiusDeg) &&
    decide (hypot (at_.raRate - at_j.raRate) (at_.decRate - at_j.decRate) ≤ mergeRateDegPerDay) &&
    disjoint (pieces.nights.getD i []) (pieces.nights.getD j []) &&
    (landsNear predicts pieces i j || landsNear predicts pieces j i)

def sharedWith {Track : Type} (pieces : Pieces Track) (i : Nat) : List (ℕ ×ₗ ℕ) :=
  let index : SetIndex := ⟨pieces.members⟩
  (pieces.members.getD i []).flatMap fun m => ((index.byMember m).filter (i < ·)).map fun j => toLex (i, j)

noncomputable def aroundOf (pieces : Pieces Track) (i : Nat) (at_ : SkyMotion) : List (ℕ ×ₗ ℕ) :=
  let motion := pieces.tracks.map skyMotion
  [-1, 0, 1].flatMap fun step =>
    let b := bandOf at_.dec mergeRadiusDeg + step
    let (x, bins) := skyCell at_.ra b mergeRadiusDeg
    [-1, 0, 1].flatMap fun dx => (gridCell motion (b, (x + dx) % bins)).filterMap fun j =>
      match motion[j]?.join with
      | none => none
      | some at_j => if movingAlike predicts pieces i j at_ at_j then some (toLex (i, j)) else none

noncomputable def mergeCandidates (pieces : Pieces Track) : List (ℕ ×ₗ ℕ) :=
  let motion := pieces.tracks.map skyMotion
  ascending <| (List.range pieces.tracks.length).flatMap fun i =>
    sharedWith pieces i ++ match motion[i]?.join with
      | none => []
      | some at_ => aroundOf skyMotion predicts pieces i at_

def WorthJoining (pieces : Pieces Track) (i j : Nat) : Prop :=
  (∃ members ∈ pieces.members[i]?, ∃ members' ∈ pieces.members[j]?, ∃ m ∈ members, m ∈ members') ∨
    ∃ track ∈ pieces.tracks[i]?, ∃ track' ∈ pieces.tracks[j]?, ∃ members ∈ pieces.members[i]?,
      ∃ members' ∈ pieces.members[j]?, ∃ nights ∈ pieces.nights[i]?, ∃ nights' ∈ pieces.nights[j]?,
      ∃ at_ ∈ skyMotion track, ∃ at_j ∈ skyMotion track',
        angularSeparationDeg at_.ra at_.dec at_j.ra at_j.dec ≤ mergeRadiusDeg ∧
        hypot (at_.raRate - at_j.raRate) (at_.decRate - at_j.decRate) ≤ mergeRateDegPerDay ∧
        nights.Disjoint nights' ∧ (predicts track members' = true ∨ predicts track' members = true)

variable {skyMotion predicts} {pieces : Pieces Track} {i j : Nat}

theorem getElem?_skyMotion {tracks : List Track} {at_ : SkyMotion} :
    (tracks.map skyMotion)[i]? = some (some at_) ↔ ∃ track, tracks[i]? = some track ∧ skyMotion track = some at_ := by
  rw [List.getElem?_map, Option.map_eq_some_iff]

theorem mem_gridCell {motion : List (Option SkyMotion)} {key : Int × Int} :
    i ∈ gridCell motion key ↔ ∃ at_, motion[i]? = some (some at_) ∧ cellKey at_ = key := by
  simp only [gridCell, List.mem_filter, List.mem_range, decide_eq_true_eq, Option.map_eq_some_iff, Option.join_eq_some_iff]
  constructor
  · rintro ⟨-, at_, placed, inCell⟩
    exact ⟨at_, placed, inCell⟩
  · rintro ⟨at_, placed, inCell⟩
    exact ⟨(List.getElem?_eq_some_iff.mp placed).1, at_, placed, inCell⟩

theorem closeOfMovingAlike {at_ at_j : SkyMotion} (alike : movingAlike predicts pieces i j at_ at_j = true) :
    angularSeparationDeg at_.ra at_.dec at_j.ra at_j.dec ≤ mergeRadiusDeg := by
  simp only [movingAlike, Bool.and_eq_true, decide_eq_true_eq] at alike
  exact alike.1.1.1.2

theorem mem_aroundOf {at_ : SkyMotion} {pair : ℕ ×ₗ ℕ} : pair ∈ aroundOf skyMotion predicts pieces i at_ ↔
    ∃ j at_j, pair = toLex (i, j) ∧ (pieces.tracks.map skyMotion)[j]? = some (some at_j) ∧
      movingAlike predicts pieces i j at_ at_j = true := by
  simp only [aroundOf, List.mem_flatMap, List.mem_filterMap]
  constructor
  · rintro ⟨_, -, _, -, j, -, found⟩
    split at found
    · cases found
    next at_j placed =>
      split at found
      next alike =>
        exact ⟨j, at_j, (Option.some.inj found).symm, Option.join_eq_some_iff.mp placed, alike⟩
      · cases found
  · rintro ⟨j, at_j, rfl, placed, alike⟩
    have close := closeOfMovingAlike alike
    have positive : 0 < mergeRadiusDeg := by norm_num [mergeRadiusDeg]
    have bounded : mergeRadiusDeg ≤ 180 := by norm_num [mergeRadiusDeg]
    obtain ⟨step, isStep, inBand⟩ := exists_step_bandOf at_.isDec at_j.isDec positive bounded close
    obtain ⟨dx, isStep', inBin⟩ := exists_step_skyCell at_.isDec at_j.isDec positive bounded close
    refine ⟨step, isStep, dx, isStep', j, mem_gridCell.mpr ⟨at_j, placed, ?_⟩, ?_⟩
    · rw [inBand, inBin, cellKey]
    · rw [Option.join_eq_some_iff.mpr placed]
      exact if_pos alike

theorem Pieces.exists_rows {i : Nat} {track : Track} (isTrack : pieces.tracks[i]? = some track) :
    ∃ members nights, pieces.members[i]? = some members ∧ pieces.nights[i]? = some nights ∧ StrictlyAscending nights := by
  obtain ⟨inside, -⟩ := List.getElem?_eq_some_iff.mp isTrack
  have insideMembers : i < pieces.members.length := pieces.length_members ▸ inside
  have insideNights : i < pieces.nights.length := pieces.length_nights ▸ inside
  exact ⟨_, _, List.getElem?_eq_getElem insideMembers, List.getElem?_eq_getElem insideNights,
    pieces.nights_ascending _ (List.getElem_mem insideNights)⟩

theorem movingAlike_iff {track track' : Track} {members members' : List Nat} {nights nights' : List Int} {at_ at_j : SkyMotion}
    (isTrack : pieces.tracks[i]? = some track) (isTrack' : pieces.tracks[j]? = some track')
    (isMembers : pieces.members[i]? = some members) (isMembers' : pieces.members[j]? = some members')
    (isNights : pieces.nights[i]? = some nights) (isNights' : pieces.nights[j]? = some nights')
    (inOrder : StrictlyAscending nights) (inOrder' : StrictlyAscending nights') : movingAlike predicts pieces i j at_ at_j = true ↔
      i < j ∧ angularSeparationDeg at_.ra at_.dec at_j.ra at_j.dec ≤ mergeRadiusDeg ∧
        hypot (at_.raRate - at_j.raRate) (at_.decRate - at_j.decRate) ≤ mergeRateDegPerDay ∧
        nights.Disjoint nights' ∧ (predicts track members' = true ∨ predicts track' members = true) := by
  simp only [movingAlike, landsNear, isTrack, isTrack', isMembers, isMembers', List.getD_eq_getElem?_getD, isNights,
    isNights', Option.getD_some, Bool.and_eq_true, Bool.or_eq_true, decide_eq_true_eq, disjoint_iff inOrder inOrder', and_assoc]

theorem mem_sharedWith {pair : ℕ ×ₗ ℕ} : pair ∈ sharedWith pieces i ↔ ∃ j, pair = toLex (i, j) ∧ i < j ∧
    ∃ members ∈ pieces.members[i]?, ∃ members' ∈ pieces.members[j]?, ∃ m ∈ members, m ∈ members' := by
  simp only [sharedWith, List.mem_flatMap, List.mem_map, List.mem_filter, SetIndex.mem_byMember, decide_eq_true_eq, Option.mem_def,
    List.getD_eq_getElem?_getD]
  constructor
  · rintro ⟨m, member, j, ⟨⟨members', isMembers', member'⟩, later⟩, rfl⟩
    cases isMembers : pieces.members[i]? with
    | none => simp [isMembers] at member
    | some members =>
      rw [isMembers, Option.getD_some] at member
      exact ⟨j, rfl, later, members, rfl, members', isMembers', m, member, member'⟩
  · rintro ⟨j, rfl, later, members, isMembers, members', isMembers', m, member, member'⟩
    rw [isMembers, Option.getD_some]
    exact ⟨m, member, j, ⟨⟨members', isMembers', member'⟩, later⟩, rfl⟩

theorem mem_mergeCandidates (pieces : Pieces Track) (i j : Nat) :
    toLex (i, j) ∈ mergeCandidates skyMotion predicts pieces ↔ i < j ∧ WorthJoining skyMotion predicts pieces i j := by
  simp only [mergeCandidates, mem_ascending, List.mem_flatMap, List.mem_range, List.mem_append, mem_sharedWith]
  constructor
  · rintro ⟨i, inside, ⟨_, same, later, shared⟩ | found⟩
    · cases same
      exact ⟨later, .inl shared⟩
    · split at found
      · cases found
      next at_ placed =>
        obtain ⟨_, at_j, same, placed', alike⟩ := mem_aroundOf.mp found
        cases same
        obtain ⟨track, isTrack, moves⟩ := getElem?_skyMotion.mp (Option.join_eq_some_iff.mp placed)
        obtain ⟨track', isTrack', moves'⟩ := getElem?_skyMotion.mp placed'
        obtain ⟨members, nights, isMembers, isNights, inOrder⟩ := Pieces.exists_rows isTrack
        obtain ⟨members', nights', isMembers', isNights', inOrder'⟩ := Pieces.exists_rows isTrack'
        obtain ⟨later, close⟩ := (movingAlike_iff isTrack isTrack' isMembers isMembers' isNights isNights' inOrder inOrder').mp alike
        exact ⟨later, .inr ⟨track, isTrack, track', isTrack', members, isMembers, members', isMembers', nights, isNights,
          nights', isNights', at_, moves, at_j, moves', close⟩⟩
  · rintro ⟨later, shared | ⟨track, isTrack, track', isTrack', members, isMembers, members', isMembers', nights, isNights,
      nights', isNights', at_, moves, at_j, moves', close⟩⟩
    · have inside : i < pieces.tracks.length := by
        obtain ⟨_, _, _, isMembers', -⟩ := shared
        have inside' := (List.getElem?_eq_some_iff.mp isMembers').1
        rw [pieces.length_members] at inside'
        omega
      exact ⟨i, inside, .inl ⟨j, rfl, later, shared⟩⟩
    · have inside : i < pieces.tracks.length := (List.getElem?_eq_some_iff.mp isTrack).1
      obtain ⟨_, _, _, again, inOrder⟩ := Pieces.exists_rows isTrack
      obtain ⟨_, _, _, again', inOrder'⟩ := Pieces.exists_rows isTrack'
      cases again.symm.trans isNights
      cases again'.symm.trans isNights'
      have placed := getElem?_skyMotion.mpr ⟨track, isTrack, moves⟩
      have placed' := getElem?_skyMotion.mpr ⟨track', isTrack', moves'⟩
      refine ⟨i, inside, .inr ?_⟩
      rw [Option.join_eq_some_iff.mpr placed]
      exact mem_aroundOf.mpr ⟨j, at_j, rfl, placed',
        (movingAlike_iff isTrack isTrack' isMembers isMembers' isNights isNights' inOrder inOrder').mpr ⟨later, close⟩⟩

/-- The pairs returned are those of a full scan, each once. -/
theorem mergeCandidates_eq_scan (pieces : Pieces Track) : (mergeCandidates skyMotion predicts pieces).Nodup ∧
    ∀ i j, toLex (i, j) ∈ mergeCandidates skyMotion predicts pieces ↔ i < j ∧ WorthJoining skyMotion predicts pieces i j :=
  ⟨nodup_ascending _, mem_mergeCandidates pieces⟩

end Pairs

/-- On the equator, as a track of its own. -/
noncomputable def eastward (ra : ℝ) : SkyMotion :=
  ⟨ra, 0, 1 / 5, 0, by simp [IsDec]⟩

/-- One after the other at both ends of the right ascensions. -/
noncomputable def acrossZero : Pieces SkyMotion where
  tracks := [eastward 0, eastward 360]
  members := [[1, 2], [3]]
  nights := [[1, 2], [3]]
  length_members := rfl
  length_nights := rfl
  nights_ascending days isNights := by
    rcases List.mem_pair.mp isNights with rfl | rfl <;> simp [StrictlyAscending]

theorem mergeCandidates_eq_scan_acrossZero : toLex (0, 1) ∈ mergeCandidates some (fun _ _ => true) acrossZero := by
  refine ((mergeCandidates_eq_scan acrossZero).2 0 1).mpr ⟨zero_lt_one, .inr ?_⟩
  refine ⟨_, rfl, _, rfl, _, rfl, _, rfl, _, rfl, _, rfl, _, rfl, _, rfl, ?_, ?_, by simp, .inl rfl⟩
  · have turn : sin ((toRadians 360 - toRadians 0) / 2) = 0 := by
      rw [show (toRadians 360 - toRadians 0) / 2 = π by unfold toRadians; ring, sin_pi]
    simp only [eastward, angularSeparationDeg, turn, sub_self, zero_div, sin_zero, mul_zero, add_zero, sqrt_zero]
    norm_num [mergeRadiusDeg, toDegrees]
  · norm_num [eastward, hypot, mergeRateDegPerDay]

end Boom.Utils
