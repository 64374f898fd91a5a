import Boom.Foundations.Ascending
import Boom.Utils.SkyAngles
import Mathlib.Analysis.Real.Pi.Bounds

/-! # The catalogue's sky grid

Catalogued objects' paths on the sky are bucketed, so that a position's neighbours are found
without scanning the catalogue. The 3x3 cells around a position are to hold everything within
the size of a cell; `near_complete_iff` says around which positions they do. -/

namespace Boom.Utils

open Boom.Foundations Real

namespace SkyGrid

/-! ## Paths -/

noncomputable def atan2 (y x : ℝ) : ℝ :=
  Complex.arg ⟨x, y⟩

noncomputable def unit (position : ℝ × ℝ) : ℝ × ℝ × ℝ :=
  let ra := toRadians position.1
  let dec := toRadians position.2
  (cos dec * cos ra, cos dec * sin ra, sin dec)

noncomputable def interpolate (a b : ℝ × ℝ) (f : ℝ) : ℝ × ℝ :=
  let u := unit a
  let v := unit b
  let p := (u.1 + f * (v.1 - u.1), u.2.1 + f * (v.2.1 - u.2.1), u.2.2 + f * (v.2.2 - u.2.2))
  let n := √(p.1 * p.1 + p.2.1 * p.2.1 + p.2.2 * p.2.2)
  (remEuclid (toDegrees (atan2 p.2.1 p.1)) 360, toDegrees (arcsin (max (-1) (min 1 (p.2.2 / n)))))

/-! ## Cells -/

noncomputable def band (dec size : ℝ) : Int :=
  toI64 ⌊dec / size⌋

noncomputable def bins (band : Int) (size : ℝ) : Int :=
  let lower := band * size
  let edge := min (max |lower| |lower + size|) (89999 / 1000)
  max (toI64 ⌊360 * cos (toRadians edge) / size⌋) 1

noncomputable def bin (ra : ℝ) (band : Int) (size : ℝ) : Int :=
  min (toI64 ⌊remEuclid ra 360 / 360 * bins band size⌋) (bins band size - 1)

noncomputable def keysAlong (a b : ℝ × ℝ) (spacing size : ℝ) : List (Int × Int) :=
  let steps := (max ⌈angularSeparationDeg a.1 a.2 b.1 b.2 / spacing⌉ 1).toNat
  ((List.range (steps + 1)).map fun step : Nat =>
    let at_ := interpolate a b ((step : ℝ) / steps)
    (band at_.2 size, bin at_.1 (band at_.2 size) size)).eraseDups

end SkyGrid

structure SkyGrid where
  size : ℝ
  cells : Int × Int → List Nat

namespace SkyGrid

noncomputable def along (start end_ : List (ℝ × ℝ)) (spacing size : ℝ) : SkyGrid where
  size := size
  cells key := (start.zip end_).zipIdx.flatMap fun entry =>
    (keysAlong entry.1.1 entry.1.2 spacing size).filterMap fun found => if found = key then some entry.2 else none

def bandsAround (band : Int) : List Int :=
  let first := addI64 band (-1)
  let last := addI64 band 1
  -- At either end of the bands the sum wraps around, and the range is empty.
  (List.range (last + 1 - first).toNat).map fun k : Nat => first + k

noncomputable def near (grid : SkyGrid) (ra dec : ℝ) : List Nat :=
  let keys := ((bandsAround (band dec grid.size)).flatMap fun b =>
    [-1, 0, 1].map fun dx => (b, (bin ra b grid.size + dx) % bins b grid.size)).eraseDups
  ascending (keys.flatMap grid.cells)

/-! ## Degenerate paths -/

noncomputable def filedRa (position : ℝ × ℝ) : ℝ :=
  remEuclid (toDegrees (atan2 (unit position).2.1 (unit position).1)) 360

noncomputable def keyOf (position : ℝ × ℝ) (size : ℝ) : Int × Int :=
  (band position.2 size, bin (filedRa position) (band position.2 size) size)

theorem unit_sq (position : ℝ × ℝ) : (unit position).1 * (unit position).1 + (unit position).2.1 * (unit position).2.1 +
    (unit position).2.2 * (unit position).2.2 = 1 := by
  have first := sin_sq_add_cos_sq (toRadians position.1)
  have second := sin_sq_add_cos_sq (toRadians position.2)
  simp only [unit]
  calc _ = cos (toRadians position.2) ^ 2 * (sin (toRadians position.1) ^ 2 + cos (toRadians position.1) ^ 2) +
        sin (toRadians position.2) ^ 2 := by ring
    _ = 1 := by rw [first]; linarith

theorem interpolate_self {position : ℝ × ℝ} (isDec : IsDec position.2) (f : ℝ) :
    interpolate position position f = (filedRa position, position.2) := by
  have length := unit_sq position
  simp only [interpolate, sub_self, mul_zero, add_zero, length, sqrt_one, div_one, filedRa, Prod.mk.injEq, true_and]
  have bounds := abs_le.mp isDec.upright
  have within := abs_le.mp (abs_sin_le_one (toRadians position.2))
  simp only [unit]
  rw [min_eq_right within.2, max_eq_right within.1, arcsin_sin bounds.1 bounds.2, toDegrees_toRadians]

theorem keysAlong_self {position : ℝ × ℝ} (isDec : IsDec position.2) (spacing size : ℝ) {key : Int × Int} :
    key ∈ keysAlong position position spacing size ↔ key = keyOf position size := by
  simp only [keysAlong, List.mem_eraseDups, List.mem_map, List.mem_range, interpolate_self isDec]
  constructor
  · rintro ⟨_, -, rfl⟩
    rfl
  · rintro rfl
    exact ⟨0, Nat.succ_pos _, rfl⟩

theorem mem_cells_along {positions : List (ℝ × ℝ)} (isDec : ∀ position ∈ positions, IsDec position.2) {spacing size : ℝ}
    {key : Int × Int} {i : Nat} : i ∈ (along positions positions spacing size).cells key ↔
      ∃ position, positions[i]? = some position ∧ keyOf position size = key := by
  simp only [along, List.mem_flatMap, List.mem_filterMap]
  constructor
  · rintro ⟨⟨⟨a, b⟩, k⟩, listed, found, isKey, kept⟩
    split at kept
    next same =>
      cases kept
      obtain ⟨isStart, isEnd⟩ := List.getElem?_zip_eq_some.mp (List.mem_zipIdx_iff_getElem?.mp listed)
      cases isStart.symm.trans isEnd
      refine ⟨a, isStart, ?_⟩
      rw [← same]
      exact ((keysAlong_self (isDec a (List.mem_of_getElem? isStart)) spacing size).mp isKey).symm
    · cases kept
  · rintro ⟨position, isPosition, isKey⟩
    refine ⟨((position, position), i), List.mem_zipIdx_iff_getElem?.mpr (List.getElem?_zip_eq_some.mpr ⟨isPosition, isPosition⟩),
      key, (keysAlong_self (isDec position (List.mem_of_getElem? isPosition)) spacing size).mpr isKey.symm, if_pos rfl⟩

theorem mem_near {positions : List (ℝ × ℝ)} (isDec : ∀ position ∈ positions, IsDec position.2) {spacing size ra dec : ℝ}
    {i : Nat} : i ∈ (along positions positions spacing size).near ra dec ↔
      ∃ b ∈ bandsAround (band dec size), ∃ dx ∈ [-1, 0, 1], ∃ position, positions[i]? = some position ∧
        keyOf position size = (b, (bin ra b size + dx) % bins b size) := by
  simp only [near, mem_ascending, List.mem_flatMap, List.mem_eraseDups, List.mem_map, mem_cells_along isDec]
  constructor
  · rintro ⟨_, ⟨b, isBand, dx, isStep, rfl⟩, position, isPosition, isKey⟩
    exact ⟨b, isBand, dx, isStep, position, isPosition, isKey⟩
  · rintro ⟨b, isBand, dx, isStep, position, isPosition, isKey⟩
    exact ⟨_, ⟨b, isBand, dx, isStep, rfl⟩, position, isPosition, isKey⟩

/-! ## Bins -/

theorem bins_pos (band : Int) (size : ℝ) : 0 < bins band size :=
  Int.one_pos.trans_le (le_max_right _ _)

theorem bins_le (band : Int) (size : ℝ) : bins band size ≤ 2 ^ 63 - 1 := by
  exact max_le (max_le (by norm_num) (min_le_left _ _)) (by norm_num)

theorem bin_eq (ra : ℝ) (band : Int) (size : ℝ) : bin ra band size = ringBin (bins band size) (ra / 360) := by
  have positive := bins_pos band size
  have few := bins_le band size
  rw [bin, remEuclid_turn, floor_fract_mul positive, toI64]
  have low := Int.emod_nonneg ⌊ra / 360 * bins band size⌋ positive.ne'
  have high := Int.emod_lt_of_pos ⌊ra / 360 * bins band size⌋ positive
  rw [ringBin]
  omega

theorem ofReal_mul_direction (length x y : ℝ) : (length * (x + y * Complex.I) : ℂ) = ⟨length * x, length * y⟩ := by
  apply Complex.ext <;> simp

theorem exists_filedRa_turns {position : ℝ × ℝ} (between : 0 < cos (toRadians position.2)) :
    ∃ turns : ℤ, filedRa position / 360 = position.1 / 360 + turns := by
  have angle := Complex.arg_mul_cos_add_sin_mul_I_sub between (toRadians position.1)
  rw [← Complex.ofReal_cos (toRadians position.1), ← Complex.ofReal_sin (toRadians position.1), ofReal_mul_direction] at angle
  obtain ⟨k, known⟩ : ∃ k : ℤ, atan2 (unit position).2.1 (unit position).1 = toRadians position.1 + 2 * π * k :=
    ⟨_, by rw [atan2]; exact (sub_eq_iff_eq_add'.mp angle)⟩
  have inDegrees : toDegrees (toRadians position.1 + 2 * π * k) = position.1 + 360 * k := by
    have := pi_ne_zero
    rw [toDegrees, toRadians]
    field_simp
    ring
  refine ⟨k - ⌊(position.1 + 360 * k) / 360⌋, ?_⟩
  rw [filedRa, known, inDegrees, remEuclid]
  push_cast
  ring

theorem filedRa_zero {dec : ℝ} (isDec : IsDec dec) : filedRa (0, dec) = 0 := by
  have angle : atan2 (unit (0, dec)).2.1 (unit (0, dec)).1 = 0 := by
    simp only [unit, atan2, toRadians, zero_mul, cos_zero, sin_zero, mul_one, mul_zero]
    exact Complex.arg_ofReal_of_nonneg isDec.upright.cos_nonneg
  rw [filedRa, angle, toDegrees, zero_mul, remEuclid]
  simp

theorem exists_step_of_few {bins x y : Int} (few : bins ≤ 3) (x_nonneg : 0 ≤ x) (x_lt : x < bins) (y_nonneg : 0 ≤ y) (y_lt : y < bins) :
    ∃ dx ∈ [-1, 0, 1], (x + dx) % bins = y := by
  obtain rfl | rfl | rfl : bins = 1 ∨ bins = 2 ∨ bins = 3 := by omega
  · exact ⟨0, by decide, by omega⟩
  · obtain same | other : x = y ∨ y = (x + 1) % 2 := by omega
    · exact ⟨0, by decide, by omega⟩
    · exact ⟨1, by decide, other.symm⟩
  · obtain same | next | last : x = y ∨ y = (x + 1) % 3 ∨ y = (x + -1) % 3 := by omega
    · exact ⟨0, by decide, by omega⟩
    · exact ⟨1, by decide, next.symm⟩
    · exact ⟨-1, by decide, last.symm⟩

theorem mem_bandsAround {band : Int} (low : -2 ^ 63 < band) (high : band < 2 ^ 63 - 1) {b : Int} :
    b ∈ bandsAround band ↔ ∃ step ∈ [-1, 0, 1], band + step = b := by
  have first : addI64 band (-1) = band - 1 := Int.bmod_eq_of_le (by omega) (by omega)
  have last : addI64 band 1 = band + 1 := Int.bmod_eq_of_le (by omega) (by omega)
  rw [bandsAround, first, last]
  have three : (band + 1 + 1 - (band - 1)).toNat = 3 := by omega
  rw [three]
  simp only [List.range_succ, List.range_zero, List.nil_append, List.cons_append, List.map_cons, List.map_nil, List.mem_cons,
    List.not_mem_nil, or_false, exists_eq_or_imp, exists_eq_left]
  omega

theorem numbered_of_mem_bandsAround {dec size : ℝ} {b : Int} (around : b ∈ bandsAround (band dec size)) :
    -2 ^ 63 < ⌊dec / size⌋ ∧ ⌊dec / size⌋ < 2 ^ 63 - 1 := by
  have last : bandsAround (2 ^ 63 - 1) = [] := by decide +kernel
  have first : bandsAround (-2 ^ 63) = [] := by decide +kernel
  by_contra beyond
  obtain same | same : band dec size = 2 ^ 63 - 1 ∨ band dec size = -2 ^ 63 := by
    unfold band toI64
    omega
  · rw [same, last] at around
    cases around
  · rw [same, first] at around
    cases around

/-! ## Around which positions everything is found -/

/-- Every index of a position within the size is returned. -/
def Finds (positions : List (ℝ × ℝ)) (spacing size ra dec : ℝ) : Prop :=
  ∀ i position, positions[i]? = some position → angularSeparationDeg ra dec position.1 position.2 ≤ size →
    i ∈ (along positions positions spacing size).near ra dec

def Numbered (dec size : ℝ) : Prop :=
  -2 ^ 63 < ⌊dec / size⌋ ∧ ⌊dec / size⌋ < 2 ^ 63 - 1

/-- No position within the size is further along the band than a bin is wide. -/
def Wide (dec size : ℝ) : Prop :=
  bins (band dec size) size ≤ 3 ∨
    (|dec| + size < 90 ∧ toDegrees (arcsin (sin (toRadians size) / cos (toRadians dec))) ≤ 360 / bins (band dec size) size)

/-- A pole has no right ascension, and goes for one of zero. -/
noncomputable def raOf (position : ℝ × ℝ) : ℝ :=
  if |position.2| = 90 then 0 else position.1

/-- Of equally many parts of the circle the two are in the same one or in two next to each
    other. -/
def Adjacent (parts : Int) (ra ra' : ℝ) : Prop :=
  ∃ turns : Int, |⌊ra / 360 * parts⌋ - ⌊ra' / 360 * parts⌋ - parts * turns| ≤ 1

theorem exists_raOf_turns {position : ℝ × ℝ} (isDec : IsDec position.2) :
    ∃ turns : ℤ, filedRa position / 360 = raOf position / 360 + turns := by
  unfold raOf
  split
  next pole =>
    have flat : cos (toRadians position.2) = 0 := by
      rw [← cos_abs, abs_toRadians, pole, toRadians_right, cos_pi_div_two]
    have angle : atan2 (unit position).2.1 (unit position).1 = 0 := by
      simp only [unit, flat, zero_mul, atan2]
      exact Complex.arg_zero
    exact ⟨0, by rw [filedRa, angle, toDegrees, zero_mul, remEuclid]; simp⟩
  next between =>
    refine exists_filedRa_turns (cos_pos_of_mem_Ioo (abs_lt.mp ?_))
    rw [abs_toRadians, ← toRadians_right, toRadians_lt_iff]
    exact lt_of_le_of_ne isDec between

theorem step_iff_adjacent {position : ℝ × ℝ} (isDec : IsDec position.2) (ra size : ℝ) (b : Int) :
    (∃ dx ∈ [-1, 0, 1], (bin ra b size + dx) % bins b size = bin (filedRa position) b size) ↔
      Adjacent (bins b size) ra (raOf position) := by
  obtain ⟨turns, filed⟩ := exists_raOf_turns isDec
  simp only [bin_eq, filed, ringBin_add_int]
  simp only [ringBin, Int.emod_add_emod, Adjacent]
  constructor
  -- Bins are counted modulo their number, positions modulo whole turns.
  · rintro ⟨dx, isStep, same⟩
    obtain ⟨around, apart⟩ := Int.dvd_of_emod_eq_zero (Int.emod_eq_emod_iff_emod_sub_eq_zero.mp same)
    refine ⟨around, abs_le.mpr ?_⟩
    simp only [List.mem_cons, List.not_mem_nil, or_false] at isStep
    omega
  · rintro ⟨around, apart⟩
    refine ⟨⌊raOf position / 360 * bins b size⌋ + bins b size * around - ⌊ra / 360 * bins b size⌋, ?_, ?_⟩
    · have bounds := abs_le.mp apart
      simp only [List.mem_cons, List.not_mem_nil, or_false]
      omega
    · rw [add_sub_cancel, Int.add_mul_emod_self_left]

theorem inside_iff {dec size : ℝ} : |toRadians dec| + toRadians size < π / 2 ↔ |dec| + size < 90 := by
  rw [abs_toRadians, ← toRadians_right, ← toRadians_add, toRadians_lt_iff]

section

variable {size : ℝ} (positive : 0 < size) (bounded : size ≤ 90)

include positive

include bounded

theorem toRadians_size : 0 ≤ toRadians size ∧ toRadians size ≤ π / 2 := by
  refine ⟨toRadians_nonneg positive.le, ?_⟩
  rw [← toRadians_right]
  exact toRadians_le_iff.mpr bounded

theorem exists_step_bin {ra dec ra' dec' : ℝ} (isDec : IsDec dec) (isDec' : IsDec dec')
    (close : angularSeparationDeg ra dec ra' dec' ≤ size) (wide : Wide dec' size) :
    ∃ dx ∈ [-1, 0, 1], (bin ra (band dec' size) size + dx) % bins (band dec' size) size =
      bin (filedRa (ra', dec')) (band dec' size) size := by
  have binsPositive := bins_pos (band dec' size) size
  rw [bin_eq, bin_eq]
  rcases wide with few | ⟨inside, narrow⟩
  · exact exists_step_of_few few (Int.emod_nonneg _ binsPositive.ne') (Int.emod_lt_of_pos _ binsPositive)
      (Int.emod_nonneg _ binsPositive.ne') (Int.emod_lt_of_pos _ binsPositive)
  · rw [angularSeparationDeg_le_iff_cos isDec isDec' positive.le (by linarith)] at close
    have between : 0 < cos (toRadians dec') := by
      refine cos_pos_of_mem_Ioo (abs_lt.mp ?_)
      have := inside_iff.mpr inside
      linarith [(toRadians_size positive bounded).1]
    -- Up to whole turns the right ascensions are at most a bin apart.
    obtain ⟨turns, near⟩ := exists_turns_of_close isDec'.upright isDec.upright (toRadians_size positive bounded).1
      (inside_iff.mpr inside) (by linarith : cos (toRadians size) ≤ sin (toRadians dec') * sin (toRadians dec) +
        cos (toRadians dec') * cos (toRadians dec) * cos (toRadians (ra' - ra)))
    obtain ⟨turns', filed⟩ := @exists_filedRa_turns (ra', dec') between
    rw [filed, ringBin_add_int]
    refine @exists_step_ringBin _ _ _ turns ?_ binsPositive
    have realPositive : (0 : ℝ) < bins (band dec' size) size := Int.cast_pos.mpr binsPositive
    have inDegrees : |ra' / 360 - ra / 360 - turns| * 360 = toDegrees |toRadians (ra' - ra) - turns * (2 * π)| := by
      have := pi_ne_zero
      rw [toDegrees, ← abs_of_pos (by positivity : (0 : ℝ) < 180 / π), ← abs_mul,
        ← abs_of_pos (by norm_num : (0 : ℝ) < 360), ← abs_mul, abs_of_pos (by norm_num : (0 : ℝ) < 360), toRadians]
      congr 1
      field_simp
      ring
    have short : |ra' / 360 - ra / 360 - turns| * 360 ≤ 360 / bins (band dec' size) size :=
      inDegrees.trans_le ((mul_le_mul_of_nonneg_right near (by positivity)).trans narrow)
    rw [le_div_iff₀ realPositive] at short
    linarith

theorem mem_near_iff {positions : List (ℝ × ℝ)} {spacing ra dec : ℝ} (isDecs : ∀ position ∈ positions, IsDec position.2)
    (isDec : IsDec dec) {i : Nat} {position : ℝ × ℝ} (isPosition : positions[i]? = some position)
    (close : angularSeparationDeg ra dec position.1 position.2 ≤ size) :
    i ∈ (along positions positions spacing size).near ra dec ↔ Numbered dec size ∧
      ∃ dx ∈ [-1, 0, 1], (bin ra (band position.2 size) size + dx) % bins (band position.2 size) size =
        bin (filedRa position) (band position.2 size) size := by
  have isDec' := isDecs position (List.mem_of_getElem? isPosition)
  rw [mem_near isDecs]
  constructor
  · rintro ⟨b, isBand, dx, isStep, other, isOther, isKey⟩
    obtain rfl := Option.some.inj (isPosition.symm.trans isOther)
    rw [keyOf, Prod.mk.injEq] at isKey
    obtain ⟨rfl, inBin⟩ := isKey
    exact ⟨numbered_of_mem_bandsAround isBand, dx, isStep, inBin.symm⟩
  · rintro ⟨⟨low, high⟩, dx, isStep, inBin⟩
    -- Declinations differ by at most the separation, so the bands are the same or next to each other.
    have apart := abs_dec_sub_le_of_close isDec isDec' positive.le (by linarith) close
    obtain ⟨step, isStep', inBand⟩ : ∃ step ∈ [-1, 0, 1], ⌊dec / size⌋ + step = ⌊position.2 / size⌋ := by
      refine exists_step_floor ?_
      rw [← sub_div, abs_div, abs_of_pos positive]
      exact (div_le_one positive).mpr apart
    have isFloor : band dec size = ⌊dec / size⌋ := by
      unfold band toI64
      omega
    have isFloor' : band position.2 size = ⌊dec / size⌋ + step := by
      simp only [List.mem_cons, List.not_mem_nil, or_false] at isStep'
      rw [inBand]
      unfold band toI64
      omega
    refine ⟨band position.2 size, ?_, dx, isStep, position, isPosition, by rw [keyOf, inBin]⟩
    rw [mem_bandsAround (isFloor ▸ low) (isFloor ▸ high), isFloor, isFloor']
    exact ⟨step, isStep', rfl⟩

/-- What is within the size of a query is found exactly if the bands around the query have
    numbers, and each such position is in a band wide enough for every position within the
    size, or has the query's right ascension in the same bin of its band or in the next. -/
theorem near_complete_iff {positions : List (ℝ × ℝ)} {ra dec : ℝ} (spacing : ℝ)
    (isDecs : ∀ position ∈ positions, IsDec position.2) (isDec : IsDec dec) :
    Finds positions spacing size ra dec ↔
      ∀ position ∈ positions, angularSeparationDeg ra dec position.1 position.2 ≤ size →
        Numbered dec size ∧
          (Wide position.2 size ∨ Adjacent (bins (band position.2 size) size) ra (raOf position)) := by
  constructor
  · intro finds position listed close
    obtain ⟨i, isPosition⟩ := List.mem_iff_getElem?.mp listed
    obtain ⟨numbered, step⟩ :=
      (mem_near_iff positive bounded isDecs isDec isPosition close).mp (finds i position isPosition close)
    exact ⟨numbered, .inr ((step_iff_adjacent (isDecs position listed) ra size _).mp step)⟩
  · intro reached i position isPosition close
    have listed := List.mem_of_getElem? isPosition
    have isDec' := isDecs position listed
    obtain ⟨numbered, wide | adjacent⟩ := reached position listed close
    · exact (mem_near_iff positive bounded isDecs isDec isPosition close).mpr
        ⟨numbered, exists_step_bin positive bounded isDec isDec' close wide⟩
    · exact (mem_near_iff positive bounded isDecs isDec isPosition close).mpr
        ⟨numbered, (step_iff_adjacent isDec' ra size _).mpr adjacent⟩

end

/-- With the cells the catalogue is searched with, an object is found from a degree away. -/
theorem near_complete_iff_degree :
    0 ∈ (along [(10, 20), (200, -30)] [(10, 20), (200, -30)] (3 / 4) (9 / 4)).near 10 21 := by
  have isDec : IsDec 21 := by norm_num [IsDec]
  have isDecs : ∀ position ∈ [((10 : ℝ), (20 : ℝ)), (200, -30)], IsDec position.2 := by
    intro position listed
    rcases List.mem_pair.mp listed with rfl | rfl <;> norm_num [IsDec]
  have close : angularSeparationDeg 10 21 10 20 ≤ 9 / 4 := by
    rw [angularSeparationDeg_le_iff_cos isDec (isDecs (10, 20) (by simp)) (by norm_num) (by norm_num), sub_self]
    have along := cos_sub (toRadians 20) (toRadians 21)
    have degree : cos (toRadians (9 / 4)) ≤ cos (toRadians 1) :=
      cos_le_cos_of_nonneg_of_le_pi (toRadians_nonneg (by norm_num))
        (by rw [← toRadians_straight]; exact toRadians_le_iff.mpr (by norm_num)) (toRadians_le_iff.mpr (by norm_num))
    rw [← toRadians_sub, show (20 : ℝ) - 21 = -1 by norm_num, toRadians, neg_mul, cos_neg, ← toRadians] at along
    simp only [toRadians, zero_mul, cos_zero, mul_one] at along degree ⊢
    linarith
  refine (near_complete_iff (by norm_num) (by norm_num) (3 / 4) isDecs isDec).mpr (fun position listed within => ?_)
    0 (10, 20) rfl close
  have numbered : Numbered 21 (9 / 4) := by
    have floor : ⌊(21 : ℝ) / (9 / 4)⌋ = 9 := by
      rw [Int.floor_eq_iff]
      norm_num
    rw [Numbered, floor]
    norm_num
  rcases List.mem_pair.mp listed with rfl | rfl
  · refine ⟨numbered, .inr ⟨0, ?_⟩⟩
    norm_num [raOf]
  · have apart := abs_dec_sub_le_of_close isDec (isDecs (200, -30) (by simp)) (by norm_num) (by norm_num) within
    norm_num [abs_of_neg] at apart

theorem bins_near_pole : bins (-39) (9 / 4) = 6 := by
  have edge : min (max |((-39 : Int) : ℝ) * (9 / 4)| |((-39 : Int) : ℝ) * (9 / 4) + 9 / 4|) (89999 / 1000) = 90 - 9 / 4 := by
    norm_num [abs_of_neg]
  have cosine : cos (toRadians (90 - 9 / 4)) = sin (toRadians (9 / 4)) := by
    rw [toRadians_sub, toRadians_right, cos_pi_div_two_sub]
  have low := pi_gt_d2
  have high := pi_lt_d2
  have angle : 157 / 4000 < toRadians (9 / 4) ∧ toRadians (9 / 4) < 1575 / 40000 := by
    rw [toRadians]
    constructor <;> linarith
  have above := sin_lt (by linarith : 0 < toRadians (9 / 4))
  have below := sin_gt_sub_cube (by linarith : 0 < toRadians (9 / 4))
  have cube : toRadians (9 / 4) ^ 3 / 6 ≤ (1575 / 40000) ^ 3 / 6 := by
    have short := angle.2.le
    have nonneg := toRadians_nonneg (by norm_num : (0 : ℝ) ≤ 9 / 4)
    gcongr
  have six : ⌊360 * sin (toRadians (9 / 4)) / (9 / 4)⌋ = 6 := by
    rw [Int.floor_eq_iff]
    constructor <;> norm_num <;> linarith
  simp only [bins, edge, cosine, six]
  decide

theorem near_pole_close : cos (toRadians (9 / 4)) ≤
    sin (toRadians (-(889 / 10))) * sin (toRadians (-(877 / 10))) +
      cos (toRadians (-(889 / 10))) * cos (toRadians (-(877 / 10))) * cos (toRadians (0 - 299)) := by
  have low := pi_gt_d2
  have high := pi_lt_d2
  obtain ⟨degree, isDegree⟩ : ∃ degree, degree = π / 180 := ⟨_, rfl⟩
  have bounds : 0 < degree ∧ degree < 7 / 400 := by
    rw [isDegree]
    constructor <;> linarith
  have first : toRadians (-(889 / 10)) = -(π / 2 - 11 / 10 * degree) := by
    rw [toRadians, isDegree]
    ring
  have second : toRadians (-(877 / 10)) = -(π / 2 - 23 / 10 * degree) := by
    rw [toRadians, isDegree]
    ring
  have turned : toRadians (0 - 299) = 61 * degree - 2 * π := by
    rw [toRadians, isDegree]
    ring
  have size : toRadians (9 / 4) = 9 / 4 * degree := by rw [toRadians, isDegree]
  rw [first, second, turned, size, sin_neg, sin_neg, cos_neg, cos_neg, sin_pi_div_two_sub, sin_pi_div_two_sub,
    cos_pi_div_two_sub, cos_pi_div_two_sub, cos_sub_two_pi]
  have small : degree ^ 2 ≤ 49 / 160000 := (pow_le_pow_left₀ bounds.1.le bounds.2.le 2).trans (by norm_num)
  have nonneg : 0 ≤ degree ^ 2 := sq_nonneg degree
  have cube : degree * degree ^ 2 ≤ degree * (49 / 160000) := mul_le_mul_of_nonneg_left small bounds.1.le
  have fourth : degree ^ 2 * degree ^ 2 ≤ degree ^ 2 * (49 / 160000) := mul_le_mul_of_nonneg_left small nonneg
  have cosine {angle square : ℝ} (isSquare : angle ^ 2 / 2 = square * degree ^ 2) : 1 - square * degree ^ 2 ≤ cos angle :=
    isSquare ▸ one_sub_sq_div_two_le_cos
  -- Both sides to the second order in a degree.
  have one := @cosine (11 / 10 * degree) (121 / 200) (by ring)
  have two := @cosine (23 / 10 * degree) (529 / 200) (by ring)
  have turn : 43 / 100 ≤ cos (61 * degree) :=
    (by linarith : (43 : ℝ) / 100 ≤ 1 - 3721 / 2 * degree ^ 2).trans (cosine (by ring))
  have cosines := mul_le_mul one two (by linarith) (by linarith)
  have cosines' : (1 - 121 / 200 * degree ^ 2) * (1 - 529 / 200 * degree ^ 2) =
      1 - 13 / 4 * degree ^ 2 + 121 / 200 * 529 / 200 * (degree ^ 2 * degree ^ 2) := by ring
  have fourthNonneg := mul_nonneg nonneg nonneg
  have sine := sin_gt_sub_cube (by linarith : 0 < 11 / 10 * degree)
  have sine' := sin_gt_sub_cube (by linarith : 0 < 23 / 10 * degree)
  have first_ : degree ≤ sin (11 / 10 * degree) := by linarith
  have second_ : 2 * degree ≤ sin (23 / 10 * degree) := by linarith
  have sines := mul_le_mul first_ second_ (by linarith) (by linarith)
  have product := mul_le_mul sines turn (by norm_num) (by linarith [mul_pos bounds.1 bounds.1])
  have bound := (abs_le.mp (cos_bound (x := 9 / 4 * degree) (by rw [abs_of_pos (by linarith)]; linarith))).2
  rw [abs_of_pos (by linarith : 0 < 9 / 4 * degree)] at bound
  linarith

/-- Near the pole an object is not found from less than the size away. -/
theorem near_misses_near_pole : angularSeparationDeg 299 (-(889 / 10)) 0 (-(877 / 10)) ≤ 9 / 4 ∧
    0 ∉ (along [(0, -(877 / 10))] [(0, -(877 / 10))] (3 / 4) (9 / 4)).near 299 (-(889 / 10)) := by
  have isDec : IsDec (-(889 / 10)) := by norm_num [IsDec, abs_of_neg]
  have isDec' : IsDec (-(877 / 10)) := by norm_num [IsDec, abs_of_neg]
  constructor
  · exact (angularSeparationDeg_le_iff_cos isDec isDec' (by norm_num) (by norm_num)).mpr near_pole_close
  · have isDecs : ∀ position ∈ [((0 : ℝ), -(877 / 10 : ℝ))], IsDec position.2 := by
      intro position listed
      rw [List.mem_singleton.mp listed]
      exact isDec'
    intro found
    obtain ⟨b, -, dx, isStep, position, isPosition, isKey⟩ := (mem_near isDecs).mp found
    cases List.mem_singleton.mp (List.mem_of_getElem? isPosition)
    -- The query is in bin 4 of the position's band, and the position in bin 0 of six.
    have inBand : band (-(877 / 10)) (9 / 4) = -39 := by
      have floor : ⌊(-(877 / 10) : ℝ) / (9 / 4)⌋ = -39 := by
        rw [Int.floor_eq_iff]
        norm_num
      rw [band, floor]
      decide
    have inBin : ringBin 6 (299 / 360) = 4 := by
      have floor : ⌊(299 / 360 : ℝ) * (6 : Int)⌋ = 4 := by
        rw [Int.floor_eq_iff]
        norm_num
      rw [ringBin, floor]
      decide
    rw [keyOf, filedRa_zero isDec', Prod.mk.injEq] at isKey
    obtain ⟨rfl, isBin⟩ := isKey
    rw [inBand, bin_eq, bin_eq, bins_near_pole, inBin, zero_div, ringBin, zero_mul, Int.floor_zero] at isBin
    simp only [List.mem_cons, List.not_mem_nil, or_false] at isStep
    omega

end SkyGrid

end Boom.Utils
