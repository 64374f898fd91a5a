import Boom.Foundations.SortOrder

/-! # Integers as doubles

`F64.ofInt` rounds: no other double lies between an integer and the one it becomes, and a
larger integer becomes no smaller double. -/

namespace Boom.Foundations.F64

/-! ## Magnitudes -/

def scaleBits : Nat := 1074

def scale : Nat := 2 ^ scaleBits

theorem scale_pos : 0 < scale := Nat.two_pow_pos _

theorem unitsOf_normal {exponent significand : Nat} (normal : leadingBit ≤ significand)
    (bounded : significand ≤ 2 * leadingBit) :
    unitsOf (exponent * leadingBit + significand) = significand * 2 ^ exponent := by
  unfold unitsOf
  rw [if_neg (by omega)]
  unfold leadingBit at *
  by_cases carry : significand < 2 * 0x10000000000000
  · have fraction : (exponent * 0x10000000000000 + significand) % 0x10000000000000 = significand - 0x10000000000000 := by
      omega
    have biased : (exponent * 0x10000000000000 + significand) / 0x10000000000000 - 1 = exponent := by omega
    rw [fraction, biased, Nat.add_sub_cancel' normal]
  · -- All bits of the fraction carry, into the exponent.
    obtain rfl : significand = 2 * 0x10000000000000 := by omega
    have fraction : (exponent * 0x10000000000000 + 2 * 0x10000000000000) % 0x10000000000000 = 0 := by omega
    have biased : (exponent * 0x10000000000000 + 2 * 0x10000000000000) / 0x10000000000000 - 1 = exponent + 1 := by omega
    rw [fraction, biased, Nat.pow_succ, Nat.mul_comm (2 ^ _) 2, ← Nat.mul_assoc, Nat.add_zero,
      Nat.mul_comm 0x10000000000000 2]

def magnitudeBelow (number : Nat) : Nat :=
  if number = 0 then 0
  else if number.log2 ≤ 52 then (number.log2 + 1022) * leadingBit + number * 2 ^ (52 - number.log2)
  else (number.log2 + 1022) * leadingBit + number / 2 ^ (number.log2 - 52)

def RoundsUp (number : Nat) : Prop :=
  52 < number.log2 ∧
    let unit := 2 ^ (number.log2 - 52)
    unit < 2 * (number % unit) ∨ (2 * (number % unit) = unit ∧ number / unit % 2 = 1)

instance (number : Nat) : Decidable (RoundsUp number) := inferInstanceAs (Decidable (_ ∧ _))

theorem magnitudeOf_eq (number : Nat) :
    magnitudeOf number = magnitudeBelow number + if RoundsUp number then 1 else 0 := by
  unfold magnitudeOf magnitudeBelow RoundsUp leadingBit
  by_cases zero : number = 0
  · simp [zero]
  · by_cases small : number.log2 ≤ 52
    · simp [zero, small, Nat.not_lt.mpr small]
    · simp [zero, small, Nat.lt_of_not_le small]

variable {number : Nat}

theorem log2_bounds (positive : number ≠ 0) :
    2 ^ number.log2 ≤ number ∧ number < 2 * 2 ^ number.log2 :=
  ⟨Nat.log2_self_le positive, by simpa [Nat.pow_succ, Nat.mul_comm] using Nat.lt_log2_self (n := number)⟩

theorem log2_large_of_le {number larger : Nat} (less : number ≤ larger) (large : 52 < number.log2) :
    52 < larger.log2 := by
  have positive : number ≠ 0 := by
    rintro rfl
    exact absurd large (by decide)
  exact (Nat.le_log2 (by omega)).mpr (((Nat.le_log2 positive).mp large).trans less)

theorem unitsOf_magnitudeBelow_small (small : number.log2 ≤ 52) :
    unitsOf (magnitudeBelow number) = number * scale := by
  unfold magnitudeBelow
  by_cases zero : number = 0
  · simp [zero, unitsOf_zero]
  · obtain ⟨above, below⟩ := log2_bounds zero
    have split : 2 ^ number.log2 * 2 ^ (52 - number.log2) = leadingBit := by
      rw [← Nat.pow_add, Nat.add_sub_cancel' small]
      rfl
    have positive : 0 < 2 ^ (52 - number.log2) := Nat.two_pow_pos _
    have power : 2 ^ (52 - number.log2) * 2 ^ (number.log2 + 1022) = scale := by
      rw [← Nat.pow_add, scale, scaleBits]
      exact congrArg (2 ^ ·) (by omega)
    rw [if_neg zero, if_pos small, unitsOf_normal]
    · rw [Nat.mul_assoc, power]
    · rw [← split]
      exact Nat.mul_le_mul_right _ above
    · rw [← split, ← Nat.mul_assoc]
      exact Nat.mul_le_mul_right _ below.le

theorem significand_bounds (large : 52 < number.log2) :
    leadingBit ≤ number / 2 ^ (number.log2 - 52) ∧ number / 2 ^ (number.log2 - 52) < 2 * leadingBit := by
  have positive : number ≠ 0 := by
    rintro rfl
    exact absurd large (by decide)
  obtain ⟨above, below⟩ := log2_bounds positive
  have split : leadingBit * 2 ^ (number.log2 - 52) = 2 ^ number.log2 := by
    have bits : leadingBit = 2 ^ 52 := rfl
    rw [bits, ← Nat.pow_add, Nat.add_sub_cancel' large.le]
  constructor
  · rw [Nat.le_div_iff_mul_le (Nat.two_pow_pos _), split]
    exact above
  · rw [Nat.div_lt_iff_lt_mul (Nat.two_pow_pos _), Nat.mul_assoc, split]
    exact below

theorem power_of_large (large : 52 < number.log2) :
    2 ^ (number.log2 + 1022) = 2 ^ (number.log2 - 52) * scale := by
  rw [scale, ← Nat.pow_add, scaleBits]
  exact congrArg (2 ^ ·) (by omega)

theorem magnitudeBelow_of_large (large : 52 < number.log2) :
    magnitudeBelow number = (number.log2 + 1022) * leadingBit + number / 2 ^ (number.log2 - 52) := by
  rw [magnitudeBelow, if_neg (by rintro rfl; exact absurd large (by decide)), if_neg large.not_ge]

theorem unitsOf_magnitudeBelow_le (number : Nat) : unitsOf (magnitudeBelow number) ≤ number * scale := by
  rcases Nat.lt_or_ge 52 number.log2 with large | small
  · obtain ⟨above, below⟩ := significand_bounds large
    have power : 2 ^ (number.log2 + 1022) = 2 ^ (number.log2 - 52) * scale := power_of_large large
    rw [magnitudeBelow_of_large large, unitsOf_normal above below.le, power, ← Nat.mul_assoc]
    exact Nat.mul_le_mul_right _ (Nat.div_mul_le_self _ _)
  · exact (unitsOf_magnitudeBelow_small small).le

theorem lt_unitsOf_magnitudeBelow_succ (number : Nat) : number * scale < unitsOf (magnitudeBelow number + 1) := by
  rcases Nat.lt_or_ge 52 number.log2 with large | small
  · obtain ⟨above, below⟩ := significand_bounds large
    have power : 2 ^ (number.log2 + 1022) = 2 ^ (number.log2 - 52) * scale := power_of_large large
    rw [magnitudeBelow_of_large large, Nat.add_assoc, unitsOf_normal (by omega) (by omega), power, ← Nat.mul_assoc]
    refine Nat.mul_lt_mul_of_pos_right ?_ scale_pos
    rw [Nat.mul_comm]
    exact Nat.lt_mul_div_succ _ (Nat.two_pow_pos _)
  · rw [← unitsOf_magnitudeBelow_small small]
    exact unitsOf_lt_succ _

theorem unitsOf_magnitudeBelow_lt (up : RoundsUp number) :
    unitsOf (magnitudeBelow number) < number * scale := by
  have large := up.1
  obtain ⟨above, below⟩ := significand_bounds large
  have power : 2 ^ (number.log2 + 1022) = 2 ^ (number.log2 - 52) * scale := power_of_large large
  rw [magnitudeBelow_of_large large, unitsOf_normal above below.le, power, ← Nat.mul_assoc]
  refine Nat.mul_lt_mul_of_pos_right ?_ scale_pos
  have whole := Nat.div_add_mod number (2 ^ (number.log2 - 52))
  have unit : 0 < 2 ^ (number.log2 - 52) := Nat.two_pow_pos _
  rw [Nat.mul_comm] at whole
  rcases up.2 with past | middle <;> omega

theorem le_magnitudeOf {number magnitude : Nat} (below : unitsOf magnitude ≤ number * scale) :
    magnitude ≤ magnitudeOf number := by
  have less := unitsOf_strictMono.lt_iff_lt.mp (below.trans_lt (lt_unitsOf_magnitudeBelow_succ number))
  rw [magnitudeOf_eq]
  omega

theorem magnitudeOf_le {number magnitude : Nat} (above : number * scale ≤ unitsOf magnitude) :
    magnitudeOf number ≤ magnitude := by
  rw [magnitudeOf_eq]
  split
  · next up =>
    have less := unitsOf_strictMono.lt_iff_lt.mp ((unitsOf_magnitudeBelow_lt up).trans_le above)
    omega
  · exact unitsOf_strictMono.le_iff_le.mp ((unitsOf_magnitudeBelow_le number).trans above)

theorem magnitudeBelow_large (large : 52 < number.log2) :
    magnitudeBelow number / leadingBit = number.log2 + 1023 := by
  obtain ⟨above, below⟩ := significand_bounds large
  rw [magnitudeBelow_of_large large]
  unfold leadingBit at *
  omega

theorem magnitudeOf_mono {number larger : Nat} (less : number ≤ larger) : magnitudeOf number ≤ magnitudeOf larger := by
  have scaled : number * scale ≤ larger * scale := Nat.mul_le_mul_right _ less
  have below : magnitudeBelow number < magnitudeBelow larger + 1 :=
    unitsOf_strictMono.lt_iff_lt.mp (((unitsOf_magnitudeBelow_le number).trans scaled).trans_lt
      (lt_unitsOf_magnitudeBelow_succ larger))
  rw [magnitudeOf_eq, magnitudeOf_eq]
  by_cases up : RoundsUp number
  · rcases Nat.lt_or_ge (magnitudeBelow number) (magnitudeBelow larger) with apart | together
    · split <;> omega
    · -- Both lie between the same two doubles, and the larger is the farther from the lower one.
      have same : magnitudeBelow number = magnitudeBelow larger := by omega
      have up' : RoundsUp larger := by
        have large' : 52 < larger.log2 := log2_large_of_le less up.1
        have sameBits : larger.log2 = number.log2 := by
          have bits := magnitudeBelow_large up.1
          rw [same, magnitudeBelow_large large'] at bits
          omega
        have sameKept : larger / 2 ^ (number.log2 - 52) = number / 2 ^ (number.log2 - 52) := by
          have parts := same
          rw [magnitudeBelow_of_large up.1, magnitudeBelow_of_large large', sameBits] at parts
          omega
        have unit : 0 < 2 ^ (number.log2 - 52) := Nat.two_pow_pos _
        have whole := Nat.div_add_mod number (2 ^ (number.log2 - 52))
        have whole' := Nat.div_add_mod larger (2 ^ (number.log2 - 52))
        rw [sameKept] at whole'
        refine ⟨large', ?_⟩
        dsimp only
        rw [sameBits, sameKept]
        rcases up.2 with past | ⟨middle, odd⟩ <;> omega
      rw [if_pos up, if_pos up', same]
  · rw [if_neg up]
    omega

/-! ## Integers -/

def InRange (value : Int) : Prop := value.natAbs ≤ 2 ^ 63

instance (value : Int) : Decidable (InRange value) := inferInstanceAs (Decidable (_ ≤ _))

variable {value : Int}

section

variable (inRange : InRange value)
include inRange

theorem magnitudeOf_lt_infinite : magnitudeOf value.natAbs < infinite := by
  refine (magnitudeOf_mono inRange).trans_lt ?_
  decide +kernel

theorem ofInt_parts :
    (ofInt value).negative = decide (value < 0) ∧ (ofInt value).magnitude = magnitudeOf value.natAbs := by
  have bounded := magnitudeOf_lt_infinite inRange
  unfold infinite at bounded
  unfold negative magnitude ofInt signBit
  rw [BitVec.toNat_ofNat, decide_eq_decide]
  by_cases negative : value < 0
  · rw [if_pos negative]
    constructor <;> omega
  · rw [if_neg negative]
    constructor <;> omega

theorem rank_ofInt : (ofInt value).rank =
      if value < 0 then -(magnitudeOf value.natAbs : Int) else (magnitudeOf value.natAbs : Int) := by
  obtain ⟨negative, magnitude⟩ := ofInt_parts inRange
  rw [rank, negative, magnitude]
  simp only [decide_eq_true_eq]

theorem isFinite_ofInt : (ofInt value).isFinite = true := by
  rw [isFinite, (ofInt_parts inRange).2, decide_eq_true_eq]
  exact magnitudeOf_lt_infinite inRange

end

theorem magnitudeOf_zero : magnitudeOf 0 = 0 := rfl

theorem rank_ofInt_mono {value larger : Int} (inRange : InRange value) (inRange' : InRange larger)
    (less : value ≤ larger) : (ofInt value).rank ≤ (ofInt larger).rank := by
  rw [rank_ofInt inRange, rank_ofInt inRange']
  have upward := @magnitudeOf_mono value.natAbs larger.natAbs
  have downward := @magnitudeOf_mono larger.natAbs value.natAbs
  split <;> split <;> omega

theorem mul_scale (value : Int) :
    value * scale = if value < 0 then -((value.natAbs * scale : Nat) : Int) else (value.natAbs * scale : Nat) := by
  rw [Int.natCast_mul]
  split
  · next negative =>
    rw [← Int.neg_mul, Int.ofNat_natAbs_of_nonpos negative.le, Int.neg_neg]
  · next positive =>
    rw [Int.natAbs_of_nonneg (Int.not_lt.mp positive)]

theorem rank_ofInt_nearest {double : F64} (inRange : InRange value) :
    (value * scale ≤ double.units → (ofInt value).rank ≤ double.rank) ∧
      (double.units ≤ value * scale → double.rank ≤ (ofInt value).rank) := by
  have upward := @le_magnitudeOf value.natAbs double.magnitude
  have downward := @magnitudeOf_le value.natAbs double.magnitude
  -- On opposite sides of zero both are zero.
  have integer := @magnitudeOf_le value.natAbs 0
  have none_ := @le_magnitudeOf 0 double.magnitude
  rw [unitsOf_zero] at integer
  rw [Nat.zero_mul, magnitudeOf_zero] at none_
  rw [rank_ofInt inRange, mul_scale]
  unfold units rank
  cases negative : double.negative <;> by_cases negative' : value < 0 <;>
    simp only [negative', if_true, if_false, Bool.false_eq_true] <;> omega

theorem units_ofInt (small : value.natAbs ≤ 2 ^ 53) : (ofInt value).units = value * scale := by
  have inRange : InRange value := small.trans (by decide)
  have exact_ : unitsOf (magnitudeOf value.natAbs) = value.natAbs * scale := by
    have found : ∃ magnitude, unitsOf magnitude = value.natAbs * scale := by
      rcases Nat.lt_or_ge value.natAbs (2 ^ 53) with below | edge
      · have bits : value.natAbs.log2 ≤ 52 := by
          by_cases zero : value.natAbs = 0
          · simp [zero]
          · exact Nat.lt_succ_iff.mp ((Nat.log2_lt zero).mpr below)
        exact ⟨_, unitsOf_magnitudeBelow_small bits⟩
      · obtain same : value.natAbs = 2 ^ 53 := le_antisymm small edge
        exact ⟨magnitudeOf (2 ^ 53), by rw [same]; decide +kernel⟩
    obtain ⟨magnitude, same⟩ := found
    rw [le_antisymm (magnitudeOf_le same.ge) (le_magnitudeOf same.le), same]
  obtain ⟨negative, magnitude⟩ := ofInt_parts inRange
  rw [units, negative, magnitude, exact_, mul_scale]
  simp only [decide_eq_true_eq]

/-! ## Against exact values -/

theorem toRat_eq (value : F64) : value.toRat * scale = value.units := by
  have cast : (scale : ℚ) = 2 ^ 1074 := by
    rw [scale, Nat.cast_pow, Nat.cast_ofNat, scaleBits]
  rw [toRat, cast, div_mul_cancel₀]
  exact (pow_pos zero_lt_two _).ne'

theorem toRat_le_intCast {double : F64} : double.toRat ≤ value ↔ double.units ≤ value * scale := by
  rw [← mul_le_mul_iff_left₀ (Nat.cast_pos.mpr scale_pos), toRat_eq]
  norm_cast

theorem intCast_le_toRat {double : F64} : value ≤ double.toRat ↔ value * scale ≤ double.units := by
  rw [← mul_le_mul_iff_left₀ (Nat.cast_pos.mpr scale_pos), toRat_eq]
  norm_cast

theorem toRat_ofInt (small : value.natAbs ≤ 2 ^ 53) : (ofInt value).toRat = value := by
  have same := units_ofInt small
  exact le_antisymm (toRat_le_intCast.mpr same.le) (intCast_le_toRat.mpr same.ge)

theorem intCast_lt_toRat_largest (inRange : InRange value) : (value : ℚ) < largest.toRat := by
  have wide : ((2 ^ 63 : Nat) : Int) * scale < largest.units := by decide +kernel
  have bounded : value ≤ (2 ^ 63 : Nat) := Int.le_natAbs.trans (Int.ofNat_le.mpr inRange)
  have scaled : value * scale ≤ ((2 ^ 63 : Nat) : Int) * scale := Int.mul_le_mul_of_nonneg_right bounded (Int.natCast_nonneg _)
  rw [← not_le, toRat_le_intCast, not_le]
  exact scaled.trans_lt wide

theorem rank_lt_largest {value : F64} (finite : value.isFinite = true) (smaller : value ≠ largest) :
    value.rank < largest.rank := by
  have top : largest.rank = (infinite : Int) - 1 := by decide
  have bounded := of_decide_eq_true finite
  rw [top]
  cases sign : value.negative with
  | true =>
    have positive : 1 < infinite := by decide
    rw [rank, sign, if_pos rfl]
    omega
  | false =>
    have different : value.magnitude ≠ largest.magnitude := fun same => smaller (eq_of_parts sign same)
    have last : largest.magnitude = infinite - 1 := by decide
    rw [rank, sign, if_neg Bool.false_ne_true]
    omega

theorem rank_lt_infinity {value : F64} (finite : value.isFinite = true) : value.rank < infinity.rank := by
  have top : infinity.rank = (infinite : Int) := by decide
  have bounded := of_decide_eq_true finite
  rw [top, rank]
  split <;> omega

/-! ## Numbers read as doubles -/

def Reads (number : ℚ) (value : F64) : Prop :=
  value.isFinite = true ∧ (number = value.toRat ∨ ∃ integer : Int, InRange integer ∧ number = integer ∧ value = ofInt integer)

theorem reads_double {value : F64} (finite : value.isFinite = true) : Reads value.toRat value := ⟨finite, .inl rfl⟩

theorem reads_int (inRange : InRange value) : Reads value (ofInt value) :=
  ⟨isFinite_ofInt inRange, .inr ⟨value, inRange, rfl, rfl⟩⟩

theorem Reads.mono {number number' : ℚ} {value value' : F64} (reads : Reads number value) (reads' : Reads number' value')
    (less : number ≤ number') : value.rank ≤ value'.rank := by
  obtain ⟨-, rfl | ⟨integer, inRange, rfl, rfl⟩⟩ := reads <;>
    obtain ⟨-, rfl | ⟨integer', inRange', rfl, rfl⟩⟩ := reads'
  · exact (toRat_le_iff _ _).mp less
  · exact (rank_ofInt_nearest inRange').2 (toRat_le_intCast.mp less)
  · exact (rank_ofInt_nearest inRange).1 (intCast_le_toRat.mp less)
  · exact rank_ofInt_mono inRange inRange' (Int.cast_le.mp less)

theorem toRat_one : one.toRat = 1 := by decide +kernel

theorem Reads.lt_one_iff {number : ℚ} {value : F64} (reads : Reads number value) : value.rank < one.rank ↔ number < 1 := by
  have oneReads : Reads 1 one := toRat_one ▸ reads_double (by decide)
  constructor
  · intro less
    by_contra large
    exact absurd (oneReads.mono reads (not_lt.mp large)) (not_le.mpr less)
  · intro less
    obtain ⟨-, rfl | ⟨integer, inRange, rfl, rfl⟩⟩ := reads
    · rw [← not_le, ← toRat_le_iff, toRat_one, not_le]
      exact less
    · have negative : integer ≤ 0 := by
        have below : integer < 1 := by exact_mod_cast less
        omega
      have none_ : InRange 0 := Nat.zero_le _
      exact (rank_ofInt_mono inRange none_ negative).trans_lt (by decide)

end Boom.Foundations.F64
