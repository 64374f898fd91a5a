import Boom.Foundations.DoubleArithmetic
import Mathlib.Tactic.Ring

/-! # Single-precision numbers

A number is its value: a finite one is a number of units, of which the smallest positive one has
one.  A result is the exact one rounded to the nearest number, the even one of two.

A sum of squares is zero only when every square is, and then dividing by its root gives no
number.  Any other root is large enough to divide each of the numbers by. -/

namespace Boom.Foundations

/-! ## Bounds of a rounded quotient -/

theorem le_roundEven {number divisor bound : Nat} (positive : 0 < divisor) (le : bound * divisor ≤ number) :
    bound ≤ roundEven number divisor := by
  have kept : bound ≤ number / divisor := (Nat.le_div_iff_mul_le positive).mpr le
  unfold roundEven
  dsimp only
  split <;> omega

theorem roundEven_le {number divisor bound : Nat} (positive : 0 < divisor) (le : number ≤ bound * divisor) :
    roundEven number divisor ≤ bound := by
  have whole := Nat.div_add_mod number divisor
  have rest := Nat.mod_lt number positive
  have kept : number / divisor ≤ bound := Nat.div_le_of_le_mul (by rw [Nat.mul_comm]; exact le)
  unfold roundEven
  dsimp only
  split
  · -- Rounded up, there is a rest, and the bound is not reached without it.
    rcases Nat.lt_or_ge (number / divisor) bound with less | all
    · exact less
    · obtain same : number / divisor = bound := le_antisymm kept all
      rw [same, Nat.mul_comm] at whole
      omega
  · exact kept

section

variable {precision number divisor exponent : Nat}

theorem roundBits_zero (precision divisor : Nat) : roundBits precision 0 divisor = 0 := by
  unfold roundBits roundEven
  simp

theorem le_roundBits (bits : 1 ≤ precision) (positive : 0 < divisor) (le : 2 ^ exponent * divisor ≤ number) :
    2 ^ exponent ≤ roundBits precision number divisor := by
  have quotient : 2 ^ exponent ≤ number / divisor := (Nat.le_div_iff_mul_le positive).mpr le
  have power := Nat.two_pow_pos exponent
  have log : exponent ≤ (number / divisor).log2 := (Nat.le_log2 (by omega)).mpr quotient
  have self := Nat.log2_self_le (show number / divisor ≠ 0 by omega)
  unfold roundBits
  dsimp only
  generalize isShift : (number / divisor).log2 + 1 - precision = shift
  have wide : 0 < divisor * 2 ^ shift := Nat.mul_pos positive (Nat.two_pow_pos _)
  rcases Nat.le_total shift exponent with fine | coarse
  · obtain ⟨more, rfl⟩ := Nat.exists_eq_add_of_le fine
    rw [Nat.pow_add, Nat.mul_comm]
    refine Nat.mul_le_mul_right _ (le_roundEven wide ?_)
    calc 2 ^ more * (divisor * 2 ^ shift) = 2 ^ (shift + more) * divisor := by rw [Nat.pow_add]; ring
      _ ≤ number := le
  · -- Units coarser than the power, of which there is at least one.
    have smaller : 2 ^ shift ≤ number / divisor := (Nat.pow_le_pow_right (by omega) (by omega)).trans self
    have one : 1 ≤ roundEven number (divisor * 2 ^ shift) := by
      refine le_roundEven wide ?_
      rw [Nat.one_mul, Nat.mul_comm]
      exact (Nat.le_div_iff_mul_le positive).mp smaller
    exact (Nat.pow_le_pow_right (by omega) coarse).trans (Nat.le_mul_of_pos_left _ one)

theorem roundBits_le (bits : 1 ≤ precision) (positive : 0 < divisor) (le : number ≤ 2 ^ exponent * divisor) :
    roundBits precision number divisor ≤ 2 ^ exponent := by
  have quotient : number / divisor ≤ 2 ^ exponent := Nat.div_le_of_le_mul (by rw [Nat.mul_comm]; exact le)
  have log : (number / divisor).log2 ≤ exponent := by
    by_cases none_ : number / divisor = 0
    · simp [none_]
    · exact (Nat.pow_le_pow_iff_right (by omega : 1 < 2)).mp ((Nat.log2_self_le none_).trans quotient)
  unfold roundBits
  dsimp only
  generalize isShift : (number / divisor).log2 + 1 - precision = shift
  obtain ⟨more, rfl⟩ := Nat.exists_eq_add_of_le (show shift ≤ exponent by omega)
  rw [Nat.pow_add, Nat.mul_comm]
  refine Nat.mul_le_mul_left _ (roundEven_le (Nat.mul_pos positive (Nat.two_pow_pos _)) ?_)
  calc number ≤ 2 ^ (shift + more) * divisor := le
    _ = 2 ^ more * (divisor * 2 ^ shift) := by rw [Nat.pow_add]; ring

end

/-! ## Numbers -/

/-- A single-precision number. -/
inductive F32 where
  | nan
  | infinite (negative : Bool)
  /-- A number of units with a sign, which zero has too. -/
  | finite (negative : Bool) (units : Nat)
deriving DecidableEq, Repr

namespace F32

def scaleBits : Nat := 149

def scale : Nat := 2 ^ scaleBits

@[irreducible] def limitBits : Nat := 277

def largest : Nat := (2 ^ 24 - 1) * 2 ^ 253

def zero : F32 := .finite false 0

def ofBits (bits : Nat) : F32 :=
  let negative := decide (2 ^ 31 ≤ bits)
  let exponent := bits / 2 ^ 23 % 2 ^ 8
  let fraction := bits % 2 ^ 23
  if exponent = 255 then if fraction = 0 then .infinite negative else .nan
  else .finite negative (if exponent = 0 then fraction else (2 ^ 23 + fraction) * 2 ^ (exponent - 1))

def round (negative : Bool) (number divisor : Nat) : F32 :=
  let units := roundBits 24 number divisor
  if 2 ^ limitBits ≤ units then .infinite negative else .finite negative units

def isFinite : F32 → Bool
  | .finite _ _ => true
  | _ => false

def square : F32 → F32
  | .nan => .nan
  | .infinite _ => .infinite false
  | .finite _ units => round false (units * units) scale

def signedUnits (negative : Bool) (units : Nat) : Int := if negative then -units else units

def add : F32 → F32 → F32
  | .nan, _ => .nan
  | _, .nan => .nan
  | .infinite negative, .infinite negative' => if negative = negative' then .infinite negative else .nan
  | .infinite negative, .finite _ _ => .infinite negative
  | .finite _ _, .infinite negative => .infinite negative
  | .finite negative units, .finite negative' units' =>
    let sum := signedUnits negative units + signedUnits negative' units'
    if sum = 0 then .finite (negative && negative') 0 else round (decide (sum < 0)) sum.natAbs 1

def sqrt : F32 → F32
  | .nan => .nan
  | .infinite negative => if negative then .nan else .infinite false
  | .finite negative units =>
    if units = 0 then .finite negative 0
    else if negative then .nan
    else
      let root := (units * scale).sqrt
      round false (2 * root + if root * root = units * scale then 0 else 1) 2

def div : F32 → F32 → F32
  | .nan, _ => .nan
  | _, .nan => .nan
  | .infinite _, .infinite _ => .nan
  | .infinite negative, .finite negative' _ => .infinite (negative != negative')
  | .finite negative _, .infinite negative' => .finite (negative != negative') 0
  | .finite negative units, .finite negative' units' =>
    if units' = 0 then if units = 0 then .nan else .infinite (negative != negative')
    else round (negative != negative') (units * scale) units'

/-! ## Roots of sums of squares -/

def sum (values : List F32) : F32 := values.foldl add zero

def norm (values : List F32) : F32 := (sum (values.map square)).sqrt

def Nonneg : F32 → Prop
  | .finite false _ => True
  | .infinite false => True
  | _ => False

def AtLeast (exponent : Nat) : F32 → Prop
  | .finite false units => 2 ^ exponent ≤ units
  | .infinite false => True
  | _ => False

variable {value other : F32} {values : List F32} {negative : Bool} {units number divisor exponent : Nat}

theorem nonneg_round (number divisor : Nat) : Nonneg (round false number divisor) := by
  unfold round
  dsimp only
  split <;> trivial

theorem atLeast_round (positive : 0 < divisor) (le : 2 ^ exponent * divisor ≤ number) :
    AtLeast exponent (round false number divisor) := by
  unfold round
  dsimp only
  split
  · trivial
  · exact le_roundBits (by decide) positive le

theorem limitBits_eq : limitBits = 277 := by
  unfold limitBits
  rfl

theorem round_zero (negative : Bool) (divisor : Nat) : round negative 0 divisor = .finite negative 0 := by
  unfold round
  rw [roundBits_zero]
  exact if_neg (Nat.not_le.mpr (Nat.two_pow_pos _))

theorem isFinite_round {top : Nat} (below : top < limitBits) (positive : 0 < divisor) (le : number ≤ 2 ^ top * divisor) :
    (round negative number divisor).isFinite = true := by
  have bounded : roundBits 24 number divisor ≤ 2 ^ top := roundBits_le (by decide) positive le
  have less : 2 ^ top < 2 ^ limitBits := Nat.pow_lt_pow_right (by decide) below
  unfold round
  dsimp only
  rw [if_neg (Nat.not_le.mpr (bounded.trans_lt less))]
  rfl

theorem nonneg_add (nonneg : Nonneg value) (nonneg' : Nonneg other) : Nonneg (value.add other) := by
  match value, other with
  | .infinite false, .infinite false => trivial
  | .infinite false, .finite false _ => trivial
  | .finite false _, .infinite false => trivial
  | .finite false units, .finite false units' =>
    simp only [add, signedUnits, Bool.false_eq_true, if_false]
    split
    · trivial
    · rw [decide_eq_false (by omega)]
      exact nonneg_round _ _

theorem atLeast_add (nonneg : Nonneg value) (nonneg' : Nonneg other)
    (one : AtLeast exponent value ∨ AtLeast exponent other) : AtLeast exponent (value.add other) := by
  match value, other with
  | .infinite false, .infinite false => trivial
  | .infinite false, .finite false _ => trivial
  | .finite false _, .infinite false => trivial
  | .finite false units, .finite false units' =>
    have power := Nat.two_pow_pos exponent
    have large : 2 ^ exponent ≤ units + units' := by
      rcases one with first | second
      · exact Nat.le_add_right_of_le first
      · exact Nat.le_add_left_of_le second
    simp only [add, signedUnits, Bool.false_eq_true, if_false]
    rw [if_neg (by omega), decide_eq_false (by omega)]
    exact atLeast_round Nat.one_pos (by omega)

theorem atLeast_foldl (each : ∀ value ∈ values, Nonneg value) {start : F32} (nonneg : Nonneg start)
    (one : AtLeast exponent start ∨ ∃ value ∈ values, AtLeast exponent value) :
    AtLeast exponent (values.foldl add start) := by
  induction values generalizing start with
  | nil => exact one.resolve_right fun some_ => by simp at some_
  | cons value rest ih =>
    obtain ⟨first, others⟩ := List.forall_mem_cons.mp each
    refine ih others (nonneg_add nonneg first) ?_
    rcases one with start | ⟨large, there, isLarge⟩
    · exact .inl (atLeast_add nonneg first (.inl start))
    · rcases List.mem_cons.mp there with rfl | later
      · exact .inl (atLeast_add nonneg first (.inr isLarge))
      · exact .inr ⟨large, later, isLarge⟩

theorem sum_eq_zero (each : ∀ value ∈ values, value = zero) : sum values = zero := by
  unfold sum
  induction values with
  | nil => rfl
  | cons value rest ih =>
    obtain ⟨rfl, others⟩ := List.forall_mem_cons.mp each
    exact ih others

theorem scale_pos : 0 < scale := Nat.two_pow_pos _

theorem nonneg_square (isFinite : value.isFinite = true) : Nonneg value.square := by
  match value with
  | .finite _ _ => exact nonneg_round _ _

theorem square_of_small (small : units ≤ 2 ^ 74) : (F32.finite negative units).square = zero := by
  have half : 2 * (units * units) ≤ scale := by
    calc 2 * (units * units) ≤ 2 * (2 ^ 74 * 2 ^ 74) := Nat.mul_le_mul_left _ (Nat.mul_le_mul small small)
      _ = scale := by decide
  have less : units * units < scale := by have := scale_pos; omega
  have none_ : roundBits 24 (units * units) scale = 0 := by
    unfold roundBits
    rw [Nat.div_eq_of_lt less]
    simp only [Nat.log2_zero, Nat.reduceAdd, Nat.reduceSub, Nat.pow_zero, Nat.mul_one]
    unfold roundEven
    rw [Nat.div_eq_of_lt less, Nat.mod_eq_of_lt less]
    exact if_neg (by omega)
  rw [square, round, none_]
  exact if_neg (Nat.not_le.mpr (Nat.two_pow_pos _))

theorem atLeast_square_of_large (large : 2 ^ 74 < units) : AtLeast 0 (F32.finite negative units).square := by
  by_cases whole : scale ≤ units * units
  · exact atLeast_round scale_pos (by rwa [Nat.pow_zero, Nat.one_mul])
  · have less : units * units < scale := Nat.not_le.mp whole
    have half : scale < 2 * (units * units) := by
      calc scale = 2 * (2 ^ 74 * 2 ^ 74) := by decide
        _ < 2 * (units * units) := by have := Nat.mul_lt_mul'' large large; omega
    have one : roundBits 24 (units * units) scale = 1 := by
      unfold roundBits
      rw [Nat.div_eq_of_lt less]
      simp only [Nat.log2_zero, Nat.reduceAdd, Nat.reduceSub, Nat.pow_zero, Nat.mul_one]
      unfold roundEven
      rw [Nat.div_eq_of_lt less, Nat.mod_eq_of_lt less]
      exact if_pos (.inl half)
    rw [square, round, one]
    split
    · trivial
    · exact le_refl 1

theorem pow_mul_pow_le {first second third fourth : Nat} (le : first + second ≤ third + fourth) :
    2 ^ first * 2 ^ second ≤ 2 ^ third * 2 ^ fourth := by
  rw [← Nat.pow_add, ← Nat.pow_add]
  exact Nat.pow_le_pow_right (by decide) le

theorem atLeast_square (large : 2 ^ 151 ≤ units) : AtLeast 153 (F32.finite negative units).square :=
  atLeast_round scale_pos
    ((pow_mul_pow_le (by decide : 153 + scaleBits ≤ 151 + 151)).trans (Nat.mul_le_mul large large))

theorem atLeast_sqrt {half : Nat} (atLeast : AtLeast exponent value) (twice : half + half ≤ exponent + scaleBits) :
    AtLeast half value.sqrt := by
  match value with
  | .infinite false => trivial
  | .finite false units =>
    have power := Nat.two_pow_pos exponent
    have some_ : units ≠ 0 := by
      rintro rfl
      exact absurd atLeast (Nat.not_le.mpr power)
    have root : 2 ^ half ≤ (units * scale).sqrt := by
      refine Nat.le_sqrt.mpr ?_
      calc 2 ^ half * 2 ^ half = 2 ^ (half + half) := (Nat.pow_add _ _ _).symm
        _ ≤ 2 ^ (exponent + scaleBits) := Nat.pow_le_pow_right (by decide) twice
        _ = 2 ^ exponent * scale := Nat.pow_add _ _ _
        _ ≤ units * scale := Nat.mul_le_mul_right _ atLeast
    simp only [sqrt, some_, if_false, Bool.false_eq_true]
    exact atLeast_round (by decide) (by omega)

def magnitude : F32 → Nat
  | .finite _ units => units
  | _ => 0

theorem isFinite_div {size top : Nat} (finite : value.isFinite = true) (atLeast : AtLeast exponent other)
    (bounded : value.magnitude ≤ 2 ^ size) (below : top < limitBits) (fits : size + scaleBits ≤ top + exponent) :
    (value.div other).isFinite = true := by
  match value, other with
  | .finite _ _, .infinite false => rfl
  | .finite negative units, .finite false divisor =>
    have le : 2 ^ exponent ≤ divisor := atLeast
    have positive : 0 < divisor := (Nat.two_pow_pos exponent).trans_le le
    have scaled : units * scale ≤ 2 ^ top * divisor := by
      calc units * scale ≤ 2 ^ size * 2 ^ scaleBits := Nat.mul_le_mul_right _ bounded
        _ ≤ 2 ^ top * 2 ^ exponent := pow_mul_pow_le fits
        _ ≤ 2 ^ top * divisor := Nat.mul_le_mul_left _ le
    simp only [div, positive.ne', if_false]
    exact isFinite_round below positive scaled

section

variable (finite : ∀ value ∈ values, value.isFinite = true)
include finite

theorem nonneg_squares : ∀ value ∈ values.map square, Nonneg value := by
  intro value there
  obtain ⟨root, isRoot, rfl⟩ := List.mem_map.mp there
  exact nonneg_square (finite root isRoot)

theorem atLeast_norm {half : Nat} (one : ∃ value ∈ values, AtLeast exponent value.square)
    (twice : half + half ≤ exponent + scaleBits) : AtLeast half (norm values) := by
  obtain ⟨value, there, atLeast⟩ := one
  exact atLeast_sqrt (atLeast_foldl (nonneg_squares finite) trivial (.inr ⟨_, List.mem_map_of_mem there, atLeast⟩)) twice

theorem atLeast_norm_of_large (large : ∃ value ∈ values, 2 ^ 74 < value.magnitude) : AtLeast 74 (norm values) := by
  obtain ⟨value, there, large⟩ := large
  refine atLeast_norm finite ⟨value, there, ?_⟩ (by decide : 74 + 74 ≤ 0 + scaleBits)
  match value with
  | .finite _ _ => exact atLeast_square_of_large large

theorem isFinite_div_norm (bounded : ∀ value ∈ values, value.magnitude ≤ 2 ^ limitBits)
    (large : ∃ value ∈ values, 2 ^ 74 < value.magnitude) (there : value ∈ values) :
    (value.div (norm values)).isFinite = true := by
  have limit := limitBits_eq
  rcases Nat.lt_or_ge value.magnitude (2 ^ 151) with small | huge
  · have atLeast := atLeast_norm_of_large finite large
    exact isFinite_div (finite value there) atLeast small.le (by omega) (by decide : 151 + scaleBits ≤ 226 + 74)
  · -- A number this large is no larger than the norm.
    have atLeast : AtLeast 151 (norm values) := by
      refine atLeast_norm finite ⟨value, there, ?_⟩ (by decide : 151 + 151 ≤ 153 + scaleBits)
      match value with
      | .finite _ _ => exact atLeast_square huge
    have scale : scaleBits = 149 := rfl
    exact isFinite_div (finite value there) atLeast (bounded value there) (by omega : limitBits - 1 < limitBits) (by omega)

theorem norm_eq_zero (small : ∀ value ∈ values, value.magnitude ≤ 2 ^ 74) : norm values = zero := by
  have each : ∀ value ∈ values.map square, value = zero := by
    intro value there
    obtain ⟨root, isRoot, rfl⟩ := List.mem_map.mp there
    have isFinite := finite root isRoot
    have small := small root isRoot
    match root with
    | .finite _ _ => exact square_of_small small
  rw [norm, sum_eq_zero each]
  rfl

end

theorem isFinite_div_zero (value : F32) : (value.div zero).isFinite = false := by
  match value with
  | .nan => rfl
  | .infinite _ => rfl
  | .finite _ units =>
    simp only [div, zero, if_true]
    split <;> rfl

end F32

end Boom.Foundations
