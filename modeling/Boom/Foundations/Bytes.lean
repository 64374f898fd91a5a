import Mathlib

/-! # Numbers in bytes

The bytes of a number, the lowest first, and the bytes of a vector between two places, which are
there or not.  A vector has fewer items than a signed word can count. -/

namespace Boom.Foundations

def toLeBytes : Nat → Nat → List UInt8
  | 0, _ => []
  | width + 1, number => UInt8.ofNat number :: toLeBytes width (number / 256)

def fromLeBytes : List UInt8 → Nat
  | [] => 0
  | byte :: rest => byte.toNat + 256 * fromLeBytes rest

theorem length_toLeBytes (width number : Nat) : (toLeBytes width number).length = width := by
  induction width generalizing number with
  | zero => rfl
  | succ width ih => rw [toLeBytes, List.length_cons, ih]

theorem fromLeBytes_toLeBytes {width number : Nat} (small : number < 256 ^ width) :
    fromLeBytes (toLeBytes width number) = number := by
  induction width generalizing number with
  | zero =>
    rw [Nat.pow_zero, Nat.lt_one_iff] at small
    exact small.symm
  | succ width ih =>
    have rest : number / 256 < 256 ^ width := Nat.div_lt_of_lt_mul (by rwa [← Nat.pow_succ'])
    rw [toLeBytes, fromLeBytes, ih rest, UInt8.toNat_ofNat']
    omega

abbrev ByteVec := { bytes : List UInt8 // bytes.length < 2 ^ 63 }

def ByteVec.get (buf : ByteVec) (start stop : Nat) : Option ByteVec :=
  if inside : start ≤ stop ∧ stop ≤ buf.val.length then
    some ⟨(buf.val.take stop).drop start, by
      rw [List.length_drop, List.length_take]
      have small := buf.property
      omega⟩
  else none

namespace ByteVec

variable {buf : ByteVec} {start stop : Nat}

theorem get_eq_some_iff {bytes : ByteVec} :
    buf.get start stop = some bytes ↔
      (start ≤ stop ∧ stop ≤ buf.val.length) ∧ (buf.val.take stop).drop start = bytes.val := by
  unfold get
  split
  next inside => simp only [Option.some.injEq, Subtype.ext_iff, inside, and_self, true_and]
  next outside => simp only [reduceCtorEq, outside, false_and]

theorem get_eq_none_iff (le : start ≤ stop) : buf.get start stop = none ↔ buf.val.length < stop := by
  unfold get
  split
  next inside => simp only [reduceCtorEq, false_iff, Nat.not_lt, inside.2]
  next outside => simp only [true_iff]; omega

theorem get_middle {before after : List UInt8} (bytes : ByteVec) (parts : buf.val = before ++ (bytes.val ++ after))
    (starts : start = before.length) (stops : stop = start + bytes.val.length) : buf.get start stop = some bytes := by
  subst starts stops
  rw [get_eq_some_iff, parts]
  refine ⟨⟨Nat.le_add_right _ _, ?_⟩, ?_⟩
  · rw [List.length_append, List.length_append]
    omega
  · rw [List.take_length_add_append, List.drop_left, List.take_left]

end ByteVec

end Boom.Foundations
