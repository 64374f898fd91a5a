import Boom.Foundations.Bytes
import Boom.Foundations.Checked

/-! # Cached cutouts

An entry of the cache is three byte strings, each after its length.  Reading one, a length is
added to the place after it before anything says that as many bytes are there, so that a length
near the top of its range overflows.  Where no length does, what is damaged is told by its end. -/

namespace Boom.Utils

open Foundations

structure AlertCutout where
  candid : Int
  cutoutScience : ByteVec
  cutoutTemplate : ByteVec
  cutoutDifference : ByteVec
deriving DecidableEq

namespace CutoutCache

def part (bytes : List UInt8) : List UInt8 :=
  toLeBytes 8 bytes.length ++ bytes

def packed (cutout : AlertCutout) : List UInt8 :=
  part cutout.cutoutScience.val ++ (part cutout.cutoutTemplate.val ++ part cutout.cutoutDifference.val)

def pack (cutout : AlertCutout) : Checked ByteVec :=
  if small : (packed cutout).length < 2 ^ 63 then .ok ⟨packed cutout, small⟩ else .error .overflow

def partAt (buf : ByteVec) (pos : Nat) : OptionT Checked (ByteVec × Nat) := do
  let pos' ← OptionT.lift (checkedAdd 64 pos 8)
  let length ← found (buf.get pos pos')
  let stop ← OptionT.lift (checkedAdd 64 pos' (fromLeBytes length.val))
  let bytes ← found (buf.get pos' stop)
  pure (bytes, stop)

def unpack (candid : Int) (buf : ByteVec) : OptionT Checked AlertCutout := do
  let (cutoutScience, pos) ← partAt buf 0
  let (cutoutTemplate, pos) ← partAt buf pos
  let (cutoutDifference, _) ← partAt buf pos
  pure { candid, cutoutScience, cutoutTemplate, cutoutDifference }

/-! ## What is read at a place -/

def lengthAt (buf : ByteVec) (pos : Nat) : Option Nat :=
  (buf.get pos (pos + 8)).map fun length => fromLeBytes length.val

def after (buf : ByteVec) (pos : Nat) : Nat :=
  pos + 8 + (lengthAt buf pos).getD 0

def LengthFits (buf : ByteVec) (pos : Nat) : Prop :=
  ∀ length, lengthAt buf pos = some length → pos + 8 + length < 2 ^ 64

structure LengthsFit (buf : ByteVec) : Prop where
  science : LengthFits buf 0
  template : LengthFits buf (after buf 0)
  difference : LengthFits buf (after buf (after buf 0))

section

variable {buf : ByteVec} {pos : Nat}

theorem lengthAt_of_beyond (beyond : buf.val.length < pos + 8) : lengthAt buf pos = none := by
  rw [lengthAt, (ByteVec.get_eq_none_iff (by omega)).mpr beyond]
  rfl

theorem lengthFits_of_none (none_ : lengthAt buf pos = none) : LengthFits buf pos := by
  intro length there
  cases none_.symm.trans there

def bytesAfter (buf : ByteVec) (pos length : Nat) : Checked (Option (ByteVec × Nat)) := do
  let stop ← checkedAdd 64 (pos + 8) length
  .ok ((buf.get (pos + 8) stop).map fun bytes => (bytes, stop))

section

variable (inside : pos ≤ buf.val.length)
include inside

theorem partAt_eq : (partAt buf pos).run = ((lengthAt buf pos).map (bytesAfter buf pos)).getD (.ok none) := by
  have small := buf.property
  have add : checkedAdd 64 pos 8 = .ok (pos + 8) := fits_of_lt (by omega)
  rw [partAt, add, lengthAt]
  change (OptionT.run (do
    let length ← found (buf.get pos (pos + 8))
    let stop ← OptionT.lift (checkedAdd 64 (pos + 8) (fromLeBytes length.val))
    let bytes ← found (buf.get (pos + 8) stop)
    pure (bytes, stop))) = _
  cases buf.get pos (pos + 8) with
  | none => rfl
  | some length =>
    change (OptionT.run (do
      let stop ← OptionT.lift (checkedAdd 64 (pos + 8) (fromLeBytes length.val))
      let bytes ← found (buf.get (pos + 8) stop)
      pure (bytes, stop))) = bytesAfter buf pos (fromLeBytes length.val)
    rw [bytesAfter]
    cases checkedAdd 64 (pos + 8) (fromLeBytes length.val) with
    | error fault => rfl
    | ok stop =>
      change OptionT.run (do let bytes ← found (buf.get (pos + 8) stop); pure (bytes, stop)) = .ok _
      cases buf.get (pos + 8) stop <;> rfl

theorem partAt_of_length {length : Nat} (there : lengthAt buf pos = some length) :
    (partAt buf pos).run = bytesAfter buf pos length := by
  rw [partAt_eq inside, there]
  rfl

theorem partAt_of_none (none_ : lengthAt buf pos = none) : (partAt buf pos).run = .ok none := by
  rw [partAt_eq inside, none_]
  rfl

theorem runs_partAt_iff : Runs (partAt buf pos).run ↔ LengthFits buf pos := by
  cases there : lengthAt buf pos with
  | none =>
    rw [partAt_of_none inside there]
    exact iff_of_true (runs_ok none) (lengthFits_of_none there)
  | some length =>
    rw [partAt_of_length inside there, bytesAfter, runs_bind_and fun _ => iff_true_intro (runs_ok _), and_true]
    simp only [LengthFits, there, Option.some.injEq, forall_eq']
    exact runs_fits_iff

theorem after_of_partAt {bytes : ByteVec} {stop : Nat}
    (read : (partAt buf pos).run = .ok (some (bytes, stop))) : stop = after buf pos ∧ stop ≤ buf.val.length := by
  cases there : lengthAt buf pos with
  | none =>
    rw [partAt_of_none inside there] at read
    cases read
  | some length =>
    rw [partAt_of_length inside there] at read
    obtain ⟨place, fit, isRead⟩ := bind_eq_ok.mp read
    obtain rfl := eq_of_fits fit
    obtain ⟨bytes', got, same⟩ := Option.map_eq_some_iff.mp (Except.ok.inj isRead)
    cases same
    refine ⟨?_, (ByteVec.get_eq_some_iff.mp got).1.2⟩
    rw [after, there]
    rfl

theorem lengthAt_after (missing : (partAt buf pos).run = .ok none) :
    buf.val.length < after buf pos + 8 := by
  cases there : lengthAt buf pos with
  | none =>
    have beyond := (ByteVec.get_eq_none_iff (by omega)).mp (Option.map_eq_none_iff.mp there)
    rw [after, there]
    exact Nat.lt_of_lt_of_le beyond (by omega)
  | some length =>
    rw [partAt_of_length inside there] at missing
    obtain ⟨place, fit, isMissing⟩ := bind_eq_ok.mp missing
    obtain rfl := eq_of_fits fit
    have beyond := (ByteVec.get_eq_none_iff (by omega)).mp (Option.map_eq_none_iff.mp (Except.ok.inj isMissing))
    rw [after, there]
    exact Nat.lt_of_lt_of_le beyond (Nat.le_add_right _ _)

theorem runs_partAt_bind_iff {α : Type} {rest : ByteVec × Nat → OptionT Checked α} {fits : Prop}
    (each : ∀ bytes, after buf pos ≤ buf.val.length → (Runs (rest (bytes, after buf pos)).run ↔ fits))
    (beyond : buf.val.length < after buf pos + 8 → fits) :
    Runs (partAt buf pos >>= rest).run ↔ LengthFits buf pos ∧ fits := by
  rw [runs_bind_iff_found, runs_partAt_iff inside]
  refine and_congr_right fun fit => ?_
  obtain ⟨outcome, read⟩ := (runs_partAt_iff inside).mpr fit
  cases outcome with
  | none => exact iff_of_true (fun _ same => nomatch read.symm.trans same) (beyond (lengthAt_after inside read))
  | some item =>
    obtain ⟨bytes, stop⟩ := item
    obtain ⟨rfl, there⟩ := after_of_partAt inside read
    rw [← each bytes there, read]
    simp only [Except.ok.injEq, Option.some.injEq, forall_eq']

end

theorem runs_unpack_iff (candid : Int) : Runs (unpack candid buf).run ↔ LengthsFit buf := by
  have last : ∀ pos, buf.val.length < pos + 8 → LengthFits buf pos := fun pos beyond =>
    lengthFits_of_none (lengthAt_of_beyond beyond)
  have iff : Runs (unpack candid buf).run ↔
      LengthFits buf 0 ∧ LengthFits buf (after buf 0) ∧ LengthFits buf (after buf (after buf 0)) := by
    refine runs_partAt_bind_iff (Nat.zero_le _) (fun science there => ?_) fun beyond => ⟨last _ beyond, last _ ?_⟩
    · refine runs_partAt_bind_iff there (fun template there => ?_) fun beyond => last _ beyond
      rw [← and_true (LengthFits _ _)]
      exact runs_partAt_bind_iff there (fun difference _ => iff_true_intro (runs_ok _)) fun _ => trivial
    · have further : after buf 0 ≤ after buf (after buf 0) :=
        (Nat.le_add_right _ 8).trans (Nat.le_add_right _ _)
      omega
  exact iff.trans ⟨fun ⟨science, template, difference⟩ => ⟨science, template, difference⟩,
    fun fit => ⟨fit.science, fit.template, fit.difference⟩⟩

/-! ## Whole entries and cut ones -/

section

variable {before rest short : List UInt8} {bytes : ByteVec}

theorem length_part (bytes : List UInt8) : (part bytes).length = 8 + bytes.length := by
  rw [part, List.length_append, length_toLeBytes]

theorem lengthAt_part (parts : buf.val = before ++ (toLeBytes 8 bytes.val.length ++ rest))
    (starts : pos = before.length) : lengthAt buf pos = some bytes.val.length := by
  have width := length_toLeBytes 8 bytes.val.length
  have small := bytes.property
  have got := ByteVec.get_middle ⟨toLeBytes 8 bytes.val.length, by omega⟩ parts starts (congrArg (pos + ·) width.symm)
  rw [lengthAt, got, Option.map_some, fromLeBytes_toLeBytes (by omega)]

theorem partAt_part (parts : buf.val = before ++ (part bytes.val ++ rest)) (starts : pos = before.length) :
    (partAt buf pos).run = .ok (some (bytes, (before ++ part bytes.val).length)) := by
  have whole := congrArg List.length parts
  have small := buf.property
  simp only [List.length_append, length_part] at whole
  rw [part, List.append_assoc] at parts
  have got : buf.get (pos + 8) (pos + 8 + bytes.val.length) = some bytes := by
    refine ByteVec.get_middle bytes (parts.trans (List.append_assoc _ _ _).symm) ?_ rfl
    rw [List.length_append, length_toLeBytes, starts]
  rw [partAt_of_length (by omega) (lengthAt_part parts starts), bytesAfter, checkedAdd, fits_of_lt (by omega), ok_bind,
    got, List.length_append, length_part, starts, Nat.add_assoc]
  rfl

theorem partAt_cut (parts : buf.val = before ++ short) (starts : pos = before.length)
    (isPrefix : short <+: part bytes.val) (cut : short ≠ part bytes.val) : (partAt buf pos).run = .ok none := by
  have whole := congrArg List.length parts
  have shorter := isPrefix.length_le.lt_of_ne fun same => cut (isPrefix.eq_of_length same)
  have small := buf.property
  have small' := bytes.property
  rw [List.length_append] at whole
  rw [length_part] at shorter
  rcases Nat.lt_or_ge short.length 8 with few | enough
  · exact partAt_of_none (by omega) (lengthAt_of_beyond (by omega))
  · -- The length is there, and fewer bytes than it says.
    have width := length_toLeBytes 8 bytes.val.length
    obtain ⟨kept, rfl⟩ := List.prefix_of_prefix_length_le (List.prefix_append _ _) isPrefix (width.trans_le enough)
    rw [partAt_of_length (by omega) (lengthAt_part parts starts), bytesAfter, checkedAdd, fits_of_lt (by omega), ok_bind,
      (ByteVec.get_eq_none_iff (by omega)).mpr (by omega)]
    rfl

theorem prefix_cases {first : List UInt8} (isPrefix : short <+: first ++ rest) :
    (short <+: first ∧ short ≠ first) ∨ ∃ kept, short = first ++ kept ∧ kept <+: rest := by
  rcases Nat.lt_or_ge short.length first.length with within | beyond
  · refine .inl ⟨List.prefix_of_prefix_length_le isPrefix (List.prefix_append _ _) within.le, ?_⟩
    rintro rfl
    exact within.ne rfl
  · obtain ⟨kept, rfl⟩ := List.prefix_of_prefix_length_le (List.prefix_append _ _) isPrefix beyond
    exact .inr ⟨kept, rfl, (List.prefix_append_right_inj first).mp isPrefix⟩

end

variable {cutout : AlertCutout} {entry : ByteVec}

theorem val_of_pack (isEntry : pack cutout = .ok entry) : entry.val = packed cutout := by
  unfold pack at isEntry
  split at isEntry
  · cases isEntry
    rfl
  · cases isEntry

theorem unpack_packed (candid : Int) (whole : entry.val = packed cutout) :
    (unpack candid entry).run = .ok (some { cutout with candid }) := by
  have all : entry.val = [] ++ packed cutout := whole
  have science : (partAt entry ([] : List UInt8).length).run = _ := partAt_part all rfl
  have template : (partAt entry (part cutout.cutoutScience.val).length).run = _ := partAt_part whole rfl
  have last : entry.val = (part cutout.cutoutScience.val ++ part cutout.cutoutTemplate.val) ++
      (part cutout.cutoutDifference.val ++ []) := by
    rw [whole, packed, List.append_nil, List.append_assoc]
  have difference : (partAt entry (part cutout.cutoutScience.val ++ part cutout.cutoutTemplate.val).length).run = _ :=
    partAt_part last rfl
  rw [List.length_nil] at science
  rw [unpack, OptionT.run_bind, science]
  change (OptionT.run (partAt entry _ >>= _)) = _
  rw [OptionT.run_bind, List.nil_append, template]
  change (OptionT.run (partAt entry _ >>= _)) = _
  rw [OptionT.run_bind, difference]
  rfl

theorem unpack_cut (candid : Int) {short : ByteVec} (isPrefix : short.val <+: packed cutout)
    (cut : short.val ≠ packed cutout) : (unpack candid short).run = .ok none := by
  rw [unpack, OptionT.run_bind]
  rcases prefix_cases isPrefix with ⟨within, differs⟩ | ⟨afterScience, isAfter, isPrefix⟩
  · have science : (partAt short 0).run = .ok none := partAt_cut (List.nil_append _).symm rfl within differs
    rw [science]
    rfl
  have science : (partAt short ([] : List UInt8).length).run = _ := partAt_part isAfter rfl
  rw [List.length_nil] at science
  rw [science]
  change (OptionT.run (partAt short _ >>= _)) = _
  rw [OptionT.run_bind, List.nil_append]
  rcases prefix_cases isPrefix with ⟨within, differs⟩ | ⟨afterTemplate, rfl, isRest⟩
  · rw [partAt_cut isAfter rfl within differs]
    rfl
  rw [partAt_part isAfter rfl]
  change (OptionT.run (partAt short _ >>= _)) = _
  rw [← List.append_assoc] at isAfter
  rw [OptionT.run_bind, partAt_cut isAfter rfl isRest]
  · rfl
  · rintro rfl
    exact cut (isAfter.trans (List.append_assoc _ _ _))

/-- What is packed is read again, and none of it where it was cut; any bytes at all are read to an
    end where no length overflows. -/
theorem unpack_safe_iff (candid : Int) (buf : ByteVec) :
    (∀ cutout entry, pack cutout = .ok entry →
      (unpack candid entry).run = .ok (some { cutout with candid }) ∧
        ∀ short : ByteVec, short.val <+: entry.val → short ≠ entry → (unpack candid short).run = .ok none) ∧
      (Runs (unpack candid buf).run ↔ LengthsFit buf) := by
  refine ⟨fun cutout entry isEntry => ?_, runs_unpack_iff candid⟩
  have whole := val_of_pack isEntry
  refine ⟨unpack_packed candid whole, fun short isPrefix differs => ?_⟩
  rw [whole] at isPrefix
  refine unpack_cut candid isPrefix fun same => differs (Subtype.ext (same.trans whole.symm))

def largest : ByteVec := ⟨List.replicate 8 255, by decide⟩

theorem unpack_overflows :
    ¬ ∀ (candid : Int) (buf : ByteVec), Runs (unpack candid buf).run := by
  intro always
  obtain ⟨outcome, read⟩ := always 0 largest
  have overflows : (unpack 0 largest).run = .error .overflow := rfl
  cases overflows.symm.trans read

end

end CutoutCache

end Boom.Utils
