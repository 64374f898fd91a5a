import Boom.Catalogs.Vsx
import Boom.Filter.Batch
import Boom.Utils.Mpcorb

/-! # Texts from outside

What is read from a queue and from three files comes as texts of any characters.  Each parser
says for itself which texts it takes without stopping the program: every line of minor planets,
and of the others those that are cut between characters and whose years can be counted. -/

namespace Boom.Utils.OutsideText

open Foundations
open Enrichment (OrbitalElements)

/-! ## Entries of a queue -/

def parseProgramidCandidTuple (tuple : Text) : OptionT Checked (Int × Int) := do
  let first ← OptionT.lift (tuple.slice 0 1)
  let comma ← OptionT.lift (tuple.slice 1 2)
  if comma ≠ [','] then found none
  else
    let second ← OptionT.lift (tuple.slice 2 tuple.bytes)
    let programid ← found (Decimal.parseInt 32 first)
    let candid ← found (Decimal.parseInt 64 second)
    pure (programid, candid)

def BeginsNarrow (tuple : Text) : Prop :=
  ∃ first second rest, tuple = first :: second :: rest ∧ first.utf8Size = 1 ∧ second.utf8Size = 1

theorem beginsNarrow_iff (tuple : Text) : BeginsNarrow tuple ↔ tuple.IsBoundary 1 ∧ tuple.IsBoundary 2 := by
  constructor
  · rintro ⟨first, second, rest, rfl, one, one'⟩
    exact ⟨Text.isBoundary_iff.mpr ⟨[first], second :: rest, rfl, by simp [one]⟩,
      Text.isBoundary_iff.mpr ⟨[first, second], rest, rfl, by simp [one, one']⟩⟩
  · rintro ⟨one, two⟩
    match tuple with
    | [] => exact absurd one.le (by decide)
    | [first] =>
      have narrow := (Text.isBoundary_succ_iff.mp one).1
      have few := two.le
      rw [Text.bytes_cons, Text.bytes_nil] at few
      omega
    | first :: second :: rest =>
      have wide := first.utf8Size_pos
      have wide' := second.utf8Size_pos
      have narrow : first.utf8Size = 1 := le_antisymm (Text.isBoundary_succ_iff.mp one).1 wide
      have later := (Text.isBoundary_succ_iff.mp two).2
      rw [narrow] at later
      exact ⟨first, second, rest, rfl, narrow, le_antisymm (Text.isBoundary_succ_iff.mp later).1 wide'⟩

theorem run_of_narrow {first second : Char} {rest : Text} (one : first.utf8Size = 1) (one' : second.utf8Size = 1) :
    (parseProgramidCandidTuple (first :: second :: rest)).run = .ok (if second ≠ ',' then none
      else (Decimal.parseInt 32 [first]).bind fun programid => (Decimal.parseInt 64 rest).map fun candid => (programid, candid)) := by
  have slices (start stop : Nat) (before part after : Text) (same : first :: second :: rest = before ++ (part ++ after))
      (size : before.bytes = start) (size' : start + part.bytes = stop) :
      Text.slice (first :: second :: rest) start stop = .ok part :=
    Text.slice_eq_ok_iff.mpr (Text.get_eq_some_iff.mpr ⟨before, after, same, size, size'⟩)
  unfold parseProgramidCandidTuple
  rw [OptionT.run_bind_lift, slices 0 1 [] [first] (second :: rest) rfl rfl (by simp [one]), ok_bind,
    OptionT.run_bind_lift, slices 1 2 [first] [second] rest rfl (by simp [one]) (by simp [one']), ok_bind]
  by_cases comma : second = ','
  · subst comma
    rw [if_neg (not_not.mpr rfl), if_neg (not_not.mpr rfl), OptionT.run_bind_lift,
      slices 2 _ [first, ','] rest [] (by simp) (by simp [one, one']) (by simp [one, one', ← Nat.add_assoc]), ok_bind]
    cases Decimal.parseInt 32 [first] <;> cases Decimal.parseInt 64 rest <;> rfl
  · rw [if_pos (by simpa using comma), if_pos comma]
    rfl

theorem runs_parseProgramidCandidTuple_iff (tuple : Text) :
    Runs (parseProgramidCandidTuple tuple).run ↔ BeginsNarrow tuple := by
  constructor
  · intro runs
    obtain ⟨one, later⟩ := runs_lift_bind.mp runs
    have one := (Text.runs_slice_iff (Nat.zero_le 1)).mp one
    obtain ⟨item, isItem⟩ := (Text.runs_slice_iff (Nat.zero_le 1)).mpr one
    have two := (Text.runs_slice_iff (by decide : 1 ≤ 2)).mp (runs_lift_bind.mp (later item isItem)).1
    exact (beginsNarrow_iff tuple).mpr two
  · rintro ⟨first, second, rest, rfl, one, one'⟩
    exact ⟨_, run_of_narrow one one'⟩

/-! ## The four parsers -/

/-- Each parser comes to a record or a rejection for exactly the texts that its condition names. -/
theorem parsers_run_iff (withPerihelion : OrbitalElements → OrbitalElements) (text : String) :
    (Runs (Catalogs.Vsx.fromLine text.toList).run ↔ Catalogs.Vsx.LineIsCut text.toList) ∧
      (Runs (Comets.parseLine text.toList).run ↔ Comets.LineFits text.toList) ∧
      Runs (Mpcorb.parseLine withPerihelion text.toList).run ∧
      (Runs (parseProgramidCandidTuple text.toList).run ↔ BeginsNarrow text.toList) :=
  ⟨Catalogs.Vsx.runs_fromLine_iff _, Comets.runs_parseLine_iff _, (Mpcorb.finds_parseLine withPerihelion _).runs,
    runs_parseProgramidCandidTuple_iff _⟩

def straddled : String := "1234567é"

def farComet : String :=
  "0001P         inf  08  2.8739  0.571098  0.968021  112.1899   59.2896  162.1880  20260905   5.5  3.2  1P/Halley"

/-- A column that ends inside a character, a year that is not finite and an empty entry stop the program. -/
theorem parsers_stop : ¬ Runs (Catalogs.Vsx.fromLine straddled.toList).run ∧
    ¬ Runs (Comets.parseLine farComet.toList).run ∧ ¬ Runs (parseProgramidCandidTuple "".toList).run := by
  refine ⟨fun runs => ?_, fun runs => ?_, fun runs => ?_⟩
  · obtain ⟨cut, -⟩ := (Catalogs.Vsx.runs_fromLine_iff _).mp runs
    exact absurd ((cut (by decide +kernel)).2 (by decide +kernel)) (by decide +kernel)
  · have isYear : Comets.number farComet.toList 14 18 = some .infinity := by
      unfold farComet
      rw [String.toList_ofList]
      decide +kernel
    have isMonth : Comets.number farComet.toList 19 21 = some (.ofInt 8) := by
      unfold farComet
      rw [String.toList_ofList]
      decide +kernel
    have hasDay : (Comets.number farComet.toList 22 29).isSome := by
      unfold farComet
      rw [String.toList_ofList]
      decide +kernel
    have far : ¬ Comets.YearFits F64.infinity.toI64 (F64.ofInt 8).toI64 := by decide +kernel
    unfold farComet at runs isYear isMonth hasDay
    rw [String.toList_ofList] at runs isYear isMonth hasDay
    obtain ⟨day, isDay⟩ := Option.isSome_iff_exists.mp hasDay
    have fits := (Comets.runs_parseLine_iff _).mp runs (by decide +kernel) (by decide +kernel)
    exact far (fits _ isYear _ isMonth day isDay).1
  · obtain ⟨first, second, rest, same, -⟩ := (runs_parseProgramidCandidTuple_iff _).mp runs
    simp at same

end Boom.Utils.OutsideText
