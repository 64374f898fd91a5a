import Boom.Enrichment.Outburst
import Boom.Filter.Base
import Boom.Foundations.Decimal

/-! # Comets' orbital elements

The lines of a file of fixed-width columns, one comet each.  A line is read or passed over; what
stops the program is a date too far away to be counted in 64 bits, and a date of perihelion whose
characters are not of one byte. -/

namespace Boom.Utils.Comets

open Foundations
open Enrichment (OrbitalElements)

structure CometEntry where
  designation : String
  h : Option F64
  g : Option F64
  elements : OrbitalElements

def trimmed (text : Text) : Text := text.trimBy Filter.isWhiteSpace

def column (line : Text) (start stop : Nat) : Option Text :=
  (line.get start (min stop line.bytes)).map trimmed

def number (line : Text) (start stop : Nat) : Option F64 :=
  (column line start stop).bind Decimal.parseF64

def julianDate (year month : Int) (day : F64) : Checked F64 := do
  let y ← if month ≤ 2 then fitsSigned 64 (year - 1) else pure year
  let m ← if month ≤ 2 then fitsSigned 64 (month + 12) else pure month
  let a := y / 100
  let b ← fitsSigned 64 (2 - a)
  let b ← fitsSigned 64 (b + a / 4)
  let years ← fitsSigned 64 (y + 4716)
  let months ← fitsSigned 64 (m + 1)
  let days := ((F64.ofRat 365.25).mul (.ofInt years)).floor.add ((F64.ofRat 30.6001).mul (.ofInt months)).floor
  pure (((days.add day).add (.ofInt b)).sub (.ofRat 1524.5))

def designationFor (line : Text) : Option String :=
  (column line 102 159).bind fun name =>
    let designation := trimmed (name.takeWhile (· ≠ '('))
    let head := designation.takeWhile (· ≠ '/')
    if designation.isEmpty then none
    else if '/' ∈ designation ∧ head.head?.any Char.isDigit then some (String.ofList head)
    else some (String.ofList (designation.filter (· ≠ ' ')))

def isConic (q e : F64) : Bool := F64.zero.lt q && F64.zero.le e && q.isFinite && e.isFinite

def epochOf (line : Text) (tp : F64) : OptionT Checked F64 :=
  match (column line 81 89).filter fun stamp => stamp.bytes = 8 with
  | none => pure tp
  | some stamp => do
    let year ← OptionT.lift (stamp.slice 0 4)
    let year ← found (Decimal.parseInt 64 year)
    let month ← OptionT.lift (stamp.slice 4 6)
    let month ← found (Decimal.parseInt 64 month)
    let day ← OptionT.lift (stamp.slice 6 8)
    let day ← found (Decimal.parseF64 day)
    OptionT.lift (julianDate year month day)

def entryOf (line : Text) (tp q e : F64) : OptionT Checked CometEntry := do
  let epochJd ← epochOf line tp
  let designation ← found (designationFor line)
  let incl ← found (number line 70 79)
  let node ← found (number line 60 69)
  let peri ← found (number line 50 59)
  pure {
    designation, h := number line 90 95, g := number line 96 100
    elements := {
      epochJd, a := if e.lt .one then q.div (F64.one.sub e) else .zero, e, incl, node, peri
      meanAnomaly := .zero, q, tp } }

def parseLine (line : Text) : OptionT Checked CometEntry :=
  if line.bytes < 100 ∨ (trimmed line).isEmpty then found none
  else do
    let year ← found (number line 14 18)
    let month ← found (number line 19 21)
    let day ← found (number line 22 29)
    let tp ← OptionT.lift (julianDate year.toI64 month.toI64 day)
    let q ← found (number line 30 39)
    let e ← found (number line 40 49)
    if isConic q e then entryOf line tp q e else found none

/-! ## Dates -/

def YearFits (year month : Int) : Prop :=
  (month ≤ 2 → -2 ^ 63 < year ∧ year + 4715 < 2 ^ 63) ∧ (2 < month → year + 4716 < 2 ^ 63)

instance (year month : Int) : Decidable (YearFits year month) := inferInstanceAs (Decidable (_ ∧ _))

theorem runs_julianDate_iff {year month : Int} {day : F64} (inRange : -2 ^ 63 ≤ year ∧ year < 2 ^ 63)
    (inRange' : -2 ^ 63 ≤ month ∧ month < 2 ^ 63 - 1) :
    Runs (julianDate year month day) ↔ YearFits year month := by
  unfold julianDate YearFits
  split
  · -- The year is one less, and the month is of the year before.
    simp only [runs_bind_iff, fitsSigned_eq_ok_iff]
    constructor
    · rintro ⟨_, ⟨lower, rfl⟩, _, ⟨_, rfl⟩, _, ⟨_, rfl⟩, _, ⟨_, rfl⟩, _, ⟨upper, rfl⟩, -⟩
      omega
    · intro fits
      exact ⟨_, ⟨by omega, rfl⟩, _, ⟨by omega, rfl⟩, _, ⟨by omega, rfl⟩, _, ⟨by omega, rfl⟩, _, ⟨by omega, rfl⟩, _,
        ⟨by omega, rfl⟩, runs_ok _⟩
  · simp only [pure_bind, runs_bind_iff, fitsSigned_eq_ok_iff]
    constructor
    · rintro ⟨_, ⟨_, rfl⟩, _, ⟨_, rfl⟩, _, ⟨upper, rfl⟩, -⟩
      omega
    · intro fits
      exact ⟨_, ⟨by omega, rfl⟩, _, ⟨by omega, rfl⟩, _, ⟨by omega, rfl⟩, _, ⟨by omega, rfl⟩, runs_ok _⟩

def StampIsCut (stamp : Text) : Prop :=
  stamp.IsBoundary 4 ∧
    ∀ part, stamp.get 0 4 = some part → (Decimal.parseInt 64 part).isSome → stamp.IsBoundary 6

theorem runs_julianDate_of_few {year month : Text} {value value' : Int} (day : F64) (short : year.length ≤ 4)
    (short' : month.length ≤ 2) (parsed : Decimal.parseInt 64 year = some value)
    (parsed' : Decimal.parseInt 64 month = some value') : Runs (julianDate value value' day) := by
  have small : value.natAbs < 10 ^ 4 :=
    (Decimal.natAbs_parseInt_lt parsed).trans_le (Nat.pow_le_pow_right (by omega) short)
  have small' : value'.natAbs < 10 ^ 2 :=
    (Decimal.natAbs_parseInt_lt parsed').trans_le (Nat.pow_le_pow_right (by omega) short')
  rw [runs_julianDate_iff (by omega) (by omega)]
  unfold YearFits
  omega

theorem runs_epochOf_iff (line : Text) (tp : F64) : Runs (epochOf line tp).run ↔
    ∀ stamp, column line 81 89 = some stamp → stamp.bytes = 8 → StampIsCut stamp := by
  unfold epochOf
  split
  · next none_ =>
    refine iff_of_true (runs_ok (some tp)) fun stamp isStamp size => ?_
    simp only [Option.filter_eq_none_iff, isStamp, Option.some.injEq, forall_eq', decide_eq_true_eq] at none_
    exact (none_ size).elim
  · next stamp some_ =>
    obtain ⟨isStamp, size⟩ := Option.filter_eq_some_iff.mp some_
    rw [decide_eq_true_eq] at size
    have start := stamp.isBoundary_zero
    have stop : stamp.IsBoundary 8 := size ▸ stamp.isBoundary_bytes
    simp only [isStamp, Option.some.injEq, forall_eq', size, forall_const, runs_lift_bind, runs_found_bind,
      Text.runs_slice_iff (Nat.zero_le 4), Text.runs_slice_iff (by decide : 4 ≤ 6), Text.runs_slice_iff (by decide : 6 ≤ 8),
      Text.slice_eq_ok_iff, start, stop, true_and, and_true]
    constructor
    · rintro ⟨four, rest⟩
      refine ⟨four, fun part isPart isYear => ?_⟩
      obtain ⟨year, isYear⟩ := Option.isSome_iff_exists.mp isYear
      exact (rest part isPart year isYear).1.2
    · rintro ⟨four, six⟩
      refine ⟨four, fun part isPart year isYear => ?_⟩
      have six := six part isPart (Option.isSome_iff_exists.mpr ⟨year, isYear⟩)
      refine ⟨⟨four, six⟩, fun part' isPart' month isMonth => ⟨six, fun part'' _ day _ => ?_⟩⟩
      -- As many characters as bytes, at most.
      have few := part.length_le_bytes
      have few' := part'.length_le_bytes
      rw [Text.bytes_of_get isPart] at few
      rw [Text.bytes_of_get isPart'] at few'
      obtain ⟨date, isDate⟩ := runs_julianDate_of_few day few few' isYear isMonth
      exact ⟨some date, by rw [OptionT.run_lift, isDate]; rfl⟩

theorem runs_entryOf_iff (line : Text) (tp q e : F64) : Runs (entryOf line tp q e).run ↔
    ∀ stamp, column line 81 89 = some stamp → stamp.bytes = 8 → StampIsCut stamp := by
  rw [← runs_epochOf_iff line tp]
  refine runs_bind_of_rest fun epochJd => ?_
  simp only [runs_found_bind]
  intros
  exact runs_ok _

/-! ## Lines -/

def LineFits (line : Text) : Prop :=
  100 ≤ line.bytes → trimmed line ≠ [] →
    ∀ year, number line 14 18 = some year → ∀ month, number line 19 21 = some month →
      ∀ day, number line 22 29 = some day → YearFits year.toI64 month.toI64 ∧
        ∀ q, number line 30 39 = some q → ∀ e, number line 40 49 = some e → isConic q e = true →
          ∀ stamp, column line 81 89 = some stamp → stamp.bytes = 8 → StampIsCut stamp

theorem bytes_column_le {line part : Text} {start stop : Nat} (isPart : column line start stop = some part) :
    part.bytes ≤ stop - start := by
  obtain ⟨whole, got, rfl⟩ := Option.map_eq_some_iff.mp isPart
  have narrower := Text.bytes_le_of_sublist (Text.trimBy_sublist Filter.isWhiteSpace whole)
  have size := Text.bytes_of_get got
  unfold trimmed
  omega

theorem natAbs_month_le {line : Text} {month : F64} (isMonth : number line 19 21 = some month) :
    month.toI64.natAbs ≤ 128 := by
  obtain ⟨part, isPart, parsed⟩ := Option.bind_eq_some_iff.mp isMonth
  exact Decimal.natAbs_parseF64_le ((part.length_le_bytes).trans (bytes_column_le isPart)) parsed

theorem runs_julianDate_of_line {line : Text} {month : F64} (year day : F64)
    (isMonth : number line 19 21 = some month) :
    Runs (julianDate year.toI64 month.toI64 day) ↔ YearFits year.toI64 month.toI64 := by
  have small := natAbs_month_le isMonth
  exact runs_julianDate_iff year.toI64_bounds (by omega)

theorem runs_parseLine_iff (line : Text) : Runs (parseLine line).run ↔ LineFits line := by
  unfold parseLine LineFits
  split
  · next skipped =>
    refine iff_of_true (runs_found none) fun long some_ => ?_
    rw [List.isEmpty_iff] at skipped
    exact (skipped.elim (fun short => absurd long (Nat.not_le.mpr short)) some_).elim
  · next read =>
    rw [List.isEmpty_iff] at read
    simp only [not_or, Nat.not_lt] at read
    simp only [read.1, read.2, ne_eq, not_false_eq_true, forall_const, runs_found_bind, runs_lift_bind]
    refine forall₂_congr fun year _ => forall₂_congr fun month isMonth => forall₂_congr fun day _ => ?_
    rw [runs_julianDate_of_line year day isMonth]
    refine and_congr_right fun fits => ?_
    obtain ⟨tp, isTp⟩ := (runs_julianDate_of_line year day isMonth).mpr fits
    simp only [isTp, Except.ok.injEq, forall_eq']
    refine forall₂_congr fun q _ => forall₂_congr fun e _ => ?_
    split
    · next conic => rw [runs_entryOf_iff, conic, eq_self, true_implies]
    · next flat => exact iff_of_true (runs_found none) fun conic => absurd conic flat

end Boom.Utils.Comets
