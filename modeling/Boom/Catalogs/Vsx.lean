import Boom.Filter.Base
import Boom.Foundations.Decimal

/-! # Variable stars from fixed-width lines

A line of the index of variable stars is cut at byte places.  A line that is short is rejected,
and so is one without a number, a name or a place; one in which a character straddles the end
of a column that is read stops the program. -/

namespace Boom.Catalogs

open Foundations

/-- A star of the index. -/
structure Vsx where
  oid : Int
  name : String
  varFlag : Int
  ra : F64
  dec : F64
  /-- Variability types, which the file separates with bars. -/
  types : List String
  max : Option F64
  maxBand : Option String
  /-- Whether `min` is an amplitude rather than a magnitude. -/
  minIsAmplitude : Bool
  min : Option F64
  minBand : Option String
  epoch : Option F64
  period : Option F64
  spectralType : Option String

namespace Vsx

/-! ## Columns -/

abbrev Column := Nat × Nat

def OID : Column := (0, 8)
def NAME : Column := (8, 40)
def VAR_FLAG : Column := (40, 42)
def RA : Column := (42, 52)
def DEC : Column := (52, 62)
def TYPES : Column := (62, 96)
def MAX : Column := (96, 105)
def MAX_BAND : Column := (105, 110)
def MIN_IS_AMPLITUDE : Column := (110, 118)
def MIN : Column := (118, 127)
def MIN_BAND : Column := (127, 137)
def EPOCH : Column := (137, 156)
def PERIOD : Column := (156, 174)
def SPECTRAL_TYPE : Column := (174, 204)

def column (line : Text) (start stop : Nat) : Checked Text :=
  if line.bytes ≤ start then .ok [] else line.slice start (Nat.min stop line.bytes)

def trimmed (text : Text) : Text := text.trimBy Filter.isWhiteSpace

def field (line : Text) (place : Column) : Checked Text := do
  let text ← column line place.1 place.2
  pure (trimmed text)

def optional {α : Type} (parse : Text → Option α) (field : Text) : Option α :=
  if (trimmed field).isEmpty then none else parse (trimmed field)

def optionalString (field : Text) : Option String :=
  optional (fun text => some (String.ofList text)) field

/-! ## Lines -/

inductive Rejection where
  | oid (text : Text)
  | emptyName
  | ra (text : Text)
  | dec (text : Text)
deriving DecidableEq, Repr

def typesOf (field : Text) : List String :=
  ((optional some field).map fun types => (types.splitOn '|').map fun part => String.ofList (trimmed part)).getD []

/-- A star whose number, name and place have been read. -/
def restOfLine (line : Text) (oid : Int) (name : Text) (ra dec : F64) : Checked Vsx := do
  let varFlag ← field line VAR_FLAG
  let types ← field line TYPES
  let max ← field line MAX
  let maxBand ← field line MAX_BAND
  let minIsAmplitude ← field line MIN_IS_AMPLITUDE
  let min ← field line MIN
  let minBand ← field line MIN_BAND
  let epoch ← field line EPOCH
  let period ← field line PERIOD
  let spectralType ← field line SPECTRAL_TYPE
  pure {
    oid, name := String.ofList name
    -- Metadata of the record: a blank flag does not drop a real star.
    varFlag := (optional (Decimal.parseInt 32) varFlag).getD 0
    ra, dec
    types := typesOf types
    max := optional Decimal.parseF64 max
    maxBand := optionalString maxBand
    minIsAmplitude := decide (minIsAmplitude.map Char.toLower ∈ ["1", "true", "yes", "y"].map String.toList)
    min := optional Decimal.parseF64 min
    minBand := optionalString minBand
    epoch := optional Decimal.parseF64 epoch
    period := optional Decimal.parseF64 period
    spectralType := optionalString spectralType }

def fromLine (line : Text) : ExceptT Rejection Checked Vsx := do
  let oidText ← ExceptT.lift (field line OID)
  let oid ← orReject (Decimal.parseInt 64 oidText) (.oid oidText)
  let name ← ExceptT.lift (field line NAME)
  let name ← orReject (if name.isEmpty then none else some name) .emptyName
  let raText ← ExceptT.lift (field line RA)
  let ra ← orReject (Decimal.parseF64 raText) (.ra raText)
  let decText ← ExceptT.lift (field line DEC)
  let dec ← orReject (Decimal.parseF64 decText) (.dec decText)
  ExceptT.lift (restOfLine line oid name ra dec)

/-! ## Lines that stop nothing -/

def IsCut (line : Text) (place : Column) : Prop :=
  place.1 < line.bytes → line.IsBoundary place.1 ∧ (place.2 < line.bytes → line.IsBoundary place.2)

theorem runs_column_iff {line : Text} {start stop : Nat} (le : start ≤ stop) :
    Runs (column line start stop) ↔ IsCut line (start, stop) := by
  unfold column IsCut
  split
  · next short => exact iff_of_true (runs_ok []) fun long => absurd long (Nat.not_lt.mpr short)
  · next long =>
    rw [Text.runs_slice_iff (Nat.le_min.mpr ⟨le, by omega⟩)]
    rcases Nat.lt_or_ge stop line.bytes with inside | past
    · simp [Nat.not_le.mp long, inside, Nat.min_eq_left inside.le]
    · simp [Nat.not_le.mp long, Nat.not_lt.mpr past, Nat.min_eq_right past, line.isBoundary_bytes]

theorem runs_field_iff {line : Text} {place : Column} (le : place.1 ≤ place.2) :
    Runs (field line place) ↔ IsCut line place := by
  rw [← runs_column_iff le, field, runs_bind_iff]
  exact exists_congr fun text => and_iff_left (runs_ok _)

def others : List Column :=
  [VAR_FLAG, TYPES, MAX, MAX_BAND, MIN_IS_AMPLITUDE, MIN, MIN_BAND, EPOCH, PERIOD, SPECTRAL_TYPE]

def LineIsCut (line : Text) : Prop :=
  IsCut line OID ∧ ∀ text, field line OID = .ok text → ∀ oid, Decimal.parseInt 64 text = some oid →
    IsCut line NAME ∧ ∀ name, field line NAME = .ok name → name ≠ [] →
      IsCut line RA ∧ ∀ text, field line RA = .ok text → ∀ ra, Decimal.parseF64 text = some ra →
        IsCut line DEC ∧ ∀ text, field line DEC = .ok text → ∀ dec, Decimal.parseF64 text = some dec →
          ∀ place ∈ others, IsCut line place

theorem runs_restOfLine_iff (line : Text) (oid : Int) (name : Text) (ra dec : F64) :
    Runs (restOfLine line oid name ra dec) ↔ ∀ place ∈ others, IsCut line place := by
  refine (runs_bind_and fun varFlag => runs_bind_and fun types => runs_bind_and fun max => runs_bind_and fun maxBand =>
    runs_bind_and fun minIsAmplitude => runs_bind_and fun min => runs_bind_and fun minBand => runs_bind_and fun epoch =>
    runs_bind_and fun period => runs_bind_and fun spectralType => iff_true_intro (runs_ok _)).trans ?_
  simp only [others, List.forall_mem_cons, List.not_mem_nil, false_implies, implies_true]
  have each (place : Column) (le : place.1 ≤ place.2) := @runs_field_iff line place le
  rw [each VAR_FLAG (by decide), each TYPES (by decide), each MAX (by decide), each MAX_BAND (by decide),
    each MIN_IS_AMPLITUDE (by decide), each MIN (by decide), each MIN_BAND (by decide), each EPOCH (by decide),
    each PERIOD (by decide), each SPECTRAL_TYPE (by decide)]

theorem runs_fromLine_iff (line : Text) : Runs (fromLine line).run ↔ LineIsCut line := by
  unfold fromLine LineIsCut
  simp only [runs_liftExcept_bind, runs_orReject_bind, runs_field_iff (show OID.1 ≤ OID.2 by decide),
    runs_field_iff (show NAME.1 ≤ NAME.2 by decide), runs_field_iff (show RA.1 ≤ RA.2 by decide),
    runs_field_iff (show DEC.1 ≤ DEC.2 by decide), Option.ite_none_left_eq_some, List.isEmpty_iff,
    Option.some.injEq, and_imp, runs_liftExcept, runs_restOfLine_iff]
  refine and_congr_right fun _ => forall₂_congr fun oidText _ => forall₂_congr fun oid _ =>
    and_congr_right fun _ => forall₂_congr fun name _ => ?_
  constructor
  · intro runs some_
    exact runs name some_ rfl
  · rintro runs _ some_ rfl
    exact runs some_

end Vsx

end Boom.Catalogs
