import Boom.Utils.Comets

/-! # Orbital elements of minor planets

The lines of a file of fixed-width columns, whose designations and epochs are packed into few
characters.  A line is read or passed over, and none stops the program: the designation has at
most seven bytes, so where it has seven characters each is one of them. -/

namespace Boom.Utils.Mpcorb

open Foundations
open Enrichment (OrbitalElements)
open Comets (trimmed)
open Decimal (digitOf)

structure MpcorbEntry where
  designation : String
  h : Option F64
  g : Option F64
  elements : OrbitalElements

def orderLetters : Text := "ABCDEFGHJKLMNOPQRSTUVWXYZ".toList

def extendedFirstOrdinal : Nat := 15501

/-! ## Packed characters -/

def toDigit (char : Char) : Option Nat := if char.isDigit then some (digitOf char) else none

def packedValue (char : Char) : Option Nat :=
  if char.isDigit then some (digitOf char)
  else if char.isUpper then some (char.toNat - 'A'.toNat + 10)
  else if char.isLower then some (char.toNat - 'a'.toNat + 36)
  else none

def centuryOf : Char → Option Nat
  | 'I' => some 18
  | 'J' => some 19
  | 'K' => some 20
  | _ => none

def charAt (chars : Text) (place : Nat) : OptionT Checked Char := OptionT.lift (readAt chars place)

def unpackYear (chars : Text) : OptionT Checked Nat := do
  let first ← charAt chars 0
  let century ← found (centuryOf first)
  let year ← OptionT.lift (checkedMul 32 century 100)
  let second ← charAt chars 1
  let tens ← found (toDigit second)
  let tens ← OptionT.lift (checkedMul 32 tens 10)
  let year ← OptionT.lift (checkedAdd 32 year tens)
  let third ← charAt chars 2
  let ones ← found (toDigit third)
  OptionT.lift (checkedAdd 32 year ones)

def unpackDigits : Text → Nat → OptionT Checked Nat
  | [], number => pure number
  | char :: rest, number => do
    let number ← OptionT.lift (checkedMul 64 number 62)
    let value ← found (packedValue char)
    let number ← OptionT.lift (checkedAdd 64 number value)
    unpackDigits rest number

/-! ## Epochs -/

def julianDate (year month day : Int) : OptionT Checked F64 :=
  if ¬ (1 ≤ month ∧ month ≤ 12) ∨ ¬ (1 ≤ day ∧ day ≤ 31) then found none
  else OptionT.lift (Comets.julianDate year month (.ofInt day))

def unpackEpoch (packed : Text) : OptionT Checked F64 :=
  let chars := trimmed packed
  if chars.length ≠ 5 then found none
  else do
    let year ← unpackYear chars
    let month ← charAt chars 3
    let month ← found (packedValue month)
    let day ← charAt chars 4
    let day ← found (packedValue day)
    julianDate year month day

/-! ## Designations -/

def surveyOf (head : Text) : Option String :=
  if head = "PLS".toList then some "P-L"
  else if head = "T1S".toList then some "T-1"
  else if head = "T2S".toList then some "T-2"
  else if head = "T3S".toList then some "T-3"
  else none

def provisional (year : Nat) (halfMonth order : Char) (cycle : Nat) : String :=
  toString year ++ " " ++ String.ofList [halfMonth, order] ++ if cycle = 0 then "" else toString cycle

def unpackHigh (chars : Text) : OptionT Checked String := do
  let digits ← OptionT.lift (rangeAt chars 1 chars.length)
  let number ← unpackDigits digits 0
  let number ← OptionT.lift (checkedAdd 64 number 620000)
  pure (toString number)

def unpackNumbered (chars : Text) : OptionT Checked String :=
  if chars.all Char.isDigit then pure (String.ofList (chars.dropWhile (· = '0')))
  else do
    let first ← charAt chars 0
    let high ← found (packedValue first)
    let low ← OptionT.lift (rangeAt chars 1 chars.length)
    let low ← found (Decimal.parseNat 32 low)
    let high ← OptionT.lift (checkedMul 32 high 10000)
    let number ← OptionT.lift (checkedAdd 32 high low)
    pure (toString number)

def unpackExtended (chars : Text) : OptionT Checked String := do
  let second ← charAt chars 1
  let year ← found (packedValue second)
  let year ← OptionT.lift (checkedAdd 32 2000 year)
  let halfMonth ← charAt chars 2
  let digits ← OptionT.lift (rangeAt chars 3 7)
  let offset ← unpackDigits digits 0
  let index ← OptionT.lift (checkedAdd 64 extendedFirstOrdinal offset)
  let index ← OptionT.lift (checkedSub index 1)
  let letter ← found orderLetters[index % 25]?
  pure (provisional year halfMonth letter (index / 25))

def unpackSurvey (chars : Text) (code : String) : OptionT Checked String := do
  let number ← OptionT.lift (chars.slice 3 7)
  let number := number.dropWhile (· = '0')
  if Decimal.isWhole number then pure (String.ofList number ++ " " ++ code) else found none

def unpackProvisional (chars : Text) : OptionT Checked String := do
  let year ← unpackYear chars
  let halfMonth ← charAt chars 3
  let fifth ← charAt chars 4
  let cycle ← found (packedValue fifth)
  let cycle ← OptionT.lift (checkedMul 32 cycle 10)
  let sixth ← charAt chars 5
  let ones ← found (toDigit sixth)
  let cycle ← OptionT.lift (checkedAdd 32 cycle ones)
  let order ← charAt chars 6
  pure (provisional year halfMonth order cycle)

def unpackDesignation (packed : Text) : OptionT Checked String :=
  let chars := trimmed packed
  if chars.head? = some '~' ∧ chars.length = 5 then unpackHigh chars
  else if chars.length = 5 then unpackNumbered chars
  else if chars.length = 7 ∧ chars.head? = some '_' then unpackExtended chars
  else if chars.length = 7 then do
    let head ← OptionT.lift (chars.slice 0 3)
    match surveyOf head with
    | some code => unpackSurvey chars code
    | none => unpackProvisional chars
  else found none

/-! ## Lines -/

def field (line : Text) (start stop : Nat) : Option Text := (line.get start stop).map trimmed

def number (line : Text) (start stop : Nat) : Option F64 := (field line start stop).bind Decimal.parseF64

def isElliptical (elements : OrbitalElements) : Bool :=
  F64.zero.lt elements.a && F64.zero.le elements.e && elements.e.lt .one

def parseLine (withPerihelion : OrbitalElements → OrbitalElements) (line : Text) : OptionT Checked MpcorbEntry :=
  if line.bytes < 103 ∨ (trimmed line).isEmpty then found none
  else do
    let packed ← found (field line 0 7)
    let designation ← unpackDesignation packed
    let packed ← found (field line 20 25)
    let epochJd ← unpackEpoch packed
    let meanAnomaly ← found (number line 26 35)
    let peri ← found (number line 37 46)
    let node ← found (number line 48 57)
    let incl ← found (number line 59 68)
    let e ← found (number line 70 79)
    let a ← found (number line 92 103)
    let elements := withPerihelion { epochJd, a, e, incl, node, peri, meanAnomaly, q := .zero, tp := .zero }
    if !isElliptical elements then found none
    else pure { designation, h := number line 8 13, g := number line 14 19, elements }

/-! ## Values of characters -/

theorem toDigit_lt {char : Char} {value : Nat} (isValue : toDigit char = some value) : value < 10 := by
  obtain ⟨isDigit, same⟩ := Option.ite_none_right_eq_some.mp isValue
  obtain rfl := Option.some.inj same
  exact Decimal.digitOf_lt isDigit

theorem packedValue_lt {char : Char} {value : Nat} (isValue : packedValue char = some value) : value < 62 := by
  unfold packedValue at isValue
  have capitals : 'A'.toNat = 65 := rfl
  have small : 'a'.toNat = 97 := rfl
  have upper : 'Z'.toNat = 90 := rfl
  have upper' : 'z'.toNat = 122 := rfl
  split at isValue
  · next isDigit =>
    have less := Decimal.digitOf_lt isDigit
    cases isValue
    omega
  · split at isValue
    · next isUpper =>
      have bounds : 'A'.val ≤ char.val ∧ char.val ≤ 'Z'.val := of_decide_eq_true isUpper
      have le : char.toNat ≤ 90 := UInt32.le_iff_toNat_le.mp bounds.2
      cases isValue
      omega
    · obtain ⟨isLower, same⟩ := Option.ite_none_right_eq_some.mp isValue
      have bound : char.val ≤ 'z'.val := of_decide_eq_true (Bool.and_eq_true_iff.mp isLower).2
      have le : char.toNat ≤ 122 := UInt32.le_iff_toNat_le.mp bound
      cases same
      omega

theorem centuryOf_le {char : Char} {century : Nat} (isCentury : centuryOf char = some century) : century ≤ 20 := by
  unfold centuryOf at isCentury
  split at isCentury <;> cases isCentury <;> decide

/-! ## What is unpacked -/

variable {chars : Text}

theorem finds_charAt {place : Nat} (inside : place < chars.length) :
    Finds (charAt chars place) fun _ => True :=
  finds_lift (readAt_of_lt inside) trivial

theorem finds_unpackYear (long : 3 ≤ chars.length) : Finds (unpackYear chars) (· < 2100) := by
  refine (finds_charAt (by omega)).bind fun first _ => ?_
  refine (finds_found fun _ => centuryOf_le).bind fun century le => ?_
  refine (finds_fits (by omega)).bind fun year isYear => ?_
  refine (finds_charAt (by omega)).bind fun second _ => ?_
  refine (finds_found fun _ => toDigit_lt).bind fun tens less => ?_
  refine (finds_fits (by omega)).bind fun tens isTens => ?_
  refine (finds_fits (by omega)).bind fun year isYear => ?_
  refine (finds_charAt (by omega)).bind fun third _ => ?_
  refine (finds_found fun _ => toDigit_lt).bind fun ones less => ?_
  exact finds_lift (fits_of_lt (by omega)) (by omega)

theorem finds_unpackDigits {number : Nat} (small : (number + 1) * 62 ^ chars.length ≤ 2 ^ 64) :
    Finds (unpackDigits chars number) (· < (number + 1) * 62 ^ chars.length) := by
  induction chars generalizing number with
  | nil => exact finds_pure (by simp)
  | cons char rest ih =>
    rw [List.length_cons, Nat.pow_succ, Nat.mul_comm (62 ^ _) 62, ← Nat.mul_assoc] at small ⊢
    have room : (number + 1) * 62 ≤ 2 ^ 64 := (Nat.le_mul_of_pos_right _ (Nat.pow_pos (by decide))).trans small
    refine (finds_fits (by omega)).bind fun shifted isShifted => ?_
    refine (finds_found fun _ => packedValue_lt).bind fun value less => ?_
    refine (finds_fits (by omega)).bind fun next isNext => ?_
    have le : (next + 1) * 62 ^ rest.length ≤ (number + 1) * 62 * 62 ^ rest.length :=
      Nat.mul_le_mul_right _ (by omega)
    obtain ⟨found, same, holds⟩ := ih (le.trans small)
    exact ⟨found, same, fun item isItem => (holds item isItem).trans_le le⟩

theorem finds_unpackDigits_four (four : chars.length = 4) :
    Finds (unpackDigits chars 0) (· < 62 ^ 4) := by
  simpa [four] using @finds_unpackDigits chars 0 (by rw [four]; decide)

theorem finds_unpackHigh (five : chars.length = 5) : Finds (unpackHigh chars) fun _ => True := by
  refine (finds_rangeAt (by omega) le_rfl).bind fun digits few => ?_
  refine (finds_unpackDigits_four (by omega)).bind fun number less => ?_
  exact (finds_fits (by omega)).bind fun _ _ => finds_pure trivial

theorem finds_unpackNumbered (five : chars.length = 5) : Finds (unpackNumbered chars) fun _ => True := by
  unfold unpackNumbered
  split
  · exact finds_pure trivial
  · refine (finds_charAt (by omega)).bind fun first _ => ?_
    refine (finds_found fun _ => packedValue_lt).bind fun high less => ?_
    refine (finds_rangeAt (by omega) le_rfl).bind fun digits few => ?_
    refine (finds_found fun _ => Decimal.parseNat_lt).bind fun low less' => ?_
    rw [few, five] at less'
    refine (finds_fits (by omega)).bind fun shifted isShifted => ?_
    exact (finds_fits (by omega)).bind fun _ _ => finds_pure trivial

section

variable (seven : chars.length = 7)
include seven

theorem finds_unpackExtended : Finds (unpackExtended chars) fun _ => True := by
  refine (finds_charAt (by omega)).bind fun second _ => ?_
  refine (finds_found fun _ => packedValue_lt).bind fun year less => ?_
  refine (finds_fits (by omega)).bind fun year isYear => ?_
  refine (finds_charAt (by omega)).bind fun halfMonth _ => ?_
  refine (finds_rangeAt (by omega) seven.ge).bind fun digits few => ?_
  refine (finds_unpackDigits_four (by omega)).bind fun offset less' => ?_
  have ordinal : extendedFirstOrdinal = 15501 := rfl
  refine (finds_fits (by omega)).bind fun index isIndex => ?_
  have previous : Finds (OptionT.lift (checkedSub index 1)) fun _ => True :=
    finds_lift (checkedSub_of_le (by omega)) trivial
  refine previous.bind fun index _ => ?_
  exact (finds_found fun _ _ => trivial).bind fun letter _ => finds_pure trivial

theorem finds_unpackProvisional :
    Finds (unpackProvisional chars) fun _ => True := by
  refine (finds_unpackYear (by omega)).bind fun year _ => ?_
  refine (finds_charAt (by omega)).bind fun halfMonth _ => ?_
  refine (finds_charAt (by omega)).bind fun fifth _ => ?_
  refine (finds_found fun _ => packedValue_lt).bind fun cycle less => ?_
  refine (finds_fits (by omega)).bind fun cycle isCycle => ?_
  refine (finds_charAt (by omega)).bind fun sixth _ => ?_
  refine (finds_found fun _ => toDigit_lt).bind fun ones less' => ?_
  refine (finds_fits (by omega)).bind fun cycle _ => ?_
  exact (finds_charAt (by omega)).bind fun order _ => finds_pure trivial

theorem finds_slice {start stop : Nat} (few : chars.bytes ≤ 7)
    (le : start ≤ stop) (inside : stop ≤ 7) : Finds (OptionT.lift (chars.slice start stop)) fun _ => True := by
  have narrow : chars.bytes = chars.length := le_antisymm (by omega) chars.length_le_bytes
  obtain ⟨part, isPart⟩ := (Text.runs_slice_iff le).mpr
    ⟨Text.isBoundary_of_narrow narrow (by omega), Text.isBoundary_of_narrow narrow (by omega)⟩
  exact finds_lift isPart trivial

theorem finds_unpackSurvey (few : chars.bytes ≤ 7) (code : String) :
    Finds (unpackSurvey chars code) fun _ => True := by
  refine (finds_slice seven few (by decide) le_rfl).bind fun number _ => ?_
  dsimp only
  split
  · exact finds_pure trivial
  · exact finds_found fun _ _ => trivial

end

theorem bytes_trimmed_le (text : Text) : (trimmed text).bytes ≤ text.bytes :=
  Text.bytes_le_of_sublist (Text.trimBy_sublist _ text)

theorem finds_unpackDesignation {packed : Text} (few : packed.bytes ≤ 7) :
    Finds (unpackDesignation packed) fun _ => True := by
  have few' := (bytes_trimmed_le packed).trans few
  unfold unpackDesignation
  dsimp only
  split
  · next high => exact finds_unpackHigh high.2
  · split
    · next five => exact finds_unpackNumbered five
    · split
      · next extended => exact finds_unpackExtended extended.1
      · split
        · next seven =>
          refine (finds_slice seven few' (by decide) (by decide)).bind fun head _ => ?_
          split
          · next code _ => exact finds_unpackSurvey seven few' code
          · exact finds_unpackProvisional seven
        · exact finds_found fun _ _ => trivial

theorem finds_unpackEpoch (packed : Text) : Finds (unpackEpoch packed) fun _ => True := by
  unfold unpackEpoch
  dsimp only
  split
  · exact finds_found fun _ _ => trivial
  · next five =>
    rw [ne_eq, not_not] at five
    refine (finds_unpackYear (by omega)).bind fun year less => ?_
    refine (finds_charAt (by omega)).bind fun month _ => ?_
    refine (finds_found fun _ => packedValue_lt).bind fun month less' => ?_
    refine (finds_charAt (by omega)).bind fun day _ => ?_
    refine (finds_found fun _ => packedValue_lt).bind fun day _ => ?_
    unfold julianDate
    split
    · exact finds_found fun _ _ => trivial
    · have fits : Comets.YearFits year month := by
        unfold Comets.YearFits
        omega
      obtain ⟨date, isDate⟩ := (@Comets.runs_julianDate_iff year month (.ofInt day) (by omega) (by omega)).mpr fits
      exact finds_lift isDate trivial

/-! ## Every line -/

theorem bytes_field_le {line packed : Text} {start stop : Nat} (isPacked : field line start stop = some packed) :
    packed.bytes ≤ stop - start := by
  obtain ⟨whole, got, rfl⟩ := Option.map_eq_some_iff.mp isPacked
  exact (bytes_trimmed_le whole).trans (Text.bytes_of_get got).le

theorem finds_parseLine (withPerihelion : OrbitalElements → OrbitalElements) (line : Text) :
    Finds (parseLine withPerihelion line) fun _ => True := by
  unfold parseLine
  split
  · exact finds_found fun _ _ => trivial
  · refine (finds_found fun _ => bytes_field_le).bind fun packed few => ?_
    refine (finds_unpackDesignation few).bind fun designation _ => ?_
    refine (finds_found fun _ _ => trivial).bind fun packed _ => ?_
    refine (finds_unpackEpoch packed).bind fun epochJd _ => ?_
    refine (finds_found fun _ _ => trivial).bind fun meanAnomaly _ => ?_
    refine (finds_found fun _ _ => trivial).bind fun peri _ => ?_
    refine (finds_found fun _ _ => trivial).bind fun node _ => ?_
    refine (finds_found fun _ _ => trivial).bind fun incl _ => ?_
    refine (finds_found fun _ _ => trivial).bind fun e _ => ?_
    refine (finds_found fun _ _ => trivial).bind fun a _ => ?_
    dsimp only
    split
    · exact finds_found fun _ _ => trivial
    · exact finds_pure trivial

end Boom.Utils.Mpcorb
