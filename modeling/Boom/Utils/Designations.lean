import Boom.Foundations.AsciiOrder
import Boom.Foundations.Splitting
import Boom.Utils.Mpcorb
import Boom.Utils.Tracks

/-! # Keys of minor planets

A catalogue has minor planets by their packed designations, and alerts have them by their unpacked
ones without the space.  Both are brought to the unpacked designation.

The letter of a survey before its hyphen is read as the kind of a comet where it is one, and the
designation is then kept as it stands. -/

namespace Boom.Utils.Mpcorb

open Foundations
open Comets (trimmed)

/-! ## What alerts carry -/

def isCometDesignation (text : Text) : Bool :=
  if '/' ∈ text then true
  else
    let core : Text := ((splitOnce ['-'] text).map Prod.fst).getD text
    match core.getLast? with
    | none => false
    | some kind => "PCDXI".toList.contains kind && 1 < core.bytes && core.dropLast.all Char.isDigit

def isProvisional (text : Text) : Bool :=
  6 ≤ text.length && (text.take 4).all Char.isDigit && text[4]?.any Char.isUpper && text[5]?.any Char.isUpper &&
    (text.drop 6).all Char.isDigit

def normalizeZtfSsnamenr (ssnamenr : Text) : Option String :=
  let text := trimmed ssnamenr
  if text.isEmpty then none
  else if text.head? = some '(' then
    (splitOnce [')'] text.tail).bind fun parts =>
      if !parts.1.isEmpty && parts.1.all Char.isDigit then some (String.ofList parts.1) else none
  else if text.all Char.isDigit then some (String.ofList text)
  else if isCometDesignation text then some (String.ofList text)
  else if isProvisional text then some (String.ofList (text.take 4 ++ ' ' :: text.drop 4))
  else none

/-! ## Minor planets and what they are called -/

inductive Survey where
  | palomarLeiden
  | trojan1
  | trojan2
  | trojan3
deriving DecidableEq, Repr

def halfMonthLetters : Text := "ABCDEFGHJKLMNOPQRSTUVWXY".toList

def extendedFirst : Nat := 620 * 25

inductive Designation where
  | numbered (number : Nat) (positive : 0 < number) (reached : number < 620000 + Nat.pow 62 4)
  | provisional (year : Nat) (halfMonth : Char) (index : Nat) (century : 1800 ≤ year ∧ year < 2100)
      (letter : halfMonth ∈ halfMonthLetters) (reached : index < extendedFirst)
  | extended (year : Nat) (halfMonth : Char) (index : Nat) (century : 2000 ≤ year ∧ year < 2062)
      (letter : halfMonth ∈ halfMonthLetters) (reached : extendedFirst ≤ index ∧ index < extendedFirst + Nat.pow 62 4)
  | survey (source : Survey) (number : Nat) (positive : 0 < number) (reached : number < 10000)

def Survey.head : Survey → Text
  | .palomarLeiden => "PLS".toList
  | .trojan1 => "T1S".toList
  | .trojan2 => "T2S".toList
  | .trojan3 => "T3S".toList

def Survey.code : Survey → Text
  | .palomarLeiden => "P-L".toList
  | .trojan1 => "T-1".toList
  | .trojan2 => "T-2".toList
  | .trojan3 => "T-3".toList

def packedChar (value : Nat) : Char := base62.getD value '0'

def orderLetter (index : Nat) : Char := orderLetters.getD (index % 25) 'A'

def placeText (halfMonth : Char) (index : Nat) : Text :=
  halfMonth :: orderLetter index :: if index / 25 = 0 then [] else Nat.toDigits 10 (index / 25)

def Designation.packed : Designation → Text
  | .numbered number _ _ =>
    if number < 100000 then digits 10 5 number
    else if number < 620000 then packedChar (number / 10000) :: digits 10 4 (number % 10000)
    else '~' :: digits 62 4 (number - 620000)
  | .provisional year halfMonth index _ _ _ =>
    "IJK".toList.getD (year / 100 - 18) 'I' :: packedChar (year / 10 % 10) :: packedChar (year % 10) :: halfMonth ::
      packedChar (index / 25 / 10) :: packedChar (index / 25 % 10) :: [orderLetter index]
  | .extended year halfMonth index _ _ _ =>
    '_' :: packedChar (year - 2000) :: halfMonth :: digits 62 4 (index - extendedFirst)
  | .survey source number _ _ => source.head ++ digits 10 4 number

def Designation.unpacked : Designation → Text
  | .numbered number _ _ => Nat.toDigits 10 number
  | .provisional year halfMonth index _ _ _ | .extended year halfMonth index _ _ _ =>
    Nat.toDigits 10 year ++ ' ' :: placeText halfMonth index
  | .survey source number _ _ => Nat.toDigits 10 number ++ ' ' :: source.code

def Designation.key : Designation → Option String
  | .survey _ _ _ _ => none
  | designation => some (String.ofList designation.unpacked)

/-! ## Characters -/

theorem packedChar_spec : ∀ value < 62, (packedValue (packedChar value) = some value ∧
      Filter.isWhiteSpace (packedChar value) = false ∧ (packedChar value).utf8Size = 1) ∧
    if value < 10 then toDigit (packedChar value) = some value ∧ packedChar value = Nat.digitChar value ∧
      (packedChar value).isDigit = true ∧ Decimal.digitOf (packedChar value) = value
    else (packedChar value).isDigit = false ∧ packedChar value ≠ '~' := by
  unfold packedChar base62
  rw [String.toList_ofList]
  decide +kernel

theorem letters_spec : (∀ letter ∈ halfMonthLetters, letter.isUpper = true ∧ letter.isDigit = false ∧
      letter ∉ [' ', '-', '/'] ∧ Filter.isWhiteSpace letter = false ∧ letter.utf8Size = 1) ∧
    (∀ place < 25, orderLetters[place]? = some (orderLetters.getD place 'A') ∧
      (orderLetters.getD place 'A').isUpper = true ∧ orderLetters.getD place 'A' ∉ [' ', '-', '/'] ∧
      Filter.isWhiteSpace (orderLetters.getD place 'A') = false ∧ (orderLetters.getD place 'A').utf8Size = 1) ∧
    orderLetters.Nodup :=
  ⟨forall_of_all (by decide +kernel), by decide +kernel⟩

theorem century_spec : ∀ past < 3, centuryOf ("IJK".toList.getD past 'I') = some (past + 18) ∧
    Filter.isWhiteSpace ("IJK".toList.getD past 'I') = false ∧ ("IJK".toList.getD past 'I').utf8Size = 1 ∧
    "IJK".toList.getD past 'I' ∉ ['~', '_', 'P', 'T'] := by
  decide

section

variable {value index : Nat}

theorem packedValue_packedChar (small : value < 62) : packedValue (packedChar value) = some value :=
  (packedChar_spec value small).1.1

theorem plain_packedChar (small : value < 62) : Filter.isWhiteSpace (packedChar value) = false :=
  (packedChar_spec value small).1.2.1

theorem narrow_packedChar (small : value < 62) : (packedChar value).utf8Size = 1 :=
  (packedChar_spec value small).1.2.2

theorem packedDigit_spec (small : value < 10) : toDigit (packedChar value) = some value ∧
    packedChar value = Nat.digitChar value ∧ (packedChar value).isDigit = true ∧
    Decimal.digitOf (packedChar value) = value := by
  have spec := (packedChar_spec value (by omega)).2
  rwa [if_pos small] at spec

theorem packedLetter_spec (small : value < 62) (large : 10 ≤ value) :
    (packedChar value).isDigit = false ∧ packedChar value ≠ '~' := by
  have spec := (packedChar_spec value small).2
  rwa [if_neg (Nat.not_lt.mpr large)] at spec

theorem orderLetter_spec (index : Nat) : orderLetters[index % 25]? = some (orderLetter index) ∧
    (orderLetter index).isUpper = true ∧ orderLetter index ∉ [' ', '-', '/'] ∧
    Filter.isWhiteSpace (orderLetter index) = false ∧ (orderLetter index).utf8Size = 1 :=
  letters_spec.2.1 _ (Nat.mod_lt _ (by decide))

theorem orderLetter_inj {other : Nat} (same : orderLetter index = orderLetter other) : index % 25 = other % 25 := by
  have place := (orderLetter_spec index).1
  rw [same, ← (orderLetter_spec other).1] at place
  have inside : index % 25 < orderLetters.length := by
    have letters : orderLetters.length = 25 := by decide
    rw [letters]
    exact Nat.mod_lt _ (by decide)
  exact (List.getElem?_inj inside letters_spec.2.2).mp place

end

/-! ## Digits -/

section

variable {base width number : Nat}

theorem length_digits (base width number : Nat) : (digits base width number).length = width := by
  induction width generalizing number with
  | zero => rfl
  | succ width ih => rw [digits, List.length_append, ih, List.length_singleton]

theorem exists_of_mem_digits {char : Char} (positive : 0 < base) (there : char ∈ digits base width number) :
    ∃ value < base, char = packedChar value := by
  induction width generalizing number with
  | zero => cases there
  | succ width ih =>
    rcases List.mem_append.mp there with front | last
    · exact ih front
    · exact ⟨number % base, Nat.mod_lt _ positive, List.mem_singleton.mp last⟩

theorem isDigit_of_mem_digits {char : Char} (there : char ∈ digits 10 width number) : char.isDigit = true := by
  obtain ⟨value, small, rfl⟩ := exists_of_mem_digits (by decide) there
  exact (packedDigit_spec small).2.2.1

theorem dropWhile_digits (small : number < 10 ^ width) :
    (digits 10 width number).dropWhile (· = '0') = if number = 0 then [] else Nat.toDigits 10 number := by
  induction width generalizing number with
  | zero =>
    obtain rfl : number = 0 := by simpa using small
    rfl
  | succ width ih =>
    have digit : number % 10 < 10 := Nat.mod_lt _ (by decide)
    have front := @ih (number / 10) (Nat.div_lt_of_lt_mul (by rwa [← Nat.pow_succ']))
    change (digits 10 width (number / 10) ++ [packedChar (number % 10)]).dropWhile _ = _
    rw [List.dropWhile_append, front, (packedDigit_spec digit).2.1]
    by_cases few : number / 10 = 0
    · -- The last digit is the only one that is not a zero, if it is not.
      have one : number % 10 = number := by omega
      rw [if_pos few, one]
      by_cases zero : number = 0
      · rw [if_pos zero, zero]
        rfl
      · have differs : ∀ value < 10, value ≠ 0 → Nat.digitChar value ≠ '0' := by decide
        have other := decide_eq_false (differs number (by omega) zero)
        rw [if_neg zero, Nat.toDigits_of_lt_base (by omega), List.isEmpty_nil, if_pos rfl, List.dropWhile_cons, other]
        rfl
    · have several : 10 ≤ number := by omega
      have nonzero : number ≠ 0 := by omega
      rw [if_neg few, if_neg nonzero, Nat.toDigits_of_base_le (by decide) several, if_neg]
      rw [List.isEmpty_iff]
      exact Nat.toDigits_ne_nil

theorem valueOf_append (first : Text) (char : Char) :
    Decimal.valueOf (first ++ [char]) = 10 * Decimal.valueOf first + Decimal.digitOf char := by
  rw [Decimal.valueOf, List.foldl_append]
  rfl

theorem valueOf_digits (small : number < 10 ^ width) : Decimal.valueOf (digits 10 width number) = number := by
  induction width generalizing number with
  | zero =>
    obtain rfl : number = 0 := by simpa using small
    rfl
  | succ width ih =>
    have front := @ih (number / 10) (Nat.div_lt_of_lt_mul (by rwa [← Nat.pow_succ']))
    change Decimal.valueOf (digits 10 width (number / 10) ++ [packedChar (number % 10)]) = _
    rw [valueOf_append, front, (packedDigit_spec (Nat.mod_lt _ (by decide))).2.2.2]
    omega

theorem isWhole_digits (positive : 0 < width) : Decimal.isWhole (digits 10 width number) = true := by
  rw [Decimal.isWhole, Bool.and_eq_true]
  refine ⟨?_, List.all_eq_true.mpr fun _ => isDigit_of_mem_digits⟩
  have long := length_digits 10 width number
  cases empty : digits 10 width number with
  | nil => rw [empty] at long; exact absurd long (by simp; omega)
  | cons _ _ => rfl

theorem parseNat_digits (small : number < 10 ^ width) (positive : 0 < width) {bits : Nat} (fits : 10 ^ width ≤ 2 ^ bits) :
    Decimal.parseNat bits (digits 10 width number) = some number := by
  have value := valueOf_digits small
  have unsigned : ∀ rest, digits 10 width number ≠ '+' :: rest := by
    intro rest same
    have isDigit := @isDigit_of_mem_digits width number '+' (same ▸ List.mem_cons_self)
    exact absurd isDigit (by decide)
  unfold Decimal.parseNat
  split
  next rest signed => exact absurd signed (unsigned rest)
  next =>
    dsimp only
    rw [value, if_pos ⟨isWhole_digits positive, small.trans_le fits⟩]

end

/-! ## Every packed form is unpacked -/

theorem gives_unpackDigits_snoc {chars : Text} {start number value : Nat} {char : Char}
    (gives : Gives (unpackDigits chars start) number) (isValue : packedValue char = some value)
    (small : number * 62 + value < 2 ^ 64) : Gives (unpackDigits (chars ++ [char]) start) (number * 62 + value) := by
  induction chars generalizing start with
  | nil =>
    obtain rfl : start = number := Option.some.inj (Except.ok.inj gives)
    refine (gives_fits (by omega)).bind ((gives_found isValue).bind ((gives_fits small).bind ?_))
    exact gives_pure _
  | cons first rest ih =>
    obtain ⟨shifted, isShifted, gives⟩ := gives_bind_iff.mp gives
    obtain ⟨digit, isDigit, gives⟩ := gives_bind_iff.mp gives
    obtain ⟨next, isNext, gives⟩ := gives_bind_iff.mp gives
    exact isShifted.bind (isDigit.bind (isNext.bind (ih gives)))

theorem gives_unpackDigits {width number : Nat} (small : number < Nat.pow 62 width) (fits : Nat.pow 62 width ≤ 2 ^ 64) :
    Gives (unpackDigits (digits 62 width number) 0) number := by
  induction width generalizing number with
  | zero =>
    obtain rfl : number = 0 := by simpa using small
    exact gives_pure 0
  | succ width ih =>
    have pow : Nat.pow 62 (width + 1) = Nat.pow 62 width * 62 := rfl
    have front := @ih (number / 62) (by omega) (by omega)
    have isValue := packedValue_packedChar (Nat.mod_lt number (by decide : 62 > 0))
    have whole : number / 62 * 62 + number % 62 = number := by omega
    have gives := gives_unpackDigits_snoc front isValue (by omega)
    rwa [whole] at gives

theorem gives_charAt {chars : Text} {place : Nat} {char : Char} (there : chars[place]? = some char) :
    Gives (charAt chars place) char := by
  obtain ⟨inside, rfl⟩ := List.getElem?_eq_some_iff.mp there
  exact gives_lift (readAt_of_lt inside)

theorem gives_rangeAt {chars : Text} {start stop : Nat} (le : start ≤ stop) (inside : stop ≤ chars.length) :
    Gives (OptionT.lift (rangeAt chars start stop)) ((chars.take stop).drop start) :=
  gives_lift (if_pos ⟨le, inside⟩)

theorem trimmed_of_plain {text : Text} (plain : ∀ char ∈ text, Filter.isWhiteSpace char = false) : trimmed text = text := by
  have kept : ∀ {text : Text}, (∀ char ∈ text, Filter.isWhiteSpace char = false) → text.dropWhile Filter.isWhiteSpace = text := by
    intro text plain
    cases text with
    | nil => rfl
    | cons first rest => rw [List.dropWhile_cons, plain first List.mem_cons_self, if_neg Bool.false_ne_true]
  rw [trimmed, Text.trimBy, kept plain, kept fun char there => plain char (List.mem_reverse.mp there), List.reverse_reverse]

theorem plain_digits {base width number : Nat} (positive : 0 < base) (few : base ≤ 62) :
    ∀ char ∈ digits base width number, Filter.isWhiteSpace char = false := by
  intro char there
  obtain ⟨value, small, rfl⟩ := exists_of_mem_digits positive there
  exact plain_packedChar (small.trans_le few)

section

variable {number : Nat}

theorem unpack_digits (positive : 0 < number) (small : number < 100000) :
    Gives (unpackDesignation (digits 10 5 number)) (String.ofList (Nat.toDigits 10 number)) := by
  have length := length_digits 10 5 number
  have all : (digits 10 5 number).all Char.isDigit = true := List.all_eq_true.mpr fun _ => isDigit_of_mem_digits
  have first : (digits 10 5 number).head? ≠ some '~' := by
    intro isFirst
    exact absurd (isDigit_of_mem_digits (List.mem_of_mem_head? isFirst)) (by decide)
  unfold unpackDesignation
  rw [trimmed_of_plain (plain_digits (by decide) (by decide)), if_neg fun both => first both.1, if_pos length]
  rw [unpackNumbered, if_pos all, dropWhile_digits small, if_neg positive.ne']
  exact gives_pure _

theorem unpack_lettered (large : ¬ number < 100000) (small : number < 620000) :
    Gives (unpackDesignation (packedChar (number / 10000) :: digits 10 4 (number % 10000)))
      (String.ofList (Nat.toDigits 10 number)) := by
  have length := length_digits 10 4 (number % 10000)
  have high : number / 10000 < 62 := by omega
  obtain ⟨isLetter, other⟩ := packedLetter_spec high (by omega)
  have plain : ∀ char ∈ packedChar (number / 10000) :: digits 10 4 (number % 10000), Filter.isWhiteSpace char = false := by
    refine List.forall_mem_cons.mpr ⟨?_, plain_digits (by decide) (by decide)⟩
    exact plain_packedChar (by omega)
  have whole : number / 10000 * 10000 + number % 10000 = number := by omega
  unfold unpackDesignation
  rw [trimmed_of_plain plain, if_neg fun both => other (Option.some.inj both.1), if_pos (by simp [length])]
  rw [unpackNumbered, if_neg (by simp [isLetter])]
  refine (gives_charAt rfl).bind ((gives_found (packedValue_packedChar (by omega))).bind ?_)
  refine (gives_rangeAt (by simp) le_rfl).bind ?_
  rw [List.take_length, List.drop_one, List.tail_cons]
  refine (gives_found (parseNat_digits (by omega) (by decide) (by decide))).bind ?_
  refine (gives_fits (by omega)).bind ((gives_fits (by omega)).bind ?_)
  rw [whole, Nat.toString_eq_ofList_toDigits]
  exact gives_pure _

theorem unpack_high (large : ¬ number < 620000) (reached : number < 620000 + Nat.pow 62 4) :
    Gives (unpackDesignation ('~' :: digits 62 4 (number - 620000))) (String.ofList (Nat.toDigits 10 number)) := by
  have length := length_digits 62 4 (number - 620000)
  have pow : Nat.pow 62 4 = 14776336 := rfl
  have plain : ∀ char ∈ '~' :: digits 62 4 (number - 620000), Filter.isWhiteSpace char = false :=
    List.forall_mem_cons.mpr ⟨by decide, plain_digits (by decide) (by decide)⟩
  have whole : number - 620000 + 620000 = number := by omega
  unfold unpackDesignation
  rw [trimmed_of_plain plain, if_pos ⟨rfl, by simp [length]⟩]
  refine (gives_rangeAt (by simp) le_rfl).bind ?_
  rw [List.take_length, List.drop_one, List.tail_cons]
  refine (gives_unpackDigits (by omega) (by decide)).bind ((gives_fits (by omega)).bind ?_)
  rw [whole, Nat.toString_eq_ofList_toDigits]
  exact gives_pure _

end

/-! ## Half-months -/

section

variable {year index : Nat} {halfMonth : Char}

theorem provisional_eq (year index : Nat) (halfMonth : Char) :
    provisional year halfMonth (orderLetter index) (index / 25) =
      String.ofList (Nat.toDigits 10 year ++ ' ' :: placeText halfMonth index) := by
  have space : " " = String.ofList [' '] := rfl
  unfold provisional placeText
  rw [Nat.toString_eq_ofList_toDigits, Nat.toString_eq_ofList_toDigits, space]
  split
  · rw [String.append_empty, ← String.ofList_append, ← String.ofList_append, List.append_assoc]
    rfl
  · rw [← String.ofList_append, ← String.ofList_append, ← String.ofList_append, List.append_assoc, List.append_assoc]
    rfl

theorem unpack_extended (century : 2000 ≤ year ∧ year < 2062) (letter : halfMonth ∈ halfMonthLetters)
    (reached : extendedFirst ≤ index ∧ index < extendedFirst + Nat.pow 62 4) :
    Gives (unpackDesignation ('_' :: packedChar (year - 2000) :: halfMonth :: digits 62 4 (index - extendedFirst)))
      (String.ofList (Nat.toDigits 10 year ++ ' ' :: placeText halfMonth index)) := by
  have length := length_digits 62 4 (index - extendedFirst)
  have pow : Nat.pow 62 4 = 14776336 := rfl
  have first : extendedFirst = 15500 := rfl
  have ordinal : extendedFirstOrdinal = 15501 := rfl
  have plain : ∀ char ∈ '_' :: packedChar (year - 2000) :: halfMonth :: digits 62 4 (index - extendedFirst),
      Filter.isWhiteSpace char = false := by
    refine List.forall_mem_cons.mpr ⟨by decide, List.forall_mem_cons.mpr ⟨?_, List.forall_mem_cons.mpr ⟨?_, ?_⟩⟩⟩
    · exact plain_packedChar (by omega)
    · exact (letters_spec.1 _ letter).2.2.2.1
    · exact plain_digits (by decide) (by decide)
  have seven : ('_' :: packedChar (year - 2000) :: halfMonth :: digits 62 4 (index - extendedFirst)).length = 7 := by
    simp [length]
  have whole : 2000 + (year - 2000) = year := by omega
  have next : 15501 + (index - extendedFirst) - 1 = index := by omega
  unfold unpackDesignation
  rw [trimmed_of_plain plain, if_neg (by simp), if_neg (by omega), if_pos ⟨seven, rfl⟩]
  refine (gives_charAt rfl).bind ((gives_found (packedValue_packedChar (by omega))).bind ?_)
  refine (gives_fits (by omega)).bind ((gives_charAt rfl).bind ((gives_rangeAt (by decide) seven.ge).bind ?_))
  have rest : (('_' :: packedChar (year - 2000) :: halfMonth :: digits 62 4 (index - extendedFirst)).take 7).drop 3 =
      digits 62 4 (index - extendedFirst) := by
    rw [List.take_of_length_le seven.le]
    rfl
  rw [rest, whole]
  refine (gives_unpackDigits (by omega) (by decide)).bind ((gives_fits (by omega)).bind ?_)
  refine (gives_lift (checkedSub_of_le (by omega))).bind ?_
  rw [ordinal, next]
  refine (gives_found (orderLetter_spec index).1).bind ?_
  rw [provisional_eq]
  exact gives_pure _

theorem slice_of_narrow {text : Text} (narrow : ∀ char ∈ text, char.utf8Size = 1) {before part after : Text}
    (parts : text = before ++ (part ++ after)) :
    text.slice before.length (before.length + part.length) = .ok part := by
  have bytes : ∀ {piece : Text}, (∀ char ∈ piece, char.utf8Size = 1) → piece.bytes = piece.length := by
    intro piece narrow
    induction piece with
    | nil => rfl
    | cons char rest ih =>
      obtain ⟨first, rest⟩ := List.forall_mem_cons.mp narrow
      rw [Text.bytes_cons, first, ih rest, List.length_cons, Nat.add_comm]
  rw [Text.slice_eq_ok_iff, Text.get_eq_some_iff]
  have start : before.bytes = before.length := bytes fun char there => narrow char (by simp [parts, there])
  have width : part.bytes = part.length := bytes fun char there => narrow char (by simp [parts, there])
  exact ⟨before, after, parts, start, congrArg (before.length + ·) width⟩

theorem surveyOf_eq_none {first second third : Char} (other : first ∉ ['~', '_', 'P', 'T']) :
    surveyOf [first, second, third] = none := by
  simp only [List.mem_cons, not_or] at other
  have plain : ∀ {name : Text}, name.head? ≠ some first → [first, second, third] ≠ name := by
    rintro name differs rfl
    exact differs rfl
  unfold surveyOf
  rw [if_neg (plain (by simpa using Ne.symm other.2.2.1)), if_neg (plain (by simpa using Ne.symm other.2.2.2.1)),
    if_neg (plain (by simpa using Ne.symm other.2.2.2.1)), if_neg (plain (by simpa using Ne.symm other.2.2.2.1))]

theorem unpack_provisional (century : 1800 ≤ year ∧ year < 2100) (letter : halfMonth ∈ halfMonthLetters)
    (reached : index < extendedFirst) :
    Gives (unpackDesignation ("IJK".toList.getD (year / 100 - 18) 'I' :: packedChar (year / 10 % 10) ::
        packedChar (year % 10) :: halfMonth :: packedChar (index / 25 / 10) :: packedChar (index / 25 % 10) ::
        [orderLetter index]))
      (String.ofList (Nat.toDigits 10 year ++ ' ' :: placeText halfMonth index)) := by
  have first : extendedFirst = 15500 := rfl
  obtain ⟨isCentury, blank, width, other⟩ := century_spec (year / 100 - 18) (by omega)
  generalize "IJK".toList.getD (year / 100 - 18) 'I' = head at *
  have plain : ∀ char ∈ head :: packedChar (year / 10 % 10) :: packedChar (year % 10) :: halfMonth ::
      packedChar (index / 25 / 10) :: packedChar (index / 25 % 10) :: [orderLetter index],
      Filter.isWhiteSpace char = false ∧ char.utf8Size = 1 := by
    have packed : ∀ value < 62, Filter.isWhiteSpace (packedChar value) = false ∧ (packedChar value).utf8Size = 1 :=
      fun value small => ⟨plain_packedChar small, narrow_packedChar small⟩
    simp only [List.forall_mem_cons, List.not_mem_nil, false_implies, implies_true, and_true]
    exact ⟨⟨blank, width⟩, packed _ (by omega), packed _ (by omega),
      (letters_spec.1 _ letter).2.2.2, packed _ (by omega), packed _ (by omega), (orderLetter_spec index).2.2.2⟩
  have slice := @slice_of_narrow _ (fun char there => (plain char there).2) []
    [head, packedChar (year / 10 % 10), packedChar (year % 10)] _ rfl
  have others : head ≠ '~' ∧ head ≠ '_' := by
    simp only [List.mem_cons, not_or] at other
    exact ⟨other.1, other.2.1⟩
  have whole : (year / 100 - 18 + 18) * 100 + year / 10 % 10 * 10 + year % 10 = year := by omega
  have cycle : index / 25 / 10 * 10 + index / 25 % 10 = index / 25 := by omega
  unfold unpackDesignation
  rw [trimmed_of_plain fun char there => (plain char there).1, if_neg (by simp), if_neg (by simp), if_neg (by simp [others]),
    if_pos (by simp)]
  refine (gives_lift slice).bind ?_
  rw [surveyOf_eq_none other]
  have isYear : Gives (unpackYear (head :: packedChar (year / 10 % 10) :: packedChar (year % 10) :: halfMonth ::
      packedChar (index / 25 / 10) :: packedChar (index / 25 % 10) :: [orderLetter index])) year := by
    refine (gives_charAt rfl).bind ((gives_found isCentury).bind ((gives_fits (by omega)).bind ?_))
    refine (gives_charAt rfl).bind ((gives_found (packedDigit_spec (by omega)).1).bind ((gives_fits (by omega)).bind ?_))
    refine (gives_fits (by omega)).bind ((gives_charAt rfl).bind ?_)
    refine (gives_found (packedDigit_spec (by omega)).1).bind ?_
    rw [checkedAdd, whole]
    exact gives_fits (by omega)
  refine isYear.bind ((gives_charAt rfl).bind ((gives_charAt rfl).bind ?_))
  refine (gives_found (packedValue_packedChar (by omega))).bind ((gives_fits (by omega)).bind ((gives_charAt rfl).bind ?_))
  refine (gives_found (packedDigit_spec (by omega)).1).bind ((gives_fits (by omega)).bind ((gives_charAt rfl).bind ?_))
  rw [cycle, provisional_eq]
  exact gives_pure _

end

/-! ## Surveys -/

variable (source : Survey)

theorem survey_spec : surveyOf source.head = some (String.ofList source.code) ∧ source.head.length = 3 ∧
    (∀ char ∈ source.head, Filter.isWhiteSpace char = false ∧ char.utf8Size = 1) ∧
    source.head.head? ≠ some '~' ∧ source.head.head? ≠ some '_' := by
  cases source <;> exact ⟨rfl, rfl, forall_of_all (by decide), by decide⟩

theorem unpack_survey {number : Nat} (positive : 0 < number) (reached : number < 10000) :
    Gives (unpackDesignation (source.head ++ digits 10 4 number))
      (String.ofList (Nat.toDigits 10 number ++ ' ' :: source.code)) := by
  obtain ⟨isSurvey, three, plain, other, other'⟩ := survey_spec source
  have length := length_digits 10 4 number
  generalize source.head = head at *
  have narrow : ∀ char ∈ head ++ digits 10 4 number, char.utf8Size = 1 := by
    intro char there
    rcases List.mem_append.mp there with front | back
    · exact (plain char front).2
    · obtain ⟨value, small, rfl⟩ := exists_of_mem_digits (by decide) back
      exact narrow_packedChar (by omega)
  have plain' : ∀ char ∈ head ++ digits 10 4 number, Filter.isWhiteSpace char = false := by
    intro char there
    rcases List.mem_append.mp there with front | back
    · exact (plain char front).1
    · exact plain_digits (by decide) (by decide) char back
  have first : (head ++ digits 10 4 number).head? = head.head? := by
    cases head with
    | nil => cases three
    | cons _ _ => rfl
  have front := @slice_of_narrow _ narrow [] head (digits 10 4 number) rfl
  have back := @slice_of_narrow _ narrow head (digits 10 4 number) [] (by rw [List.append_nil])
  rw [List.length_nil, Nat.zero_add, three] at front
  rw [three, length] at back
  have isWhole : Decimal.isWhole (Nat.toDigits 10 number) = true := by
    rw [Decimal.isWhole, Bool.and_eq_true, List.all_eq_true]
    refine ⟨?_, fun char => Nat.isDigit_of_mem_toDigits (by decide) (by decide)⟩
    simp
  unfold unpackDesignation
  rw [trimmed_of_plain plain']
  dsimp only
  rw [first, if_neg fun both => other both.1, if_neg (by simp [three, length]),
    if_neg fun both => other' both.2, if_pos (by simp [three, length])]
  refine (gives_lift front).bind ?_
  rw [isSurvey]
  refine (gives_lift back).bind ?_
  rw [dropWhile_digits (by omega), if_neg positive.ne', if_pos isWhole]
  have written : String.ofList (Nat.toDigits 10 number) ++ " " ++ String.ofList source.code =
      String.ofList (Nat.toDigits 10 number ++ ' ' :: source.code) := by
    have space : " " = String.ofList [' '] := rfl
    rw [space, ← String.ofList_append, ← String.ofList_append, List.append_assoc]
    rfl
  rw [written]
  exact gives_pure _

theorem unpack_packed (designation : Designation) :
    Gives (unpackDesignation designation.packed) (String.ofList designation.unpacked) := by
  match designation with
  | .numbered number positive reached =>
    rw [Designation.packed]
    by_cases small : number < 100000
    · rw [if_pos small]
      exact unpack_digits positive small
    · rw [if_neg small]
      by_cases lettered : number < 620000
      · rw [if_pos lettered]
        exact unpack_lettered small lettered
      · rw [if_neg lettered]
        exact unpack_high lettered reached
  | .provisional year halfMonth index century letter reached => exact unpack_provisional century letter reached
  | .extended year halfMonth index century letter reached => exact unpack_extended century letter reached
  | .survey source number positive reached => exact unpack_survey source positive reached

/-! ## No two have one name -/

theorem toDigits_inj {first second : Nat} (same : Nat.toDigits 10 first = Nat.toDigits 10 second) : first = second := by
  have read := congrArg (Nat.ofDigitChars 10 · 0) same
  simpa only [Nat.ofDigitChars_ten_toDigits] using read

theorem not_mem_toDigits {number : Nat} {char : Char} (other : char.isDigit = false) : char ∉ Nat.toDigits 10 number := by
  intro there
  rw [Nat.isDigit_of_mem_toDigits (by decide) (by decide) there] at other
  cases other

theorem toDigits_space_inj {first second : Nat} {rest rest' : Text}
    (same : Nat.toDigits 10 first ++ ' ' :: rest = Nat.toDigits 10 second ++ ' ' :: rest') : first = second ∧ rest = rest' := by
  have split := @splitOnce_of_not_mem _ _ (Nat.toDigits 10 first) ' ' [] (not_mem_toDigits (by decide)) rest
  have split' := @splitOnce_of_not_mem _ _ (Nat.toDigits 10 second) ' ' [] (not_mem_toDigits (by decide)) rest'
  rw [List.append_assoc, List.singleton_append] at split split'
  rw [same, split'] at split
  obtain ⟨numbers, rests⟩ := Prod.mk.inj (Option.some.inj split)
  exact ⟨(toDigits_inj numbers).symm, rests.symm⟩

theorem placeText_inj {halfMonth halfMonth' : Char} {index index' : Nat}
    (same : placeText halfMonth index = placeText halfMonth' index') : halfMonth = halfMonth' ∧ index = index' := by
  obtain ⟨rfl, others⟩ := List.cons.inj same
  obtain ⟨letters, cycles⟩ := List.cons.inj others
  have place := orderLetter_inj letters
  have cycle : index / 25 = index' / 25 := by
    split at cycles
    · next none_ =>
      split at cycles
      · next none_' => exact none_.trans none_'.symm
      · exact absurd cycles.symm Nat.toDigits_ne_nil
    · split at cycles
      · exact absurd cycles Nat.toDigits_ne_nil
      · exact toDigits_inj cycles
  exact ⟨rfl, by omega⟩

theorem code_ne_placeText (halfMonth : Char) (index : Nat) : source.code ≠ placeText halfMonth index := by
  intro same
  have hyphen : source.code[1]? = some '-' := by cases source <;> rfl
  rw [same] at hyphen
  have letter : orderLetter index = '-' := Option.some.inj hyphen
  exact (orderLetter_spec index).2.2.1 (by rw [letter]; decide)

theorem code_inj {source source' : Survey} (same : source.code = source'.code) : source = source' := by
  cases source <;> cases source' <;> first | rfl | exact absurd same (by decide)

theorem toDigits_ne_spaced {number number' : Nat} {rest : Text} :
    Nat.toDigits 10 number ≠ Nat.toDigits 10 number' ++ ' ' :: rest := by
  intro same
  have space : ' ' ∈ Nat.toDigits 10 number := same ▸ List.mem_append_right _ List.mem_cons_self
  exact not_mem_toDigits (by decide) space

theorem unpacked_inj {first second : Designation} (same : first.unpacked = second.unpacked) : first = second := by
  match first, second with
  | .numbered number _ _, .numbered number' _ _ =>
    obtain rfl : number = number' := toDigits_inj same
    rfl
  | .numbered _ _ _, .provisional .. | .numbered _ _ _, .extended .. | .numbered _ _ _, .survey .. =>
    exact absurd same toDigits_ne_spaced
  | .provisional .., .numbered _ _ _ | .extended .., .numbered _ _ _ | .survey .., .numbered _ _ _ =>
    exact absurd same.symm toDigits_ne_spaced
  | .provisional year halfMonth index _ _ _, .provisional year' halfMonth' index' _ _ _ =>
    obtain ⟨rfl, places⟩ := toDigits_space_inj same
    obtain ⟨rfl, rfl⟩ := placeText_inj places
    rfl
  | .extended year halfMonth index _ _ _, .extended year' halfMonth' index' _ _ _ =>
    obtain ⟨rfl, places⟩ := toDigits_space_inj same
    obtain ⟨rfl, rfl⟩ := placeText_inj places
    rfl
  -- The orders that one form reaches are those that the other does not.
  | .provisional _ _ index _ _ reached, .extended _ _ index' _ _ reached' =>
    obtain ⟨-, places⟩ := toDigits_space_inj same
    obtain ⟨-, rfl⟩ := placeText_inj places
    exact absurd reached (Nat.not_lt.mpr reached'.1)
  | .extended _ _ index _ _ reached', .provisional _ _ index' _ _ reached =>
    obtain ⟨-, places⟩ := toDigits_space_inj same
    obtain ⟨-, rfl⟩ := placeText_inj places
    exact absurd reached (Nat.not_lt.mpr reached'.1)
  | .survey source number _ _, .survey source' number' _ _ =>
    obtain ⟨rfl, codes⟩ := toDigits_space_inj same
    obtain rfl := code_inj codes
    rfl
  | .survey source _ _ _, .provisional .. | .survey source _ _ _, .extended .. =>
    exact absurd (toDigits_space_inj same).2 (code_ne_placeText source _ _)
  | .provisional .., .survey source _ _ _ | .extended .., .survey source _ _ _ =>
    exact absurd (toDigits_space_inj same).2.symm (code_ne_placeText source _ _)

/-! ## What alerts carry is brought to -/

section

variable {text : Text}

theorem normalize_eq (plain : ∀ char ∈ text, Filter.isWhiteSpace char = false)
    (first : text.head?.any Char.isDigit = true) :
    normalizeZtfSsnamenr text =
      if text.all Char.isDigit then some (String.ofList text)
      else if isCometDesignation text then some (String.ofList text)
      else if isProvisional text then some (String.ofList (text.take 4 ++ ' ' :: text.drop 4))
      else none := by
  have some_ : text.isEmpty = false := by cases text <;> simp_all
  have other : text.head? ≠ some '(' := by
    intro same
    rw [same] at first
    exact absurd first (by decide)
  unfold normalizeZtfSsnamenr
  dsimp only
  rw [trimmed_of_plain plain, some_, if_neg Bool.false_ne_true, if_neg other]

theorem isDigit_toDigits (number : Nat) : ∀ char ∈ Nat.toDigits 10 number, char.isDigit = true :=
  fun _ => Nat.isDigit_of_mem_toDigits (by decide) (by decide)

theorem plain_of_isDigit {char : Char} (isDigit : char.isDigit = true) : Filter.isWhiteSpace char = false := by
  have bounds : '0'.val ≤ char.val ∧ char.val ≤ '9'.val := by simpa [Char.isDigit] using isDigit
  have lower : 48 ≤ char.toNat := UInt32.le_iff_toNat_le.mp bounds.1
  have upper : char.toNat ≤ 57 := UInt32.le_iff_toNat_le.mp bounds.2
  simp only [Filter.isWhiteSpace, Bool.or_eq_false_iff, Bool.and_eq_false_iff, decide_eq_false_iff_not, beq_eq_false_iff_ne]
  omega

theorem head_toDigits (number : Nat) (rest : Text) : (Nat.toDigits 10 number ++ rest).head?.any Char.isDigit = true := by
  cases written : Nat.toDigits 10 number with
  | nil => exact absurd written Nat.toDigits_ne_nil
  | cons first others => exact isDigit_toDigits number first (written ▸ List.mem_cons_self)

theorem unspaced_eq {number : Nat} {rest : Text} (unspaced : ' ' ∉ rest) :
    (Nat.toDigits 10 number ++ ' ' :: rest).filter (· ≠ ' ') = Nat.toDigits 10 number ++ rest := by
  rw [List.filter_append, List.filter_cons_of_neg (by simp)]
  congr 1 <;> refine List.filter_eq_self.mpr fun char there => decide_eq_true ?_
  · rintro rfl
    exact not_mem_toDigits (by decide) there
  · rintro rfl
    exact unspaced there

theorem normalize_number (number : Nat) :
    normalizeZtfSsnamenr ((Nat.toDigits 10 number).filter (· ≠ ' ')) = some (String.ofList (Nat.toDigits 10 number)) := by
  have unspaced : (Nat.toDigits 10 number).filter (· ≠ ' ') = Nat.toDigits 10 number := by
    refine List.filter_eq_self.mpr fun char there => decide_eq_true ?_
    rintro rfl
    exact not_mem_toDigits (by decide) there
  have first := head_toDigits number []
  rw [List.append_nil] at first
  rw [unspaced, normalize_eq (fun char there => plain_of_isDigit (isDigit_toDigits number char there)) first,
    if_pos (List.all_eq_true.mpr (isDigit_toDigits number))]

end

/-! ### Half-months -/

theorem length_year {year : Nat} (four : 1000 ≤ year ∧ year < 10000) : (Nat.toDigits 10 year).length = 4 := by
  have atMost := (@Nat.length_toDigits_le_iff 10 year 4 (by decide) (by decide)).mpr four.2
  have atLeast := (@Nat.length_toDigits_le_iff 10 year 3 (by decide) (by decide)).not.mpr (Nat.not_lt.mpr four.1)
  omega

def cycleText (index : Nat) : Text := if index / 25 = 0 then [] else Nat.toDigits 10 (index / 25)

theorem isDigit_cycleText (index : Nat) : ∀ char ∈ cycleText index, char.isDigit = true := by
  intro char there
  unfold cycleText at there
  split at there
  · cases there
  · exact isDigit_toDigits _ char there

section

variable {year index : Nat} {halfMonth : Char} (letter : halfMonth ∈ halfMonthLetters)
include letter

theorem not_mem_placeText {char : Char} (mark : char ∈ [' ', '-', '/']) : char ∉ placeText halfMonth index := by
  have digit : char.isDigit = false := by
    simp only [List.mem_cons, List.not_mem_nil, or_false] at mark
    rcases mark with rfl | rfl | rfl <;> decide
  intro there
  rcases List.mem_cons.mp there with rfl | there
  · exact (letters_spec.1 _ letter).2.2.1 mark
  rcases List.mem_cons.mp there with rfl | there
  · exact (orderLetter_spec index).2.2.1 mark
  · rw [isDigit_cycleText index char there] at digit
    cases digit

theorem plain_placeText : ∀ char ∈ placeText halfMonth index, Filter.isWhiteSpace char = false := by
  intro char there
  rcases List.mem_cons.mp there with rfl | there
  · exact (letters_spec.1 _ letter).2.2.2.1
  rcases List.mem_cons.mp there with rfl | there
  · exact (orderLetter_spec index).2.2.2.1
  · exact plain_of_isDigit (isDigit_cycleText index char there)

theorem not_isCometDesignation : isCometDesignation (Nat.toDigits 10 year ++ placeText halfMonth index) = false := by
  have absent : ∀ char ∈ [' ', '-', '/'], char ∉ Nat.toDigits 10 year ++ placeText halfMonth index := by
    intro char mark there
    have digit : char.isDigit = false := by
      simp only [List.mem_cons, List.not_mem_nil, or_false] at mark
      rcases mark with rfl | rfl | rfl <;> decide
    rcases List.mem_append.mp there with there | there
    · exact not_mem_toDigits digit there
    · exact not_mem_placeText letter mark there
  have whole : splitOnce ['-'] (Nat.toDigits 10 year ++ placeText halfMonth index) = none := by
    cases split : splitOnce ['-'] (Nat.toDigits 10 year ++ placeText halfMonth index) with
    | none => rfl
    | some parts =>
      have same := splitOnce_eq_some split
      exact absurd (same ▸ by simp) (absent '-' (by simp))
  unfold isCometDesignation
  rw [if_neg (absent '/' (by simp)), whole, Option.map_none, Option.getD_none]
  dsimp only
  split
  · rfl
  · have front : (Nat.toDigits 10 year ++ placeText halfMonth index).dropLast =
        Nat.toDigits 10 year ++ halfMonth :: (orderLetter index :: cycleText index).dropLast := by
      rw [List.dropLast_append_of_ne_nil (by simp [placeText])]
      rfl
    rw [front, List.all_append, List.all_cons, (letters_spec.1 _ letter).2.1, Bool.false_and, Bool.and_false, Bool.and_false]

theorem isProvisional_year (four : 1000 ≤ year ∧ year < 10000) :
    isProvisional (Nat.toDigits 10 year ++ placeText halfMonth index) = true := by
  have length := length_year four
  have digits := isDigit_toDigits year
  generalize Nat.toDigits 10 year = front at *
  match front with
  | [first, second, third, fourth] =>
    simp only [isProvisional, placeText, Bool.and_eq_true, List.all_eq_true]
    refine ⟨⟨⟨⟨?_, digits⟩, ?_⟩, ?_⟩, ?_⟩
    · simp
    · exact (letters_spec.1 _ letter).1
    · exact (orderLetter_spec index).2.1
    · exact isDigit_cycleText index

theorem normalize_provisional (four : 1000 ≤ year ∧ year < 10000) :
    normalizeZtfSsnamenr ((Nat.toDigits 10 year ++ ' ' :: placeText halfMonth index).filter (· ≠ ' ')) =
      some (String.ofList (Nat.toDigits 10 year ++ ' ' :: placeText halfMonth index)) := by
  have plain : ∀ char ∈ Nat.toDigits 10 year ++ placeText halfMonth index, Filter.isWhiteSpace char = false := by
    intro char there
    rcases List.mem_append.mp there with there | there
    · exact plain_of_isDigit (isDigit_toDigits year char there)
    · exact plain_placeText letter char there
  have lettered : (Nat.toDigits 10 year ++ placeText halfMonth index).all Char.isDigit = false := by
    rw [List.all_append, placeText, List.all_cons, (letters_spec.1 _ letter).2.1, Bool.false_and, Bool.and_false]
  have length := length_year four
  rw [unspaced_eq (not_mem_placeText letter (by simp)), normalize_eq plain (head_toDigits year _), lettered,
    not_isCometDesignation letter, isProvisional_year letter four, if_neg Bool.false_ne_true, if_neg Bool.false_ne_true,
    if_pos rfl, List.take_left' length, List.drop_left' length]

end

/-! ### Surveys -/

def Survey.isPalomarLeiden : Survey → Bool
  | .palomarLeiden => true
  | _ => false

theorem upper_or_digit_of_isProvisional {text : Text} (holds : isProvisional text = true) :
    ∀ char ∈ text, char.isDigit = true ∨ char.isUpper = true := by
  simp only [isProvisional, Bool.and_eq_true, List.all_eq_true] at holds
  obtain ⟨⟨⟨⟨-, year⟩, fifth⟩, sixth⟩, rest⟩ := holds
  intro char there
  obtain ⟨place, isPlace⟩ := List.mem_iff_getElem?.mp there
  rcases Nat.lt_or_ge place 4 with early | late
  · exact .inl (year char (List.mem_of_getElem? (by rw [List.getElem?_take_of_lt early]; exact isPlace)))
  rcases Nat.lt_or_ge 5 place with later | few
  · refine .inl (rest char (List.mem_of_getElem? (i := place - 6) ?_))
    rw [List.getElem?_drop, Nat.add_sub_cancel' later]
    exact isPlace
  · obtain rfl | rfl : place = 4 ∨ place = 5 := by omega
    · rw [isPlace] at fifth
      exact .inr fifth
    · rw [isPlace] at sixth
      exact .inr sixth

theorem code_spec : ∃ kind last, source.code = [kind, '-', last] ∧ kind ≠ '/' ∧ kind ≠ '-' ∧ last ≠ '/' ∧
    kind.isDigit = false ∧ ("PCDXI".toList.contains kind = source.isPalomarLeiden) ∧
    ∀ char ∈ source.code, char ≠ ' ' ∧ Filter.isWhiteSpace char = false := by
  cases source
  · exact ⟨'P', 'L', rfl, by decide, by decide, by decide, rfl, by decide, forall_of_all (by decide)⟩
  · exact ⟨'T', '1', rfl, by decide, by decide, by decide, rfl, by decide, forall_of_all (by decide)⟩
  · exact ⟨'T', '2', rfl, by decide, by decide, by decide, rfl, by decide, forall_of_all (by decide)⟩
  · exact ⟨'T', '3', rfl, by decide, by decide, by decide, rfl, by decide, forall_of_all (by decide)⟩

theorem isCometDesignation_survey (number : Nat) :
    isCometDesignation (Nat.toDigits 10 number ++ source.code) = source.isPalomarLeiden := by
  obtain ⟨kind, last, same, slash, hyphen, slash', digit, isKind, -⟩ := code_spec source
  have head : '-' ∉ Nat.toDigits 10 number ++ [kind] := by
    simp only [List.mem_append, List.mem_singleton, not_or]
    exact ⟨not_mem_toDigits (by decide), hyphen.symm⟩
  have split := @splitOnce_of_not_mem _ _ _ '-' [] head [last]
  have parts : Nat.toDigits 10 number ++ source.code = Nat.toDigits 10 number ++ [kind] ++ ['-'] ++ [last] := by
    rw [same, List.append_assoc, List.append_assoc]
    rfl
  have noSlash : '/' ∉ Nat.toDigits 10 number ++ source.code := by
    simp only [same, List.mem_append, List.mem_cons, List.not_mem_nil, or_false, not_or]
    exact ⟨not_mem_toDigits (by decide), slash.symm, by decide, slash'.symm⟩
  have long : 1 < Text.bytes (Nat.toDigits 10 number ++ [kind]) := by
    have more := Text.length_le_bytes (Nat.toDigits 10 number ++ [kind])
    have some_ := @Nat.length_toDigits_pos 10 number
    rw [List.length_append, List.length_singleton] at more
    omega
  unfold isCometDesignation
  rw [if_neg noSlash, parts, split, Option.map_some, Option.getD_some]
  dsimp only
  rw [List.getLast?_concat, List.dropLast_concat, List.all_eq_true.mpr (isDigit_toDigits number)]
  simp only [isKind, long, decide_true, Bool.and_true]

theorem normalize_survey (number : Nat) :
    normalizeZtfSsnamenr ((Nat.toDigits 10 number ++ ' ' :: source.code).filter (· ≠ ' ')) =
      if source.isPalomarLeiden then some (String.ofList (Nat.toDigits 10 number ++ source.code)) else none := by
  obtain ⟨kind, last, same, -, -, -, digit, -, plain⟩ := code_spec source
  have plain' : ∀ char ∈ Nat.toDigits 10 number ++ source.code, Filter.isWhiteSpace char = false := by
    intro char there
    rcases List.mem_append.mp there with there | there
    · exact plain_of_isDigit (isDigit_toDigits number char there)
    · exact (plain char there).2
  have lettered : (Nat.toDigits 10 number ++ source.code).all Char.isDigit = false := by
    rw [List.all_append, same, List.all_cons, digit, Bool.false_and, Bool.and_false]
  have hyphen : isProvisional (Nat.toDigits 10 number ++ source.code) = false := by
    rw [← Bool.not_eq_true]
    intro holds
    have mark := upper_or_digit_of_isProvisional holds '-' (by simp [same])
    exact absurd mark (by decide)
  rw [unspaced_eq fun there => (plain _ there).1 rfl, normalize_eq plain' (head_toDigits number _), lettered,
    isCometDesignation_survey, hyphen]
  rfl

/-! ## Keys -/

def Designation.isPalomarLeiden : Designation → Bool
  | .survey source _ _ _ => source.isPalomarLeiden
  | _ => false

structure Keyed (designation : Designation) : Prop where
  unpacked : Gives (unpackDesignation designation.packed) (String.ofList designation.unpacked)
  injective : ∀ other : Designation, (unpackDesignation other.packed).run = (unpackDesignation designation.packed).run →
    other.packed = designation.packed
  normalized : normalizeZtfSsnamenr (designation.unpacked.filter (· ≠ ' ')) = designation.key

theorem packed_inj {first second : Designation}
    (same : (unpackDesignation first.packed).run = (unpackDesignation second.packed).run) : first.packed = second.packed := by
  have names := (unpack_packed first).symm.trans (same.trans (unpack_packed second))
  rw [unpacked_inj (String.ofList_injective (Option.some.inj (Except.ok.inj names)))]

theorem normalize_key_iff (designation : Designation) :
    normalizeZtfSsnamenr (designation.unpacked.filter (· ≠ ' ')) = designation.key ↔ designation.isPalomarLeiden = false := by
  cases designation with
  | numbered number positive reached =>
    have key : Designation.key (.numbered number positive reached) = some (String.ofList (Nat.toDigits 10 number)) := rfl
    rw [key, Designation.unpacked, normalize_number]
    exact iff_of_true rfl rfl
  | provisional year halfMonth index century letter reached =>
    have key : Designation.key (.provisional year halfMonth index century letter reached) =
      some (String.ofList (Nat.toDigits 10 year ++ ' ' :: placeText halfMonth index)) := rfl
    have four : 1000 ≤ year ∧ year < 10000 := by omega
    rw [key, Designation.unpacked, normalize_provisional letter four]
    exact iff_of_true rfl rfl
  | extended year halfMonth index century letter reached =>
    have key : Designation.key (.extended year halfMonth index century letter reached) =
      some (String.ofList (Nat.toDigits 10 year ++ ' ' :: placeText halfMonth index)) := rfl
    have four : 1000 ≤ year ∧ year < 10000 := by omega
    rw [key, Designation.unpacked, normalize_provisional letter four]
    exact iff_of_true rfl rfl
  | survey source number positive reached =>
    have key : Designation.key (.survey source number positive reached) = none := rfl
    rw [key, Designation.unpacked, normalize_survey, Designation.isPalomarLeiden]
    cases source.isPalomarLeiden <;> simp

/-- Every designation is keyed but those of the one survey. -/
theorem keyed_iff (designation : Designation) : Keyed designation ↔ designation.isPalomarLeiden = false :=
  ⟨fun keyed => (normalize_key_iff designation).mp keyed.normalized, fun other =>
    ⟨unpack_packed designation, fun _ => packed_inj, (normalize_key_iff designation).mpr other⟩⟩

def survey4847 : Designation := .survey .palomarLeiden 4847 (by decide) (by decide)

theorem survey_kept_as_comet : ¬ ∀ designation, Keyed designation := by
  intro always
  exact absurd ((normalize_key_iff survey4847).mp (always survey4847).normalized) (by decide)

end Boom.Utils.Mpcorb
