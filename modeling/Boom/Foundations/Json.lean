import Boom.Foundations.Double

/-! # JSON values

A JSON value as a parser hands it out.  Numbers keep the form they were written in,
so that `0`, `0.0` and `-0` are different values.  A field path is a string with its
segments between dots. -/

namespace Boom.Foundations

/-- A number, by the form it was parsed into. -/
inductive Number where
  | posInt (value : Nat)
  | negInt (value : Int)
  | float (value : F64)
deriving DecidableEq

namespace Number

def zero : Number := .posInt 0

def one : Number := .posInt 1

def isZero : Number → Bool
  | .posInt value => value == 0
  | .negInt value => value == 0
  | .float value => value.magnitude == 0

end Number

inductive Json where
  | null
  | bool (value : Bool)
  | number (value : Number)
  | string (value : String)
  | array (items : List Json)
  | object (fields : List (String × Json))

namespace Json

def get (value : Json) (key : String) : Option Json :=
  match value with
  | .object fields => fields.lookup key
  | _ => none

def asObject : Json → Option (List (String × Json))
  | .object fields => some fields
  | _ => none

def asStr : Json → Option String
  | .string text => some text
  | _ => none

def isNumber (value : Json) (number : Number) : Bool :=
  match value with
  | .number held => held == number
  | _ => false

theorem isNumber_iff {value : Json} {number : Number} :
    value.isNumber number = true ↔ value = .number number := by
  cases value <;> simp [isNumber]

def isString (value : Json) (text : String) : Bool :=
  match value with
  | .string held => held == text
  | _ => false

end Json

/-! ## Strings and paths -/

def stripPrefix (text start : String) : Option String :=
  if start.toList.isPrefixOf text.toList then some (String.ofList (text.toList.drop start.toList.length))
  else none

@[simp] theorem stripPrefix_append (start rest : String) : stripPrefix (start ++ rest) start = some rest := by
  have isPrefix : start.toList <+: (start ++ rest).toList := by simp
  rw [stripPrefix, if_pos (List.isPrefixOf_iff_prefix.mpr isPrefix)]
  simp

theorem eq_append_of_stripPrefix {text start rest : String} (stripped : stripPrefix text start = some rest) :
    text = start ++ rest := by
  unfold stripPrefix at stripped
  split at stripped
  next isPrefix =>
    obtain rfl := Option.some.inj stripped
    apply String.toList_inj.mp
    rw [String.toList_append, String.toList_ofList]
    exact (List.prefix_iff_eq_append.mp (List.isPrefixOf_iff_prefix.mp isPrefix)).symm
  next => simp at stripped

def splitDots : List Char → List (List Char)
  | [] => [[]]
  | char :: rest =>
    if char = '.' then [] :: splitDots rest
    else
      match splitDots rest with
      | [] => [[char]]
      | first :: more => (char :: first) :: more

def segments (path : String) : List String :=
  (splitDots path.toList).map String.ofList

theorem splitDots_ne_nil (chars : List Char) : splitDots chars ≠ [] := by
  cases chars with
  | nil => simp [splitDots]
  | cons char rest =>
    simp only [splitDots]
    split
    · simp
    · split <;> simp

theorem segments_ne_nil (path : String) : segments path ≠ [] := by
  simp [segments, splitDots_ne_nil]

theorem eq_of_splitDots {chars word : List Char} (single : splitDots chars = [word]) : chars = word := by
  induction chars generalizing word with
  | nil => simpa [splitDots] using single
  | cons char rest ih =>
    simp only [splitDots] at single
    split at single
    next => simp [splitDots_ne_nil] at single
    next =>
      split at single
      next nothing => exact absurd nothing (splitDots_ne_nil rest)
      next first more whole =>
        obtain ⟨rfl, rfl⟩ := List.cons.inj single
        rw [ih whole]

theorem eq_of_segments {path name : String} (single : segments path = [name]) : path = name := by
  obtain ⟨word, split, rfl⟩ := List.map_eq_singleton_iff.mp single
  rw [← eq_of_splitDots split, String.ofList_toList]

end Boom.Foundations
