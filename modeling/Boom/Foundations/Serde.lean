import Boom.Foundations.Json

/-! # Reading a JSON value into a record

What a derived deserializer accepts of a parsed JSON value, when the record refuses
no unknown field.  A record is read from an object, by the names of its fields, or
from an array, by their places; a field may have a default for when it is absent,
which is not what stands for an explicit `null`.  Every reader answers `none` for
what it refuses. -/

namespace Boom.Foundations.Serde

abbrev Reader (α : Type) := Json → Option α

abbrev Fields := String → Option Json

variable {α : Type}

/-! ## Single values -/

def string : Reader String := Json.asStr

def bool : Reader Bool
  | .bool value => some value
  | _ => none

def usize : Reader Nat
  | .number (.posInt value) => if value < 2 ^ 64 then some value else none
  | _ => none

def i64 : Reader Int
  | .number (.posInt value) => if value < 2 ^ 63 then some value else none
  | .number (.negInt value) => if -2 ^ 63 ≤ value then some value else none
  | _ => none

def number : Reader Number
  | .number value => some value
  | _ => none

def each (read : Reader α) : List Json → Option (List α)
  | [] => some []
  | item :: rest => do
    let first ← read item
    let others ← each read rest
    return first :: others

def list (read : Reader α) : Reader (List α)
  | .array items => each read items
  | _ => none

def unitVariant (variants : List (String × α)) : Reader α
  | .string name => variants.lookup name
  | .object [(name, .null)] => variants.lookup name
  | _ => none

/-! ## Records -/

def fields (names : List String) : Reader Fields
  | .object entries => some fun name => entries.lookup name
  | .array items =>
    if items.length ≤ names.length then some fun name => (names.zip items).lookup name else none
  | _ => none

def tagged (key : String) : Json → Option (String × Json)
  | .object entries => do
    let tag ← (entries.lookup key).bind string
    return (tag, .object (entries.filter fun entry => entry.1 != key))
  | .array (first :: rest) => do
    let tag ← string first
    return (tag, .array rest)
  | _ => none

def required (read : Reader α) : Option Json → Option α
  | some value => read value
  | none => none

def withDefault (read : Reader α) (default : α) : Option Json → Option α
  | some value => read value
  | none => some default

def optional (read : Reader α) : Option Json → Option (Option α)
  | none | some .null => some none
  | some value => (read value).map some

/-! ## What a reader answers -/

@[simp] theorem string_eq_some {value : Json} {text : String} :
    string value = some text ↔ value = .string text := by
  cases value <;> simp [string, Json.asStr]

@[simp] theorem fields_object (names : List String) (entries : List (String × Json)) :
    fields names (.object entries) = some fun name => entries.lookup name := rfl

end Boom.Foundations.Serde
