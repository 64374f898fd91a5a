import Boom.Foundations.Double

/-! # BSON values

What the document store holds.  Integers remember their width, because a program that
reads one as a wide integer does not accept a narrow one. -/

namespace Boom.Foundations

inductive Decimal128 where
  | finite (coefficient exponent : Int)
  | infinity
  | negInfinity
  | nan
deriving DecidableEq, Repr

inductive Bson where
  | null
  | bool (value : Bool)
  | int32 (value : Int)
  | int64 (value : Int)
  | double (value : F64)
  | decimal (value : Decimal128)
  | string (value : String)
  | array (items : List Bson)
  | document (fields : List (String × Bson))

namespace Bson

mutual

def same : Bson → Bson → Bool
  | .null, .null => true
  | .bool first, .bool second => first == second
  | .int32 first, .int32 second => first == second
  | .int64 first, .int64 second => first == second
  | .double first, .double second => first == second
  | .decimal first, .decimal second => first == second
  | .string first, .string second => first == second
  | .array first, .array second => sameItems first second
  | .document first, .document second => sameFields first second
  | _, _ => false

def sameItems : List Bson → List Bson → Bool
  | [], [] => true
  | first :: rest, second :: others => same first second && sameItems rest others
  | _, _ => false

def sameFields : List (String × Bson) → List (String × Bson) → Bool
  | [], [] => true
  | (key, first) :: rest, (name, second) :: others =>
    key == name && same first second && sameFields rest others
  | _, _ => false

end

mutual

theorem same_iff : ∀ first second : Bson, same first second = true ↔ first = second
  | .array first, second => by
    cases second with
    | array second => simpa [same] using sameItems_iff first second
    | _ => simp [same]
  | .document first, second => by
    cases second with
    | document second => simpa [same] using sameFields_iff first second
    | _ => simp [same]
  | .null, second => by cases second <;> simp [same]
  | .bool first, second => by cases second <;> simp [same]
  | .int32 first, second => by cases second <;> simp [same]
  | .int64 first, second => by cases second <;> simp [same]
  | .double first, second => by cases second <;> simp [same]
  | .decimal first, second => by cases second <;> simp [same]
  | .string first, second => by cases second <;> simp [same]

theorem sameItems_iff : ∀ first second : List Bson, sameItems first second = true ↔ first = second
  | [], second => by cases second <;> simp [sameItems]
  | first :: rest, second => by
    cases second with
    | nil => simp [sameItems]
    | cons second others => simp [sameItems, same_iff first second, sameItems_iff rest others]

theorem sameFields_iff : ∀ first second : List (String × Bson), sameFields first second = true ↔ first = second
  | [], second => by cases second <;> simp [sameFields]
  | (key, first) :: rest, second => by
    cases second with
    | nil => simp [sameFields]
    | cons field others =>
      obtain ⟨name, second⟩ := field
      simp [sameFields, same_iff first second, sameFields_iff rest others]

end

instance : DecidableEq Bson := fun first second =>
  decidable_of_iff (same first second = true) (same_iff first second)

/-! ## Reading a value as one of a type -/

def asDocument : Bson → Option (List (String × Bson))
  | .document fields => some fields
  | _ => none

def asArray : Bson → Option (List Bson)
  | .array items => some items
  | _ => none

def asStr : Bson → Option String
  | .string text => some text
  | _ => none

def asF64 : Bson → Option F64
  | .double value => some value
  | _ => none

end Bson

/-! ## Fields of a document -/

section Fields

variable {V : Type}

def insertField (name : String) (value : V) : List (String × V) → List (String × V)
  | [] => [(name, value)]
  | (key, held) :: rest => if key = name then (name, value) :: rest else (key, held) :: insertField name value rest

@[simp] theorem lookup_insertField_self (name : String) (value : V) (fields : List (String × V)) :
    (insertField name value fields).lookup name = some value := by
  induction fields with
  | nil => simp [insertField]
  | cons field rest ih =>
    obtain ⟨key, held⟩ := field
    by_cases same : key = name
    · simp [insertField, same]
    · have differs : (name == key) = false := by simpa using Ne.symm same
      simp [insertField, same, List.lookup_cons, differs, ih]

theorem lookup_insertField_of_ne {name other : String} (differs : other ≠ name) (value : V)
    (fields : List (String × V)) : (insertField name value fields).lookup other = fields.lookup other := by
  have apart : (other == name) = false := by simpa using differs
  induction fields with
  | nil => simp [insertField, List.lookup_cons, apart]
  | cons field rest ih =>
    obtain ⟨key, held⟩ := field
    by_cases same : key = name
    · subst same
      simp [insertField, List.lookup_cons, apart]
    · simp [insertField, same, List.lookup_cons, ih]

end Fields

end Boom.Foundations
