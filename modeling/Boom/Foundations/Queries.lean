import Boom.Foundations.SortOrder

/-! # Queries on documents

A query is a list of clauses that all have to hold.  `$lt` and `$gte` compare what a field
holds with an operand of its own kind, and a field that holds an array by what is in it as
well; `NaN` is not below anything, and a field that is missing is no less than null. -/

namespace Boom.Foundations

/-- The kinds of values, each compared within itself only. -/
inductive Kind where
  | minKey | null | number | text | document | array | binary | objectId | bool | date | timestamp | regex | code | maxKey
deriving DecidableEq, Repr

/-- Values as the store's queries see them.  `rank` is the order they sort in. -/
class Queried (V : Type) (K : outParam Type) [LinearOrder K] where
  kind : V → Kind
  isNan : V → Bool
  rank : V → K
  items : V → List V
  items_eq_nil : ∀ {value : V}, kind value ≠ .array → items value = []

namespace Bson

def kind : Bson → Kind
  | .null => .null
  | .int32 _ | .int64 _ | .double _ | .decimal _ => .number
  | .string _ => .text
  | .document _ => .document
  | .array _ => .array
  | .bool _ => .bool

def isNan : Bson → Bool
  | .double value => value.isNan
  | .decimal value => value == .nan
  | _ => false

def elements : Bson → List Bson
  | .array items => items
  | _ => []

instance : Queried Bson (List Token) where
  kind := kind
  isNan := isNan
  rank := sortKey
  items := elements
  items_eq_nil := by
    intro value noArray
    cases value <;> simp_all [kind, elements]

end Bson

/-- What a field is asked. -/
inductive Condition (V : Type) where
  | lt (operand : V)
  | gte (operand : V)
  | exists_ (wanted : Bool)
  | other (test : Option V → Bool)

inductive Clause (V : Type) where
  | all (queries : List (List (Clause V)))
  | any (queries : List (List (Clause V)))
  | field (name : String) (conditions : List (Condition V))
  | other (test : List (String × V) → Bool)

abbrev Query (V : Type) := List (Clause V)

section Passes

variable {V K : Type} [LinearOrder K] [Queried V K]

open Queried

def below (operand : V) : Option V → Bool
  | none => kind operand == .maxKey
  | some value =>
    if kind value = kind operand then !isNan value && !isNan operand && decide (rank value < rank operand)
    else kind operand == .maxKey

def atLeast (operand : V) : Option V → Bool
  | none => kind operand == .null || kind operand == .minKey
  | some value =>
    if kind value = kind operand then
      if isNan value || isNan operand then isNan value && isNan operand
      else decide (rank operand ≤ rank value)
    else kind operand == .minKey

def reaches (test : Option V → Bool) (value : Option V) : Bool :=
  test value || value.any fun held => (items held).any fun item => test (some item)

def Condition.holds (value : Option V) : Condition V → Bool
  | .lt operand => kind operand != .regex && reaches (below operand) value
  | .gte operand => kind operand != .regex && reaches (atLeast operand) value
  | .exists_ wanted => value.isSome == wanted
  | .other test => test value

@[simp] theorem Condition.holds_exists (wanted : Bool) (value : Option V) :
    (Condition.exists_ wanted).holds value = (value.isSome == wanted) := rfl

mutual

def Clause.passes (doc : List (String × V)) : Clause V → Bool
  | .all queries => passesAll doc queries
  | .any queries => passesAny doc queries
  | .field name conditions => conditions.all (·.holds (doc.lookup name))
  | .other test => test doc

def passesAll (doc : List (String × V)) : List (List (Clause V)) → Bool
  | [] => true
  | query :: rest => passesEach doc query && passesAll doc rest

def passesAny (doc : List (String × V)) : List (List (Clause V)) → Bool
  | [] => false
  | query :: rest => passesEach doc query || passesAny doc rest

def passesEach (doc : List (String × V)) : List (Clause V) → Bool
  | [] => true
  | clause :: rest => clause.passes doc && passesEach doc rest

end

def Query.passes (filter : Query V) (doc : List (String × V)) : Bool := passesEach doc filter

@[simp] theorem Query.passes_nil (doc : List (String × V)) : Query.passes [] doc = true := rfl

@[simp] theorem Query.passes_single (clause : Clause V) (doc : List (String × V)) :
    Query.passes [clause] doc = clause.passes doc := by
  simp [Query.passes, passesEach]

@[simp] theorem Clause.passes_all_pair (first second : Query V) (doc : List (String × V)) :
    (Clause.all [first, second]).passes doc = (first.passes doc && second.passes doc) := by
  simp [Clause.passes, passesAll, Query.passes]

@[simp] theorem Clause.passes_any_pair (first second : Query V) (doc : List (String × V)) :
    (Clause.any [first, second]).passes doc = (first.passes doc || second.passes doc) := by
  simp [Clause.passes, passesAny, Query.passes]

@[simp] theorem Clause.passes_field (name : String) (conditions : List (Condition V)) (doc : List (String × V)) :
    (Clause.field name conditions).passes doc = conditions.all (·.holds (doc.lookup name)) := by
  simp [Clause.passes]

/-! ## Values that a cut divides -/

structure Divides (cut : V) (value : Option V) : Prop where
  accepted : kind cut ≠ .regex
  number : isNan cut = false
  alike : ∀ held, value = some held → kind held = kind cut ∧ isNan held = false
  outside : ∀ held, value = some held → ∀ item ∈ items held, kind item ≠ kind cut
  present : value = none → kind cut ≠ .null ∧ kind cut ≠ .minKey

theorem Divides.noItem {cut held : V} (divided : Divides cut (some held)) (test : V → Option V → Bool)
    (apart : ∀ item, kind item ≠ kind cut → kind cut ≠ .minKey → kind cut ≠ .maxKey → test cut (some item) = false) :
    (items held).any (fun item => test cut (some item)) = false := by
  rw [List.any_eq_false]
  intro item member
  rw [Bool.not_eq_true]
  have array : kind cut = .array := by
    rw [← (divided.alike held rfl).1]
    by_contra noArray
    rw [items_eq_nil noArray] at member
    cases member
  refine apart item (divided.outside held rfl item member) ?_ ?_ <;> simp [array]

theorem Divides.lt_iff {cut held : V} (divided : Divides cut (some held)) :
    (Condition.lt cut).holds (some held) = decide (rank held < rank cut) := by
  have none_ := divided.noItem below (fun item apart _ notMax => by simp [below, apart, notMax])
  have whole : below cut (some held) = decide (rank held < rank cut) := by
    obtain ⟨same, number⟩ := divided.alike held rfl
    simp [below, same, number, divided.number]
  have accepted : (kind cut != .regex) = true := bne_iff_ne.mpr divided.accepted
  simp only [Condition.holds, reaches, Option.any_some, accepted, whole, none_, Bool.or_false, Bool.true_and]

theorem Divides.gte_iff {cut held : V} (divided : Divides cut (some held)) :
    (Condition.gte cut).holds (some held) = decide (rank cut ≤ rank held) := by
  have none_ := divided.noItem atLeast (fun item apart notMin _ => by simp [atLeast, apart, notMin])
  have whole : atLeast cut (some held) = decide (rank cut ≤ rank held) := by
    obtain ⟨same, number⟩ := divided.alike held rfl
    simp [atLeast, same, number, divided.number]
  have accepted : (kind cut != .regex) = true := bne_iff_ne.mpr divided.accepted
  simp only [Condition.holds, reaches, Option.any_some, accepted, whole, none_, Bool.or_false, Bool.true_and]

theorem Divides.gte_missing {cut : V} (divided : Divides cut none) : (Condition.gte cut).holds none = false := by
  obtain ⟨notNull, notMin⟩ := divided.present rfl
  simp [Condition.holds, reaches, atLeast, notNull, notMin]

end Passes

end Boom.Foundations
