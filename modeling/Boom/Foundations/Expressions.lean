import Boom.Foundations.SortOrder
import Mathlib.Data.List.Sort

/-! # Aggregation expressions

The part of a document store's expression language that filters, sorts and trims arrays.
An expression has a value, which may be missing, or fails.

What the store writes for a value that is converted to a string, and how it arranges
elements with equal sort keys, are parameters (`Server`). -/

namespace Boom.Foundations

abbrev Value := Option Bson

/-! ## Syntax -/

inductive Expr where
  | literal (value : Bson)
  /-- A field of a variable, which is that of the record for a single `$`. -/
  | path (start : String) (fields : List String)
  | array (items : List Expr)
  | object (fields : List (String × Expr))
  | lt (first second : Expr)
  | gt (first second : Expr)
  | eq (first second : Expr)
  | and (tests : List Expr)
  | isNumber (input : Expr)
  | in_ (item items : Expr)
  | ifNull (input otherwise : Expr)
  | cond (test yes no : Expr)
  | switch (branches : List (Expr × Expr)) (otherwise : Expr)
  | convertToString (input onError onNull : Expr)
  | toLower (input : Expr)
  | trim (input : Expr)
  | let_ (scope : List (String × Expr)) (body : Expr)
  /-- Every element in turn is the variable `this`. -/
  | map (input body : Expr)
  | sortArray (input : Expr) (sortBy : List String)
  | slice (input count : Expr)
  | concatArrays (inputs : List Expr)
  /-- The elements that pass, each in turn the named variable. -/
  | filter (input : Expr) (name : String) (test : Expr)
  /-- Every element in turn is the variable `this`, and what was made so far `value`. -/
  | reduce (input start body : Expr)

namespace Expr

def current : String := "CURRENT"

def validName (name : List Char) : Bool :=
  !name.isEmpty && name.head? != some '$' && !name.contains '\x00'

def ofString (text : String) : Option Expr :=
  match text.toList with
  | '$' :: '$' :: rest =>
    match rest.splitOn '.' with
    | start :: fields =>
      if validName start && fields.all validName then some (.path (String.ofList start) (fields.map String.ofList))
      else none
    | [] => none
  | '$' :: rest =>
    if (rest.splitOn '.').all validName then some (.path current ((rest.splitOn '.').map String.ofList)) else none
  | _ => some (.literal (.string text))

end Expr

/-! ## Values -/

def readPath : List String → Value → Value
  | [], value => value
  | name :: rest, some (.document fields) => readPath rest (fields.lookup name)
  | name :: rest, some (.array items) =>
    some (.array (items.filterMap fun item => match item with
      | .document fields => readPath rest (fields.lookup name)
      | _ => none))
  | _ :: _, _ => none

def Value.isNull : Value → Bool
  | none | some .null => true
  | _ => false

def Value.truthy : Value → Bool
  | none | some .null => false
  | some (.bool value) => value
  | some (.int32 value) | some (.int64 value) => value != 0
  | some (.double value) => value.magnitude != 0
  | some (.decimal (.finite coefficient _)) => coefficient != 0
  | some _ => true

def Value.isNumber : Value → Bool
  | some (.int32 _) | some (.int64 _) | some (.double _) | some (.decimal _) => true
  | _ => false

def concatItems : List Bson → Option Bson
  | [] => some (.array [])
  | .null :: _ => some .null
  | .array items :: rest => do
    match ← concatItems rest with
    | .array others => return .array (items ++ others)
    | _ => return .null
  | _ => none

def isBlank (char : Char) : Bool :=
  let code := char.toNat
  code == 0 || (9 ≤ code && code ≤ 13) || code == 0x20 || code == 0xa0 || code == 0x1680 ||
    (0x2000 ≤ code && code ≤ 0x200a)

def trimBlank (text : String) : String :=
  String.ofList (((text.toList.dropWhile isBlank).reverse.dropWhile isBlank).reverse)

def lowerAscii (text : String) : String :=
  String.ofList (text.toList.map Char.toLower)

def elementKey (sortBy : List String) (element : Bson) : List (List Token) :=
  sortBy.map fun name => Bson.sortKey ((readPath [name] (some element)).getD .null)

def elementLe (sortBy : List String) (first second : Bson) : Bool :=
  elementKey sortBy first ≤ elementKey sortBy second

theorem elementLe_total (sortBy : List String) (first second : Bson) :
    (elementLe sortBy first second || elementLe sortBy second first) = true := by
  unfold elementLe
  rw [Bool.or_eq_true, decide_eq_true_iff, decide_eq_true_iff]
  exact le_total _ _

theorem elementLe_trans (sortBy : List String) (first second third : Bson) (before : elementLe sortBy first second = true)
    (after : elementLe sortBy second third = true) : elementLe sortBy first third = true := by
  unfold elementLe at *
  rw [decide_eq_true_iff] at *
  exact before.trans after

def sliceOf (items : List Bson) (count : Int) : List Bson :=
  if 0 ≤ count then items.take count.toNat else items.drop (items.length - count.natAbs)

def sliceCount : Value → Option Int
  | some (.int32 count) | some (.int64 count) =>
    if -2147483648 ≤ count ∧ count ≤ 2147483647 then some count else none
  | _ => none

/-! ## Evaluation -/

/-- What the language leaves to the store. -/
structure Server where
  /-- How a value that is no string is converted to one, if it is. -/
  render : Bson → Option String
  sort : (Bson → Bson → Bool) → List Bson → List Bson
  sort_perm : ∀ le items, (sort le items).Perm items
  sort_sorted : ∀ le : Bson → Bson → Bool, (∀ first second, le first second || le second first) →
    (∀ first second third, le first second → le second third → le first third) →
    ∀ items, (sort le items).Pairwise fun first second => le first second

theorem Server.sort_eq (server : Server) {sortBy : List String} {items sorted : List Bson} (same : sorted.Perm items)
    (ordered : sorted.Pairwise fun first second => elementLe sortBy first second = true)
    (antisymm : ∀ first ∈ items, ∀ second ∈ items, elementLe sortBy first second = true →
      elementLe sortBy second first = true → first = second) : server.sort (elementLe sortBy) items = sorted := by
  have arranged := server.sort_perm (elementLe sortBy) items
  refine (arranged.trans same.symm).eq_of_pairwise ?_
    (server.sort_sorted _ (elementLe_total sortBy) (elementLe_trans sortBy) items) ordered
  intro first second there there' before after
  exact antisymm first (arranged.mem_iff.mp there) second (same.mem_iff.mp there') before after

def decimalServer : Server where
  render value :=
    match value with
    | .int32 value | .int64 value => some (toString value)
    | _ => none
  sort le items := items.insertionSort fun first second => le first second = true
  sort_perm le items := List.perm_insertionSort _ items
  sort_sorted le total trans items := by
    have : Std.Total fun first second : Bson => le first second = true :=
      ⟨fun first second => Bool.or_eq_true_iff.mp (total first second)⟩
    have : IsTrans Bson fun first second => le first second = true := ⟨trans⟩
    exact List.pairwise_insertionSort _ items

theorem decimalServer_swaps {le : Bson → Bson → Bool} {first second : Bson} (after : le first second = false) :
    decimalServer.sort le [first, second] = [second, first] := by
  change [first, second].insertionSort (fun first second => le first second = true) = _
  rw [List.insertionSort_cons, List.insertionSort_cons, List.insertionSort_nil, List.orderedInsert_nil,
    List.orderedInsert_cons, if_neg (by rw [after]; exact Bool.false_ne_true), List.orderedInsert_nil]

namespace Expr

variable (server : Server)

mutual

/-- The value of an expression; `none` when it fails. -/
def eval (scope : List (String × Value)) : Expr → Option Value
  | .literal value => some (some value)
  | .path start fields => (scope.lookup start).map (readPath fields)
  | .array items => (evalItems scope items).map fun items => some (.array items)
  | .object fields => (evalFields scope fields).map fun fields => some (.document fields)
  | .lt first second => do
    let first ← eval scope first
    let second ← eval scope second
    return some (.bool (Bson.keyOf first < Bson.keyOf second))
  | .gt first second => do
    let first ← eval scope first
    let second ← eval scope second
    return some (.bool (Bson.keyOf second < Bson.keyOf first))
  | .eq first second => do
    let first ← eval scope first
    let second ← eval scope second
    return some (.bool (Bson.keyOf first = Bson.keyOf second))
  | .and tests => (evalAll scope tests).map fun passed => some (.bool passed)
  | .isNumber input => (eval scope input).map fun value => some (.bool value.isNumber)
  | .in_ item items => do
    let item ← eval scope item
    match ← eval scope items with
    | some (.array items) => return some (.bool (items.any fun other => Bson.keyOf item = other.sortKey))
    | _ => none
  | .ifNull input otherwise => do
    let value ← eval scope input
    if value.isNull then eval scope otherwise else return value
  | .cond test yes no => do
    if (← eval scope test).truthy then eval scope yes else eval scope no
  | .switch branches otherwise => do
    match ← evalBranches scope branches with
    | some value => return value
    | none => eval scope otherwise
  | .convertToString input onError onNull => do
    match ← eval scope input with
    | none | some .null => eval scope onNull
    | some (.string text) => return some (.string text)
    | some value =>
      match server.render value with
      | some text => return some (.string text)
      | none => eval scope onError
  | .toLower input => do
    match ← eval scope input with
    | none | some .null => return some (.string "")
    | some (.string text) => return some (.string (lowerAscii text))
    | some value => (server.render value).map fun text => some (.string (lowerAscii text))
  | .trim input => do
    match ← eval scope input with
    | none | some .null => return some .null
    | some (.string text) => return some (.string (trimBlank text))
    | _ => none
  | .let_ bindings body => do
    eval ((← evalBindings scope bindings) ++ scope) body
  | .map input body => do
    match ← eval scope input with
    | none | some .null => return some .null
    | some (.array items) =>
      let items ← items.mapM fun item => eval (("this", some item) :: scope) body
      return some (.array (items.map (·.getD .null)))
    | _ => none
  | .sortArray input sortBy => do
    match ← eval scope input with
    | none | some .null => return some .null
    | some (.array items) => return some (.array (server.sort (elementLe sortBy) items))
    | _ => none
  | .slice input count => do
    match ← eval scope input with
    | none | some .null => return some .null
    | some (.array items) =>
      return some (.array (sliceOf items (← sliceCount (← eval scope count))))
    | _ => none
  | .concatArrays inputs => do return some (← concatItems (← evalItems scope inputs))
  | .filter input name test => do
    match ← eval scope input with
    | none | some .null => return some .null
    | some (.array items) =>
      let kept ← items.mapM fun item => do
        return if (← eval ((name, some item) :: scope) test).truthy then some item else none
      return some (.array kept.reduceOption)
    | _ => none
  | .reduce input start body => do
    match ← eval scope input with
    | none | some .null => return some .null
    | some (.array items) =>
      items.foldlM (fun value item => eval (("this", some item) :: ("value", value) :: scope) body) (← eval scope start)
    | _ => none

def evalItems (scope : List (String × Value)) : List Expr → Option (List Bson)
  | [] => some []
  | item :: rest => do
    let value ← eval scope item
    return value.getD .null :: (← evalItems scope rest)

def evalAll (scope : List (String × Value)) : List Expr → Option Bool
  | [] => some true
  | test :: rest => do
    if (← eval scope test).truthy then evalAll scope rest else return false

def evalFields (scope : List (String × Value)) : List (String × Expr) → Option (List (String × Bson))
  | [] => some []
  | (name, field) :: rest => do
    let value ← eval scope field
    let fields ← evalFields scope rest
    return match value with
      | some value => (name, value) :: fields
      | none => fields

def evalBranches (scope : List (String × Value)) : List (Expr × Expr) → Option (Option Value)
  | [] => some none
  | (test, result) :: rest => do
    if (← eval scope test).truthy then return some (← eval scope result)
    else evalBranches scope rest

def evalBindings (scope : List (String × Value)) : List (String × Expr) → Option (List (String × Value))
  | [] => some []
  | (name, bound) :: rest => do
    let value ← eval scope bound
    return (name, value) :: (← evalBindings scope rest)

end

end Expr

theorem mapM_some {α β : Type} {step : α → Option β} {result : α → β} {list : List α}
    (each : ∀ item ∈ list, step item = some (result item)) : list.mapM step = some (list.map result) := by
  induction list with
  | nil => rfl
  | cons item rest ih =>
    rw [List.forall_mem_cons] at each
    rw [List.mapM_cons, each.1, ih each.2]
    rfl

theorem foldlM_some {α β γ : Type} {step : β → α → Option β} {next : γ → α → γ} {embed : γ → β}
    (each : ∀ made item, step (embed made) item = some (embed (next made item))) (items : List α) (made : γ) :
    items.foldlM step (embed made) = some (embed (items.foldl next made)) := by
  induction items generalizing made with
  | nil => rfl
  | cons item rest ih =>
    rw [List.foldlM_cons, each, Option.bind_eq_bind, Option.bind_some, ih, List.foldl_cons]

theorem reduceOption_map {α : Type} (keep : α → Bool) (items : List α) :
    (items.map fun item => if keep item then some item else none).reduceOption = items.filter keep := by
  change List.filterMap id _ = _
  rw [List.filterMap_map, ← List.filterMap_eq_filter]
  rfl

end Boom.Foundations
