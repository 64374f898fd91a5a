import Boom.Foundations.Expressions
import Boom.Foundations.Firsts

/-! # The update of a light curve, as an expression

Appending points to a stored array, keeping the first of each time, dropping the points without
a finite time and sorting the others are one expression that the store evaluates. -/

namespace Boom.Utils

open Boom.Foundations

def updateTimeseriesOp (arrayField timeField : String) (value : List Expr) : Option Expr := do
  let array ← Expr.ofString ("$" ++ arrayField)
  let this ← Expr.ofString ("$$this." ++ timeField)
  let held ← Expr.ofString ("$$value." ++ timeField)
  let point ← Expr.ofString ("$$point." ++ timeField)
  return .sortArray
    (.filter
      (.reduce (.concatArrays [.ifNull array (.array []), .array value]) (.array [])
        (.cond (.in_ this held) (.path "value" [])
          (.concatArrays [.path "value" [], .array [.path "this" []]])))
      "point"
      (.and [.isNumber point, .eq point point, .lt point (.literal (.double F64.infinity)),
        .gt point (.literal (.double F64.negInfinity))]))
    [timeField]

section Meaning

def heldTime : Bson → Value
  | .document fields => fields.lookup "jd"
  | _ => none

def sameTime (held this : Bson) : Bool :=
  (heldTime held).any fun time => Bson.keyOf (readPath ["jd"] (some this)) = time.sortKey

def hasTime (point : Bson) : Bool :=
  let time := readPath ["jd"] (some point)
  time.isNumber && decide (Bson.keyOf time < (Bson.double F64.infinity).sortKey) &&
    decide ((Bson.double F64.negInfinity).sortKey < Bson.keyOf time)

def remaining (items : List Bson) : List Bson :=
  (firsts sameTime [] items).filter hasTime

theorem isNumber_congr {first second : Value} (same : Bson.keyOf first = Bson.keyOf second) :
    first.isNumber = second.isNumber := by
  have byType (value : Value) : value.isNumber = decide ((Bson.keyOf value).head? = some (Token.ofType 10)) := by
    cases value with
    | none => rfl
    | some value =>
      rw [Bson.keyOf]
      cases value <;> rw [Bson.sortKey] <;> rfl
  rw [byType, byType, same]

theorem readPath_of_heldTime {item time : Bson} (isTime : heldTime item = some time) :
    readPath ["jd"] (some item) = some time := by
  cases item with
  | document fields => rw [readPath, readPath, ← isTime, heldTime]
  | _ => cases isTime

theorem hasTime_of_sameTime (held this : Bson) (same : sameTime held this = true) : hasTime held = hasTime this := by
  obtain ⟨time, isTime, equal⟩ := (Option.any_eq_true _ _).mp same
  have keys : Bson.keyOf (readPath ["jd"] (some this)) = Bson.keyOf (readPath ["jd"] (some held)) := by
    rw [readPath_of_heldTime isTime]
    exact of_decide_eq_true equal
  simp only [hasTime, isNumber_congr keys, keys]

theorem remaining_eq (items : List Bson) : remaining items = firsts sameTime [] (items.filter hasTime) :=
  filter_firsts hasTime_of_sameTime [] items

variable {server : Server} {scope : List (String × Value)}

theorem eval_path {start : String} {value : Value} (bound : scope.lookup start = some value) (fields : List String) :
    (Expr.path start fields).eval server scope = some (readPath fields value) := by
  rw [Expr.eval, bound, Option.map_some]

theorem evalAll_cons {test : Expr} {holds : Bool} (isTest : test.eval server scope = some (some (.bool holds)))
    (rest : List Expr) :
    Expr.evalAll server scope (test :: rest) = if holds then Expr.evalAll server scope rest else some false := by
  rw [Expr.evalAll, isTest]
  cases holds <;> rfl

theorem eval_in {item items : Expr} {value : Value} {elements : List Bson} (isItem : item.eval server scope = some value)
    (isItems : items.eval server scope = some (some (.array elements))) : (Expr.in_ item items).eval server scope =
      some (some (.bool (elements.any fun other => Bson.keyOf value = other.sortKey))) := by
  rw [Expr.eval, isItem, isItems]
  rfl

theorem eval_cond {test yes no : Expr} {holds : Bool} (isTest : test.eval server scope = some (some (.bool holds))) :
    (Expr.cond test yes no).eval server scope = if holds then yes.eval server scope else no.eval server scope := by
  rw [Expr.eval, isTest]
  cases holds <;> rfl

theorem eval_filter {input test : Expr} {name : String} {items : List Bson} {passes : Bson → Bool}
    (isInput : input.eval server scope = some (some (.array items)))
    (each : ∀ item, test.eval server ((name, some item) :: scope) = some (some (.bool (passes item)))) :
    (Expr.filter input name test).eval server scope = some (some (.array (items.filter passes))) := by
  have kept := @mapM_some Bson (Option Bson)
    (fun item => do
      return if (← test.eval server ((name, some item) :: scope)).truthy then some item else none)
    (fun item => if passes item then some item else none) items fun item _ => by rw [each]; rfl
  rw [← reduceOption_map, Expr.eval, isInput]
  exact congrArg (Option.bind · fun kept => some (some (Bson.array kept.reduceOption))) kept

theorem readPath_held (kept : List Bson) :
    readPath ["jd"] (some (.array kept)) = some (.array (kept.filterMap heldTime)) := by
  rw [readPath]
  congr 3

theorem eval_reduction (kept : List Bson) (item : Bson) :
    (Expr.cond (.in_ (.path "this" ["jd"]) (.path "value" ["jd"])) (.path "value" [])
      (.concatArrays [.path "value" [], .array [.path "this" []]])).eval server
        (("this", some item) :: ("value", some (.array kept)) :: scope) =
      some (some (.array (if kept.any (sameTime · item) then kept else kept ++ [item]))) := by
  have held := @eval_path server (("this", some item) :: ("value", some (.array kept)) :: scope) "value" _ rfl ["jd"]
  rw [readPath_held] at held
  have known : (Expr.in_ (.path "this" ["jd"]) (.path "value" ["jd"])).eval server
      (("this", some item) :: ("value", some (.array kept)) :: scope) =
        some (some (.bool (kept.any (sameTime · item)))) := by
    rw [eval_in (eval_path rfl ["jd"]) held, List.any_filterMap]
    congr 4
  rw [eval_cond known]
  split
  · rfl
  · simp [Expr.eval, Expr.evalItems, concatItems, List.lookup_cons, readPath]

theorem eval_filterTest (item : Bson) :
    (Expr.and [.isNumber (.path "point" ["jd"]), .eq (.path "point" ["jd"]) (.path "point" ["jd"]),
      .lt (.path "point" ["jd"]) (.literal (.double F64.infinity)),
      .gt (.path "point" ["jd"]) (.literal (.double F64.negInfinity))]).eval server (("point", some item) :: scope) =
      some (some (.bool (hasTime item))) := by
  have isPoint := @eval_path server (("point", some item) :: scope) "point" _ rfl ["jd"]
  have isNumber : (Expr.isNumber (.path "point" ["jd"])).eval server (("point", some item) :: scope) =
      some (some (.bool (readPath ["jd"] (some item)).isNumber)) := by
    rw [Expr.eval, isPoint, Option.map_some]
  have equal : (Expr.eq (.path "point" ["jd"]) (.path "point" ["jd"])).eval server (("point", some item) :: scope) =
      some (some (.bool true)) := by
    simp [Expr.eval]
  have below : (Expr.lt (.path "point" ["jd"]) (.literal (.double F64.infinity))).eval server
      (("point", some item) :: scope) =
        some (some (.bool (Bson.keyOf (readPath ["jd"] (some item)) < (Bson.double F64.infinity).sortKey))) := by
    rw [Expr.eval, isPoint, Expr.eval]
    rfl
  have above : (Expr.gt (.path "point" ["jd"]) (.literal (.double F64.negInfinity))).eval server
      (("point", some item) :: scope) =
        some (some (.bool ((Bson.double F64.negInfinity).sortKey < Bson.keyOf (readPath ["jd"] (some item))))) := by
    rw [Expr.eval, isPoint, Expr.eval]
    rfl
  rw [Expr.eval, evalAll_cons isNumber, evalAll_cons equal, evalAll_cons below, evalAll_cons above, Expr.evalAll, hasTime]
  simp only [if_true]
  generalize (readPath ["jd"] (some item)).isNumber = number
  generalize decide (Bson.keyOf (readPath ["jd"] (some item)) < (Bson.double F64.infinity).sortKey) = less
  generalize decide ((Bson.double F64.negInfinity).sortKey < Bson.keyOf (readPath ["jd"] (some item))) = greater
  cases number <;> cases less <;> cases greater <;> rfl

theorem eval_updateTimeseriesOp {field : String} (plain : Expr.ofString ("$" ++ field) = some (.path Expr.current [field]))
    {doc : List (String × Bson)} {items : List Bson} (stored : doc.lookup field = some (.array items)) :
    (updateTimeseriesOp field "jd" []).bind (·.eval server [(Expr.current, some (.document doc))]) =
      some (some (.array (server.sort (elementLe ["jd"]) (remaining items)))) := by
  have this : Expr.ofString ("$$this." ++ "jd") = some (.path "this" ["jd"]) := rfl
  have held : Expr.ofString ("$$value." ++ "jd") = some (.path "value" ["jd"]) := rfl
  have point : Expr.ofString ("$$point." ++ "jd") = some (.path "point" ["jd"]) := rfl
  let scope : List (String × Value) := [(Expr.current, some (.document doc))]
  have isArray : (Expr.path Expr.current [field]).eval server scope = some (some (.array items)) := by
    rw [eval_path rfl, readPath, stored, readPath]
  have joined : (Expr.concatArrays [.ifNull (.path Expr.current [field]) (.array []), .array []]).eval server scope =
      some (some (.array items)) := by
    rw [Expr.eval, Expr.evalItems, Expr.eval, isArray]
    simp [Expr.evalItems, Expr.eval, concatItems, Value.isNull]
  let reduction : Expr := .cond (.in_ (.path "this" ["jd"]) (.path "value" ["jd"])) (.path "value" [])
    (.concatArrays [.path "value" [], .array [.path "this" []]])
  have reduced := @foldlM_some Bson Value (List Bson)
    (fun value item => reduction.eval server (("this", some item) :: ("value", value) :: scope)) _
    (fun kept => some (.array kept)) eval_reduction items []
  rw [← firsts_eq_foldl] at reduced
  have distinct : (Expr.reduce (.concatArrays [.ifNull (.path Expr.current [field]) (.array []), .array []]) (.array [])
      reduction).eval server scope = some (some (.array (firsts sameTime [] items))) := by
    rw [Expr.eval, joined]
    exact reduced
  simp only [updateTimeseriesOp, plain, this, held, point, Option.bind_eq_bind, Option.bind_some, Option.pure_def]
  rw [Expr.eval, eval_filter distinct eval_filterTest]
  rfl

end Meaning

end Boom.Utils
