import Boom.Foundations.Json

/-! # What a filter pipeline may contain

A filter is an aggregation pipeline that a user submits as JSON.  It is checked before
it is stored or run, by looking for certain stages and certain spellings. -/

namespace Boom.Filter

open Boom.Foundations

inductive FilterError where
  | bsonSerialization
  | mongodb
  | invalidFilterPipeline (message : String)
deriving DecidableEq, Repr

/-! ## Blanks around a text -/

def isWhiteSpace (char : Char) : Bool :=
  let code := char.toNat
  (9 ≤ code && code ≤ 13) || code == 0x20 || code == 0x85 || code == 0xa0 || code == 0x1680 ||
    (0x2000 ≤ code && code ≤ 0x200a) || code == 0x2028 || code == 0x2029 || code == 0x202f ||
    code == 0x205f || code == 0x3000

def trim (text : String) : String :=
  String.ofList (((text.toList.dropWhile isWhiteSpace).reverse.dropWhile isWhiteSpace).reverse)

/-! ## Joined documents -/

def nulledJoins : List String := ["aux", "ztf_aux", "lsst_aux"]

def flattenedName (path : String) : Option String :=
  nulledJoins.findSome? fun join =>
    ((stripPrefix path join).bind fun rest => stripPrefix rest ".").or (if path = join then some "" else none)

mutual

def findNulledJoin : Json → Option (String × String)
  | .string text => ((stripPrefix text "$").bind flattenedName).map fun name => (text, name)
  | .array items => findNulledJoinItems items
  | .object fields => findNulledJoinFields fields
  | _ => none

def findNulledJoinItems : List Json → Option (String × String)
  | [] => none
  | item :: rest => (findNulledJoin item).or (findNulledJoinItems rest)

def findNulledJoinFields : List (String × Json) → Option (String × String)
  | [] => none
  | (key, nested) :: rest =>
    (((flattenedName key).map fun name => (key, name)).or (findNulledJoin nested)).or
      (findNulledJoinFields rest)

end

def joinStages : List String := ["$lookup", "$graphLookup", "$unionWith"]

def joinTargets (key : String) (spec : Json) : Except String (List String) :=
  let targets := match spec with
    | .object fields => [fields.lookup "from", fields.lookup "coll"]
    | other => [some other]
  (targets.filterMap id).mapM fun target =>
    match target.asStr with
    | some name => .ok name
    | none => .error (key ++ " must name a collection of this database")

mutual

def joinedCollections : Json → Except String (List String)
  | .array items => joinedCollectionsItems items
  | .object fields => joinedCollectionsFields fields
  | _ => .ok []

def joinedCollectionsItems : List Json → Except String (List String)
  | [] => .ok []
  | item :: rest => do return (← joinedCollections item) ++ (← joinedCollectionsItems rest)

def joinedCollectionsFields : List (String × Json) → Except String (List String)
  | [] => .ok []
  | (key, spec) :: rest => do
    let named ← if joinStages.contains key then joinTargets key spec else .ok []
    let nested ← joinedCollections spec
    return named ++ nested ++ (← joinedCollectionsFields rest)

end

/-! ## Validation -/

def invalid (message : String) : Except FilterError Unit :=
  .error (.invalidFilterPipeline message)

def checkNulledJoin (stage : Json) : Except FilterError Unit :=
  match findNulledJoin stage with
  | some (path, name) =>
    let advice :=
      if name.isEmpty then "its arrays are available at the top level" else "use `" ++ name ++ "` instead"
    invalid ("`" ++ path ++ "` always reads as empty: a joined document is discarded once " ++
      "its arrays are flattened, so " ++ advice ++ ".")
  | none => .ok ()

def joinsNothing (stage : Json) : Bool :=
  match joinedCollections stage with
  | .ok names => names.isEmpty
  | .error _ => false

def checkJoins (stage : Json) : Except FilterError Unit :=
  if (stage.get "$group").isSome || (stage.get "$unwind").isSome || (stage.get "$lookup").isSome ||
      !joinsNothing stage then
    invalid "group, unwind, lookup, graphLookup and unionWith stages are not allowed"
  else .ok ()

structure ProjectFlags where
  includesObjectId : Bool
  excludesObjectId : Bool
  excludesId : Bool
  includeStage : Bool

def ProjectFlags.entry (flags : ProjectFlags) (key : String) (value : Json) : ProjectFlags :=
  if key = "objectId" then
    if value.isNumber .one then { flags with includesObjectId := true }
    else if value.isNumber .zero then { flags with excludesObjectId := true }
    else flags
  else if key = "_id" then
    if value.isNumber .zero then { flags with excludesId := true } else flags
  else if value.isNumber .zero then { flags with includeStage := false }
  else flags

def projectFlags (fields : List (String × Json)) : ProjectFlags :=
  fields.foldl (fun flags field => flags.entry field.1 field.2) ⟨false, false, false, true⟩

def checkProject (stage : Json) : Except FilterError Unit :=
  match stage.get "$project" with
  | none => .ok ()
  | some project =>
    let flags := projectFlags (project.asObject.getD [])
    if flags.excludesId then invalid "_id field cannot be excluded"
    else if !flags.includeStage && flags.excludesObjectId then
      invalid "objectId field cannot be excluded"
    else if flags.includeStage && !flags.includesObjectId then
      invalid "objectId field must be included"
    else .ok ()

/-- A `$unset` is a string or an array. -/
def checkUnset (stage : Json) : Except FilterError Unit :=
  match stage.get "$unset" with
  | none => .ok ()
  | some (.array values) =>
    if values.any fun value => value.isString "objectId" || value.isString "_id" then
      invalid "objectId and _id fields cannot be unset"
    else .ok ()
  | some (.string text) =>
    if text = "objectId" || text = "_id" then invalid "objectId and _id fields cannot be unset"
    else .ok ()
  | some _ => invalid "invalid $unset stage"

def checkLast (stage : Json) : Except FilterError Unit :=
  if (((stage.get "$project").bind Json.asObject).bind fun fields => fields.lookup "objectId").any
      fun value => value.isNumber .one then .ok ()
  else invalid "the last stage must be a $project stage that includes objectId"

def validateStages : List Json → Except FilterError Nat
  | [] => .ok 0
  | stage :: rest => do
    checkJoins stage
    checkProject stage
    checkUnset stage
    if rest.isEmpty then checkLast stage
    let matches_ ← validateStages rest
    return matches_ + if (stage.get "$match").isSome then 1 else 0

def validateFilterPipeline (filterPipeline : List Json) : Except FilterError Unit := do
  if filterPipeline.isEmpty then invalid "Filter pipeline cannot be empty"
  filterPipeline.forM checkNulledJoin
  let matches_ ← validateStages filterPipeline
  if matches_ = 0 then invalid "Filter pipeline must have at least one $match stage"

end Boom.Filter
