import Boom.Foundations.Aggregation

/-! # The fields a pipeline reads

A pipeline names the fields it reads by paths, and spells a path in one of several ways: as a key with dots or
as keys in one another where a stage lists fields, and in an expression by a string after a `$`, by a variable
that holds the record or a part of it, or by `$getField`. -/

namespace Boom.Foundations.Aggregation

/-! ## Paths -/

def IsName (name : String) : Prop := name ≠ "" ∧ stripPrefix name "$" = none

instance : DecidablePred IsName := fun _ => inferInstanceAs (Decidable (_ ∧ _))

theorem splitDots_parted {chars first second : List Char} {rest : List (List Char)}
    (parted : splitDots chars = first :: second :: rest) :
    ∃ later, chars = first ++ '.' :: later ∧ splitDots later = second :: rest := by
  induction chars generalizing first with
  | nil => simp [splitDots] at parted
  | cons char chars ih =>
    simp only [splitDots] at parted
    split at parted
    next isDot =>
      obtain ⟨rfl, rest⟩ := List.cons.inj parted
      exact ⟨chars, by rw [isDot, List.nil_append], rest⟩
    next =>
      split at parted
      next => simp at parted
      next word more whole =>
        obtain ⟨rfl, rfl⟩ := List.cons.inj parted
        obtain ⟨later, rfl, parted⟩ := ih whole
        exact ⟨later, rfl, parted⟩

theorem segments_parted {path first second : String} {rest : List String} (parted : segments path = first :: second :: rest) :
    ∃ later, path = first ++ ("." ++ later) ∧ segments later = second :: rest := by
  obtain ⟨word, words, split, rfl, others⟩ := List.map_eq_cons_iff.mp parted
  obtain ⟨next, words, rfl, rfl, rfl⟩ := List.map_eq_cons_iff.mp others
  obtain ⟨later, whole, split⟩ := splitDots_parted split
  refine ⟨String.ofList later, String.toList_inj.mp ?_, ?_⟩
  · simp [whole]
  · simp [segments, split]

/-! ## Spellings -/

inductive Spelling where
  /-- A key, `candidate.x`. -/
  | dottedKey
  /-- A key below a key, `candidate: {x: …}`. -/
  | nestedKey
  /-- A string, `$candidate.x`. -/
  | reference
  /-- A string after two `$`, or after one where `CURRENT` is not the whole record. -/
  | ofVariable
  | getField
  /-- A key that `$sortArray` sorts by, `x` for elements that are the candidate. -/
  | elementKey
  /-- A string, `candidate.x`. -/
  | bareName
deriving DecidableEq, Repr

inductive Lists : List (String × Json) → Spelling → List String → Json → Prop where
  | here {fields : List (String × Json)} {key : String} {value : Json} : (key, value) ∈ fields →
      (∀ name ∈ segments key, IsName name) → Lists fields .dottedKey (segments key) value
  | inside {fields inner : List (String × Json)} {key : String} {spelling : Spelling} {path : List String} {value : Json} :
      (key, .object inner) ∈ fields → isOperator inner = false → (∀ name ∈ segments key, IsName name) →
      Lists inner spelling path value → Lists fields .nestedKey (segments key ++ path) value

/-! ## Expressions -/

/-- The variables an expression sees, the innermost first, each with the path it stands for, if it stands for one. -/
abbrev Scope := List (String × Option (List String))

def scopeAt (current : List String) : Scope := [("CURRENT", some current), ("ROOT", some [])]

inductive Constant : Json → String → Prop where
  | plain {name : String} : stripPrefix name "$" = none → Constant (.string name) name
  | literal {operator name : String} : operator = "$literal" ∨ operator = "$const" →
      Constant (.object [(operator, .string name)]) name

/-- The parts one of which an expression evaluates to. -/
def alternatives : Json → List Json
  | .object [("$ifNull", .array items)] => items
  | .object [("$cond", .array (_ :: branches))] => branches
  | .object [("$cond", .object options)] => ["then", "else"].filterMap fun key => options.lookup key
  | .object [("$switch", .object options)] =>
    (options.lookup "default").toList ++
      match options.lookup "branches" with
      | some (.array branches) => branches.filterMap fun branch => branch.get "then"
      | _ => []
  | _ => []

def elementName (options : List (String × Json)) : String := ((options.lookup "as").bind Json.asStr).getD "this"

mutual

/-- An expression for what the record has at a path. -/
inductive Denotes : Scope → Json → Spelling → List String → Prop where
  | reference {scope : Scope} {path : String} : scope.lookup "CURRENT" = some (some []) →
      (∀ name ∈ segments path, IsName name) → Denotes scope (.string ("$" ++ path)) .reference (segments path)
  | belowCurrent {scope : Scope} {path : String} {current : List String} :
      scope.lookup "CURRENT" = some (some current) → current ≠ [] → (∀ name ∈ segments path, IsName name) →
      Denotes scope (.string ("$" ++ path)) .ofVariable (current ++ segments path)
  | held {scope : Scope} {name : String} {path : List String} : scope.lookup name = some (some path) →
      Denotes scope (.string ("$$" ++ name)) .ofVariable path
  | belowHeld {scope : Scope} {name path : String} {base : List String} :
      scope.lookup name = some (some base) → (∀ part ∈ segments path, IsName part) →
      Denotes scope (.string ("$$" ++ name ++ "." ++ path)) .ofVariable (base ++ segments path)
  | field {scope : Scope} {expression : Json} {name : String} {current : List String} :
      Constant expression name → scope.lookup "CURRENT" = some (some current) →
      Denotes scope (.object [("$getField", expression)]) .getField (current ++ [name])
  | fieldOf {scope : Scope} {options : List (String × Json)} {expression input : Json} {name : String}
      {path : List String} : options.lookup "field" = some expression → Constant expression name →
      options.lookup "input" = some input → Holds scope input (some path) →
      Denotes scope (.object [("$getField", .object options)]) .getField (path ++ [name])

/-- What an expression evaluates to: what the record has at a path, or anything else. -/
inductive Holds : Scope → Json → Option (List String) → Prop where
  | path {scope : Scope} {expression : Json} {spelling : Spelling} {path : List String} :
      Denotes scope expression spelling path → Holds scope expression (some path)
  | alternative {scope : Scope} {expression part : Json} {held : Option (List String)} :
      part ∈ alternatives expression → Holds scope part held → Holds scope expression held
  | body {scope inner : Scope} {options vars : List (String × Json)} {body : Json} {held : Option (List String)} :
      options.lookup "vars" = some (.object vars) → Binds scope vars inner → options.lookup "in" = some body →
      Holds inner body held → Holds scope (.object [("$let", .object options)]) held
  | other {scope : Scope} {expression : Json} : Holds scope expression none

inductive Binds : Scope → List (String × Json) → Scope → Prop where
  | nil {scope : Scope} : Binds scope [] scope
  | cons {scope inner : Scope} {name : String} {expression : Json} {vars : List (String × Json)}
      {held : Option (List String)} : Holds scope expression held → Binds scope vars inner →
      Binds scope ((name, expression) :: vars) ((name, held) :: inner)

end

/-- What an element of an array may be; the elements of an array at a path are at that path too. -/
inductive Element : Scope → Json → Option (List String) → Prop where
  | ofArray {scope : Scope} {input : Json} {held : Option (List String)} :
      Holds scope input held → Element scope input held
  | item {scope : Scope} {items : List Json} {item : Json} {held : Option (List String)} : item ∈ items →
      Holds scope item held → Element scope (.array items) held

/-- The option of an operator that is evaluated with scope of its own. -/
def bodyOf : String → Option String
  | "$let" | "$map" | "$reduce" => some "in"
  | "$filter" => some "cond"
  | _ => none

inductive Opens : Scope → String → List (String × Json) → Scope → Prop where
  | vars {scope inner : Scope} {options vars : List (String × Json)} :
      options.lookup "vars" = some (.object vars) → Binds scope vars inner → Opens scope "$let" options inner
  | each {scope : Scope} {operator : String} {options : List (String × Json)} {input : Json}
      {held : Option (List String)} : operator ∈ ["$map", "$filter"] → options.lookup "input" = some input →
      Element scope input held → Opens scope operator options ((elementName options, held) :: scope)
  | first {scope : Scope} {options : List (String × Json)} {input start : Json} {held value : Option (List String)} :
      options.lookup "input" = some input → Element scope input held → options.lookup "initialValue" = some start →
      Holds scope start value → Opens scope "$reduce" options (("this", held) :: ("value", value) :: scope)
  | next {scope inner : Scope} {options : List (String × Json)} {input body : Json}
      {held value : Option (List String)} : options.lookup "input" = some input → Element scope input held →
      Opens scope "$reduce" options inner → options.lookup "in" = some body → Holds inner body value →
      Opens scope "$reduce" options (("this", held) :: ("value", value) :: scope)

/-- A part of an expression, with the scope it is evaluated with. -/
inductive Within : Scope → Json → Scope → Json → Prop where
  | self {scope : Scope} {expression : Json} : Within scope expression scope expression
  | item {scope inner : Scope} {items : List Json} {item part : Json} : item ∈ items →
      Within scope item inner part → Within scope (.array items) inner part
  | argument {scope inner : Scope} {fields : List (String × Json)} {key : String} {value part : Json} :
      (key, value) ∈ fields → key ∉ ["$literal", "$const"] → bodyOf key = none → Within scope value inner part →
      Within scope (.object fields) inner part
  | outside {scope inner : Scope} {fields options : List (String × Json)} {operator body key : String}
      {value part : Json} : (operator, .object options) ∈ fields → bodyOf operator = some body → (key, value) ∈ options →
      key ≠ body → Within scope value inner part → Within scope (.object fields) inner part
  | body {scope opened inner : Scope} {fields options : List (String × Json)} {operator body : String}
      {value part : Json} : (operator, .object options) ∈ fields → bodyOf operator = some body → (body, value) ∈ options →
      Opens scope operator options opened → Within opened value inner part → Within scope (.object fields) inner part

inductive ExpressionReads (scope : Scope) (expression : Json) : Spelling → List String → Prop where
  | denoted {inner : Scope} {part : Json} {spelling : Spelling} {path : List String} :
      Within scope expression inner part → Denotes inner part spelling path →
      ExpressionReads scope expression spelling path
  | ranked {inner : Scope} {operator : String} {options fields : List (String × Json)} {spelling : Spelling}
      {path : List String} {value : Json} : operator ∈ ["$top", "$topN", "$bottom", "$bottomN"] →
      Within scope expression inner (.object [(operator, .object options)]) → ("sortBy", .object fields) ∈ options →
      Lists fields spelling path value → ExpressionReads scope expression spelling path
  | sorted {inner : Scope} {options fields : List (String × Json)} {input value : Json} {base path : List String}
      {spelling : Spelling} : Within scope expression inner (.object [("$sortArray", .object options)]) →
      options.lookup "input" = some input → Element inner input (some base) →
      options.lookup "sortBy" = some (.object fields) → Lists fields spelling path value →
      ExpressionReads scope expression .elementKey (base ++ path)

/-! ## Reading stages -/

inductive Elements : List (String × Json) → List (String × Json) → Prop where
  | here {conditions query : List (String × Json)} : ("$elemMatch", .object query) ∈ conditions → Elements conditions query
  | not {conditions negated query : List (String × Json)} : ("$not", .object negated) ∈ conditions →
      Elements negated query → Elements conditions query
  | all {conditions each query : List (String × Json)} {items : List Json} : ("$all", .array items) ∈ conditions →
      .object each ∈ items → Elements each query → Elements conditions query

inductive SchemaReads : List (String × Json) → List String → Prop where
  | property {schema properties : List (String × Json)} {key : String} {value : Json} :
      ("properties", .object properties) ∈ schema → (key, value) ∈ properties → SchemaReads schema [key]
  | required {schema : List (String × Json)} {names : List Json} {name : String} :
      ("required", .array names) ∈ schema → .string name ∈ names → SchemaReads schema [name]
  | inside {schema properties inner : List (String × Json)} {key : String} {path : List String} :
      ("properties", .object properties) ∈ schema → (key, .object inner) ∈ properties → SchemaReads inner path →
      SchemaReads schema (key :: path)
  | combined {schema inner : List (String × Json)} {operator : String} {schemas : List Json} {path : List String} :
      operator ∈ ["allOf", "anyOf", "oneOf"] → (operator, .array schemas) ∈ schema → .object inner ∈ schemas →
      SchemaReads inner path → SchemaReads schema path
  | not {schema inner : List (String × Json)} {path : List String} : ("not", .object inner) ∈ schema →
      SchemaReads inner path → SchemaReads schema path

inductive QueryReads : List (String × Json) → Spelling → List String → Prop where
  | key {query : List (String × Json)} {key : String} {condition : Json} : (key, condition) ∈ query →
      stripPrefix key "$" = none → QueryReads query .dottedKey (segments key)
  | elements {query conditions inner : List (String × Json)} {key : String} {spelling : Spelling} {path : List String} :
      (key, .object conditions) ∈ query → stripPrefix key "$" = none → Elements conditions inner →
      QueryReads inner spelling path → QueryReads query .nestedKey (segments key ++ path)
  | connective {query inner : List (String × Json)} {key : String} {queries : List Json} {spelling : Spelling}
      {path : List String} : key ∈ ["$and", "$or", "$nor"] → (key, .array queries) ∈ query → .object inner ∈ queries →
      QueryReads inner spelling path → QueryReads query spelling path
  | expression {query : List (String × Json)} {expression : Json} {spelling : Spelling} {path : List String} :
      ("$expr", expression) ∈ query → ExpressionReads (scopeAt []) expression spelling path →
      QueryReads query spelling path
  | schema {query schema : List (String × Json)} {path : List String} : ("$jsonSchema", .object schema) ∈ query →
      SchemaReads schema path → QueryReads query .nestedKey path

def expressionless : List String := ["$match", "$facet", "$sort", "$unset", "$count", "$limit", "$skip", "$sample"]

/-- A path that a stage with this name reads; a record has a document at each of `levels`, which `$redact` can
descend into. -/
inductive StageReads (levels : List (List String)) : String → Json → Spelling → List String → Prop where
  | query {query : List (String × Json)} {spelling : Spelling} {path : List String} :
      QueryReads query spelling path → StageReads levels "$match" (.object query) spelling path
  | shown {fields : List (String × Json)} {spelling : Spelling} {path : List String} {value : Json} :
      Lists fields spelling path value → Rule.ofProjection value = .keep →
      StageReads levels "$project" (.object fields) spelling path
  | order {fields : List (String × Json)} {spelling : Spelling} {path : List String} {value : Json} :
      Lists fields spelling path value → StageReads levels "$sort" (.object fields) spelling path
  | orderBy {name : String} {options fields : List (String × Json)} {spelling : Spelling} {path : List String} {value : Json} :
      name ∈ ["$setWindowFields", "$fill"] → ("sortBy", .object fields) ∈ options → Lists fields spelling path value →
      StageReads levels name (.object options) spelling path
  | filled {options fields : List (String × Json)} {key : String} {value : Json} : ("output", .object fields) ∈ options →
      (key, value) ∈ fields → StageReads levels "$fill" (.object options) .dottedKey (segments key)
  | partitioned {name text : String} {options : List (String × Json)} {names : List Json} :
      name ∈ ["$densify", "$fill"] → ("partitionByFields", .array names) ∈ options → .string text ∈ names →
      StageReads levels name (.object options) .bareName (segments text)
  | densified {text : String} {options : List (String × Json)} : ("field", .string text) ∈ options →
      StageReads levels "$densify" (.object options) .bareName (segments text)
  | descended {spec : Json} {inner : Scope} {level : List String} {spelling : Spelling} {path : List String} :
      Within (scopeAt []) spec inner (.string "$$DESCEND") → level ∈ levels →
      ExpressionReads (scopeAt level) spec spelling path → StageReads levels "$redact" spec spelling path
  | expression {name : String} {spec : Json} {spelling : Spelling} {path : List String} : name ∉ expressionless →
      ExpressionReads (scopeAt []) spec spelling path → StageReads levels name spec spelling path

def Stage.sets : Stage → List (List String)
  | .rewrite change => (change.rules.filter fun rule => rule.2.isCompute).map Prod.fst
  | .replaceRoot _ | .facet _ | .count _ | .sortByCount _ | .bucket _ => [[]]
  | .other name spec =>
    if name = "$group" || name = "$bucketAuto" then [[]]
    else (((spec.get "output").bind Json.asObject).getD []).map fun field => segments field.1
  | .select _ | .sort _ | .limit _ | .skip _ => []

def setBy (stage : Json) : List (List String) := ((Stage.parse stage).map Stage.sets).getD []

inductive Reads (levels : List (List String)) : List Json → List (List String) → Spelling → List String → Prop where
  | here {name : String} {spec : Json} {rest : List Json} {spelling : Spelling} {path : List String} :
      StageReads levels name spec spelling path → Reads levels (.object [(name, spec)] :: rest) [] spelling path
  | later {stage : Json} {rest : List Json} {set : List (List String)} {spelling : Spelling} {path : List String} :
      Reads levels rest set spelling path → Reads levels (stage :: rest) (setBy stage ++ set) spelling path
  | facet {pipelines : List (String × Json)} {name : String} {stages rest : List Json} {set : List (List String)}
      {spelling : Spelling} {path : List String} : (name, .array stages) ∈ pipelines →
      Reads levels stages set spelling path → Reads levels (.object [("$facet", .object pipelines)] :: rest) set spelling path

/-! ## Texts that stand for paths -/

/-- A text is a key somewhere, or stands after the `$` of a string. -/
inductive Occurs (text : String) : Json → Prop where
  | key {fields : List (String × Json)} {value : Json} : (text, value) ∈ fields → Occurs text (.object fields)
  | reference : Occurs text (.string ("$" ++ text))
  | item {items : List Json} {item : Json} : item ∈ items → Occurs text item → Occurs text (.array items)
  | value {fields : List (String × Json)} {key : String} {value : Json} : (key, value) ∈ fields → Occurs text value →
      Occurs text (.object fields)

theorem Occurs.of_search (passes : Json → Prop) (good : String → Prop)
    (ofReference : ∀ text, passes (.string ("$" ++ text)) → good text)
    (ofItems : ∀ items, passes (.array items) → ∀ item ∈ items, passes item)
    (ofFields : ∀ fields, passes (.object fields) → ∀ field ∈ fields, good field.1 ∧ passes field.2)
    {text : String} {value : Json} (occurs : Occurs text value) (passed : passes value) : good text := by
  induction occurs with
  | key listed => exact (ofFields _ passed _ listed).1
  | reference => exact ofReference text passed
  | item listed _ ih => exact ih (ofItems _ passed _ listed)
  | value listed _ ih => exact ih (ofFields _ passed _ listed).2

def Spelling.Plain : Spelling → Prop
  | .dottedKey | .reference => True
  | _ => False

section

variable {spelling : Spelling} {path : List String}

theorem Lists.occurs {fields : List (String × Json)} {value : Json} (lists : Lists fields spelling path value)
    (plain : spelling.Plain) : ∃ text, segments text = path ∧ Occurs text (.object fields) := by
  cases lists with
  | here listed _ => exact ⟨_, rfl, .key listed⟩
  | inside => exact plain.elim

theorem Denotes.occurs {scope : Scope} {expression : Json} (denotes : Denotes scope expression spelling path)
    (plain : spelling.Plain) : ∃ text, segments text = path ∧ Occurs text expression := by
  cases denotes with
  | reference => exact ⟨_, rfl, .reference⟩
  | belowCurrent | held | belowHeld | field | fieldOf => exact plain.elim

theorem Within.occurs {scope inner : Scope} {expression part : Json} {text : String}
    (within_ : Within scope expression inner part) (occurs : Occurs text part) : Occurs text expression := by
  induction within_ with
  | self => exact occurs
  | item listed _ ih => exact .item listed (ih occurs)
  | argument listed _ _ _ ih => exact .value listed (ih occurs)
  | outside operator _ listed _ _ ih => exact .value operator (.value listed (ih occurs))
  | body operator _ listed _ _ ih => exact .value operator (.value listed (ih occurs))

theorem ExpressionReads.occurs {scope : Scope} {expression : Json}
    (reads : ExpressionReads scope expression spelling path) (plain : spelling.Plain) :
    ∃ text, segments text = path ∧ Occurs text expression := by
  cases reads with
  | denoted within_ denotes =>
    obtain ⟨text, parts, occurs⟩ := denotes.occurs plain
    exact ⟨text, parts, within_.occurs occurs⟩
  | ranked _ within_ listed lists =>
    obtain ⟨text, parts, occurs⟩ := lists.occurs plain
    exact ⟨text, parts, within_.occurs (.value List.mem_cons_self (.value listed occurs))⟩
  | sorted => exact plain.elim

theorem QueryReads.occurs {query : List (String × Json)} (reads : QueryReads query spelling path) (plain : spelling.Plain) :
    ∃ text, segments text = path ∧ Occurs text (.object query) := by
  induction reads with
  | key listed _ => exact ⟨_, rfl, .key listed⟩
  | elements | schema => exact plain.elim
  | connective _ listed inner _ ih =>
    obtain ⟨text, parts, occurs⟩ := ih plain
    exact ⟨text, parts, .value listed (.item inner occurs)⟩
  | expression listed reads =>
    obtain ⟨text, parts, occurs⟩ := reads.occurs plain
    exact ⟨text, parts, .value listed occurs⟩

variable {levels : List (List String)}

theorem StageReads.occurs {name : String} {spec : Json} (reads : StageReads levels name spec spelling path)
    (plain : spelling.Plain) : ∃ text, segments text = path ∧ Occurs text spec := by
  cases reads with
  | query reads => exact reads.occurs plain
  | shown lists _ => exact lists.occurs plain
  | order lists => exact lists.occurs plain
  | orderBy _ listed lists =>
    obtain ⟨text, parts, occurs⟩ := lists.occurs plain
    exact ⟨text, parts, .value listed occurs⟩
  | filled output listed => exact ⟨_, rfl, .value output (.key listed)⟩
  | partitioned | densified => exact plain.elim
  | descended _ _ reads => exact reads.occurs plain
  | expression _ reads => exact reads.occurs plain

theorem Reads.occurs {pipeline : List Json} {set : List (List String)} (reads : Reads levels pipeline set spelling path)
    (plain : spelling.Plain) : ∃ stage ∈ pipeline, ∃ text, segments text = path ∧ Occurs text stage := by
  induction reads with
  | here reads =>
    obtain ⟨text, parts, occurs⟩ := reads.occurs plain
    exact ⟨_, List.mem_cons_self, text, parts, .value List.mem_cons_self occurs⟩
  | later _ ih =>
    obtain ⟨stage, listed, stands⟩ := ih plain
    exact ⟨stage, List.mem_cons_of_mem _ listed, stands⟩
  | facet listed _ ih =>
    obtain ⟨stage, inner, text, parts, occurs⟩ := ih plain
    exact ⟨_, List.mem_cons_self, text, parts, .value List.mem_cons_self (.value listed (.item inner occurs))⟩

end

end Boom.Foundations.Aggregation
