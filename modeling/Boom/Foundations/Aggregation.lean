import Boom.Foundations.Collection
import Boom.Foundations.Json
import Mathlib.Data.List.Dedup
import Mathlib.Data.List.Pairwise

/-! # Aggregation pipelines

A pipeline is a list of stages in JSON, each run on the documents the one before it
produced.  Here a stage is read as the document store documents it: which fields a
`$project`, `$unset` or `$set` keeps, drops or computes, and which documents the other
stages pass on or make up.  What a query selects, what an expression evaluates to and
how much a `$limit` is are parameters (`Meaning`).

Every document carries the input documents it was produced from.  A stage `keeps` a
field when it passes documents on one by one with that field as it was. -/

namespace Boom.Foundations.Aggregation

abbrev Doc (V : Type) := List (String × V)

structure Traced (V : Type) where
  sources : List (Doc V)
  doc : Doc V

/-! ## Stages -/

inductive Rule where
  | keep
  | drop
  | compute (expression : Json)

def Rule.ofProjection : Json → Rule
  | .bool value => if value then .keep else .drop
  | .number value => if value.isZero then .drop else .keep
  | expression => .compute expression

def Rule.isDrop : Rule → Bool
  | .drop => true
  | _ => false

def Rule.isCompute : Rule → Bool
  | .compute _ => true
  | _ => false

def isOperator : List (String × Json) → Bool
  | [] => true
  | (key, _) :: _ => key.toList.head? == some '$'

mutual

def leaves (path : List String) : Json → List (List String × Json)
  | .object fields => if isOperator fields then [(path, .object fields)] else leavesOf path fields
  | value => [(path, value)]

def leavesOf (path : List String) : List (String × Json) → List (List String × Json)
  | [] => []
  | (key, value) :: rest => leaves (path ++ segments key) value ++ leavesOf path rest

end

def apart : List (List String) → Bool
  | [] => true
  | path :: rest =>
    rest.all (fun other => !path.isPrefixOf other && !other.isPrefixOf path) && apart rest

structure Rewrite where
  rules : List (List String × Rule)
  keepsOthers : String → Bool

def Rewrite.touches (rewrite : Rewrite) (name : String) : Bool :=
  rewrite.rules.any fun rule => rule.1.head? == some name

inductive Stage where
  | select (query : Json)
  | rewrite (change : Rewrite)
  | sort (order : Json)
  | limit (amount : Json)
  | skip (amount : Json)
  | replaceRoot (expression : Json)
  | facet (pipelines : List (String × Json))
  | count (name : String)
  | sortByCount (expression : Json)
  | bucket (spec : Json)
  | other (name : String) (spec : Json)

def excluding (rules : List (List String × Rule)) : Bool :=
  (rules.any fun rule => rule.1 ≠ ["_id"] && rule.2.isDrop) || rules.all fun rule => rule.2.isDrop

def consistent (rules : List (List String × Rule)) : Bool :=
  rules.all fun rule => if rule.1 = ["_id"] then !rule.2.isCompute else rule.2.isDrop

def nothingNamed : Json → Bool
  | .object [] => true
  | _ => false

def projection (fields : List (String × Json)) : Option Rewrite :=
  let rules := (leavesOf [] fields).map fun leaf => (leaf.1, Rule.ofProjection leaf.2)
  if nothingNamed (.object fields) || (leavesOf [] fields).any (fun leaf => nothingNamed leaf.2) ||
      !apart (rules.map Prod.fst) then none
  else if excluding rules then
    if consistent rules then some { rules := rules, keepsOthers := fun _ => true } else none
  else some { rules := rules, keepsOthers := fun name => name == "_id" }

def assignment (fields : List (String × Json)) : Option Rewrite :=
  let rules := (leavesOf [] fields).map fun leaf => (leaf.1, Rule.compute leaf.2)
  if nothingNamed (.object fields) || (leavesOf [] fields).any (fun leaf => nothingNamed leaf.2) ||
      !apart (rules.map Prod.fst) then none
  else some { rules := rules, keepsOthers := fun _ => true }

def removal (paths : List String) : Option Rewrite :=
  let rules := paths.map fun path => (segments path, Rule.drop)
  if apart (rules.map Prod.fst) then some { rules := rules, keepsOthers := fun _ => true } else none

def unsetting : Json → Option Rewrite
  | .string path => removal [path]
  | .array paths => (paths.mapM Json.asStr).bind removal
  | _ => none

/-- A stage by its name. -/
def Stage.ofNamed (name : String) (spec : Json) : Option Stage :=
  if name = "$match" then some (.select spec)
  else if name = "$project" then (spec.asObject.bind projection).map .rewrite
  else if name = "$unset" then (unsetting spec).map .rewrite
  else if name = "$set" || name = "$addFields" then (spec.asObject.bind assignment).map .rewrite
  else if name = "$sort" then some (.sort spec)
  else if name = "$limit" then some (.limit spec)
  else if name = "$skip" then some (.skip spec)
  else if name = "$replaceRoot" then (spec.get "newRoot").map .replaceRoot
  else if name = "$replaceWith" then some (.replaceRoot spec)
  else if name = "$facet" then spec.asObject.map .facet
  else if name = "$count" then spec.asStr.map .count
  else if name = "$sortByCount" then some (.sortByCount spec)
  else if name = "$bucket" then some (.bucket spec)
  else some (.other name spec)

def Stage.parse : Json → Option Stage
  | .object [(name, spec)] => Stage.ofNamed name spec
  | _ => none

/-! ## Running a pipeline -/

/-- What the parts of a stage mean that are not looked at here. -/
structure Meaning (V : Type) where
  /-- The stage fails on these documents, and the pipeline with it. -/
  fails : Json → List (Doc V) → Bool
  selects : Json → Doc V → Bool
  before : Json → Doc V → Doc V → Bool
  limit : Json → Nat
  skip : Json → Nat
  eval : Json → Doc V → Option V
  /-- A field of which only parts are named. -/
  inside : List (List String × Rule) → Doc V → String → Option V
  root : Option V → Doc V
  facet : Json → List (Doc V) → V
  number : Nat → V
  bucket : Json → Doc V → Option V
  outputs : Json → List (Doc V) → Doc V
  /-- Any other stage: what it makes, each with the positions of what it was made from. -/
  other : String → Json → List (Doc V) → List (List Nat × Doc V)

section Run

variable {V : Type} (meaning : Meaning V)

def Rewrite.value (rewrite : Rewrite) (doc : Doc V) (name : String) : Option V :=
  match rewrite.rules.lookup [name] with
  | some .keep => doc.lookup name
  | some .drop => none
  | some (.compute expression) => meaning.eval expression doc
  | none =>
    if rewrite.touches name then meaning.inside rewrite.rules doc name
    else if rewrite.keepsOthers name then doc.lookup name
    else none

def Rewrite.names (rewrite : Rewrite) (doc : Doc V) : List String :=
  (doc.map Prod.fst ++ rewrite.rules.filterMap fun rule => rule.1.head?).dedup

def Rewrite.apply (rewrite : Rewrite) (doc : Doc V) : Doc V :=
  (rewrite.names doc).filterMap fun name => (rewrite.value meaning doc name).map (name, ·)

def madeFrom (docs : List (Traced V)) (doc : Doc V) : Traced V :=
  { sources := docs.flatMap Traced.sources, doc := doc }

variable [DecidableEq V]

def groups (key : Doc V → Option V) (docs : List (Traced V)) : List (Option V × List (Traced V)) :=
  (docs.map fun traced => key traced.doc).dedup.map fun value =>
    (value, docs.filter fun traced => key traced.doc = value)

def grouped (group : Option V × List (Traced V)) (outputs : Doc V) : Traced V :=
  madeFrom group.2 (group.1.elim outputs fun value => ("_id", value) :: outputs)

def Stage.run (docs : List (Traced V)) : Stage → List (Traced V)
  | .select query => docs.filter fun traced => meaning.selects query traced.doc
  | .rewrite change => docs.map fun traced => { traced with doc := change.apply meaning traced.doc }
  | .sort order => docs.mergeSort fun first second => meaning.before order first.doc second.doc
  | .limit amount => docs.take (meaning.limit amount)
  | .skip amount => docs.drop (meaning.skip amount)
  | .replaceRoot expression => docs.map fun traced =>
      { traced with doc := meaning.root (meaning.eval expression traced.doc) }
  | .facet pipelines => [madeFrom docs (pipelines.map fun pipeline =>
      (pipeline.1, meaning.facet pipeline.2 (docs.map Traced.doc)))]
  | .count name => if docs.isEmpty then [] else [madeFrom docs [(name, meaning.number docs.length)]]
  | .sortByCount expression =>
      ((groups (meaning.eval expression) docs).mergeSort fun first second =>
        second.2.length ≤ first.2.length).map fun group =>
          grouped group [("count", meaning.number group.2.length)]
  | .bucket spec => (groups (meaning.bucket spec) docs).map fun group =>
      grouped group (meaning.outputs spec (group.2.map Traced.doc))
  | .other name spec => (meaning.other name spec (docs.map Traced.doc)).map fun made =>
      madeFrom (made.1.filterMap fun position => docs[position]?) made.2

def runPipeline : List Json → List (Traced V) → Option (List (Traced V))
  | [], docs => some docs
  | stage :: rest, docs =>
    (Stage.parse stage).bind fun parsed =>
      if meaning.fails stage (docs.map Traced.doc) then none else runPipeline rest (parsed.run meaning docs)

end Run

/-! ## Fields a stage keeps -/

def Rewrite.keeps (rewrite : Rewrite) (name : String) : Bool :=
  match rewrite.rules.lookup [name] with
  | some .keep => true
  | some _ => false
  | none => !rewrite.touches name && rewrite.keepsOthers name

def Stage.keeps (name : String) : Stage → Bool
  | .select _ | .sort _ | .limit _ | .skip _ => true
  | .rewrite change => change.keeps name
  | _ => false

def Traced.Kept {V : Type} (name : String) (traced : Traced V) : Prop :=
  ∃ source, traced.sources = [source] ∧ traced.doc.lookup name = source.lookup name

/-! ### Rules and leaves -/

def Apart (path other : List String) : Prop :=
  ¬ path <+: other ∧ ¬ other <+: path

instance : Std.Symm Apart :=
  ⟨fun _ _ distinct => ⟨distinct.2, distinct.1⟩⟩

theorem apart_iff {paths : List (List String)} : apart paths = true ↔ paths.Pairwise Apart := by
  induction paths with
  | nil => simp [apart]
  | cons path rest ih =>
    simp [apart, ih, Apart, ← List.isPrefixOf_iff_prefix, and_comm]

theorem eq_of_prefix {paths : List (List String)} (separate : apart paths = true) {path other : List String}
    (member : path ∈ paths) (member' : other ∈ paths) (starts : path <+: other) : path = other := by
  by_contra different
  exact ((apart_iff.mp separate).forall member member' different).1 starts

theorem nodup_of_apart {paths : List (List String)} (separate : apart paths = true) : paths.Nodup := by
  refine (apart_iff.mp separate).imp fun {path other} distinct same => ?_
  rw [same] at distinct
  exact distinct.1 (List.prefix_refl _)

variable {name : String}

theorem Rewrite.keeps_iff {change : Rewrite} (separate : apart (change.rules.map Prod.fst) = true)
    : change.keeps name = true ↔
      (∀ rule ∈ change.rules, rule.1.head? = some name → rule = ([name], .keep)) ∧
        (([name], Rule.keep) ∈ change.rules ∨ change.keepsOthers name = true) := by
  have unique := nodup_of_apart separate
  have touched : change.touches name = true ↔ ∃ rule ∈ change.rules, rule.1.head? = some name := by
    simp [Rewrite.touches]
  cases found : change.rules.lookup [name] with
  | some held =>
    have member := (Collection.mem_iff_lookup unique).mpr found
    have only (rule : List String × Rule) (listed : rule ∈ change.rules) (isHead : rule.1.head? = some name) :
        rule = ([name], held) := by
      obtain ⟨rest, shape⟩ := List.head?_eq_some_iff.mp isHead
      have same := eq_of_prefix separate (List.mem_map_of_mem member) (List.mem_map_of_mem listed)
        (by simp [shape])
      have again : change.rules.lookup rule.1 = some rule.2 := (Collection.mem_iff_lookup unique).mp listed
      rw [← same, found] at again
      exact Prod.ext same.symm (Option.some.inj again).symm
    cases held with
    | keep => simpa [Rewrite.keeps, found, member] using only
    | drop =>
      simp only [Rewrite.keeps, found, Bool.false_eq_true, false_iff, not_and]
      intro all
      simpa using all _ member rfl
    | compute expression =>
      simp only [Rewrite.keeps, found, Bool.false_eq_true, false_iff, not_and]
      intro all
      simpa using all _ member rfl
  | none =>
    have absent (rule : Rule) : ([name], rule) ∉ change.rules := by
      intro member
      rw [(Collection.mem_iff_lookup unique).mp member] at found
      cases found
    simp only [Rewrite.keeps, found, Bool.and_eq_true, Bool.not_eq_true', absent, false_or]
    refine and_congr_left fun _ => ?_
    constructor
    · intro untouched rule listed isHead
      rw [touched.mpr ⟨rule, listed, isHead⟩] at untouched
      cases untouched
    · intro all
      by_contra isTouched
      obtain ⟨rule, listed, isHead⟩ := touched.mp (by simpa using isTouched)
      rw [all rule listed isHead] at listed
      exact absent _ listed

mutual

theorem leaves_cases (path : List String) : (value : Json) → ∀ leaf ∈ leaves path value,
    leaf = (path, value) ∨ path.length < leaf.1.length
  | .object fields => by
    intro leaf member
    simp only [leaves] at member
    split at member
    · exact .inl (List.mem_singleton.mp member)
    · exact .inr (leavesOf_deeper path fields leaf member)
  | .null | .bool _ | .number _ | .string _ | .array _ => by
    intro leaf member
    exact .inl (List.mem_singleton.mp member)

theorem leavesOf_deeper (path : List String) : (fields : List (String × Json)) →
    ∀ leaf ∈ leavesOf path fields, path.length < leaf.1.length
  | [] => by simp [leavesOf]
  | (key, value) :: rest => by
    intro leaf member
    have nonempty := List.length_pos_of_ne_nil (segments_ne_nil key)
    rcases List.mem_append.mp member with here | later
    · rcases leaves_cases (path ++ segments key) value leaf here with rfl | deeper
      · simp only [List.length_append]
        omega
      · simp only [List.length_append] at deeper
        omega
    · exact leavesOf_deeper path rest leaf later

end

theorem mem_of_leaf {fields : List (String × Json)} {value : Json}
    (member : ([name], value) ∈ leavesOf [] fields) : (name, value) ∈ fields ∧ segments name = [name] := by
  induction fields with
  | nil => cases member
  | cons field rest ih =>
    obtain ⟨key, held⟩ := field
    rcases List.mem_append.mp member with here | later
    · rcases leaves_cases _ held _ here with same | deeper
      · obtain ⟨path, rfl⟩ := Prod.mk.inj same
        rw [List.nil_append] at path
        obtain rfl := eq_of_segments path.symm
        exact ⟨List.mem_cons_self, path.symm⟩
      · have nonempty := List.length_pos_of_ne_nil (segments_ne_nil key)
        simp only [List.nil_append, List.length_singleton] at deeper
        omega
    · exact ⟨List.mem_cons_of_mem _ (ih later).1, (ih later).2⟩

theorem leaf_of_number {fields : List (String × Json)} {key : String} {number : Number}
    (member : (key, Json.number number) ∈ fields) : (segments key, .number number) ∈ leavesOf [] fields := by
  induction fields with
  | nil => cases member
  | cons field rest ih =>
    obtain ⟨other, held⟩ := field
    rcases List.mem_cons.mp member with same | later
    · obtain ⟨rfl, rfl⟩ := Prod.mk.inj same
      exact List.mem_append_left _ (by simp [leaves])
    · exact List.mem_append_right _ (ih later)

theorem projection_spec {fields : List (String × Json)} {change : Rewrite} (parsed : projection fields = some change) :
    change.rules = (leavesOf [] fields).map (fun leaf => (leaf.1, Rule.ofProjection leaf.2)) ∧
      apart (change.rules.map Prod.fst) = true ∧
      ((excluding change.rules = true ∧ consistent change.rules = true ∧
          ∀ name, change.keepsOthers name = true) ∨
        excluding change.rules = false ∧ ∀ name, change.keepsOthers name = (name == "_id")) := by
  simp only [projection] at parsed
  split at parsed
  next => cases parsed
  next sound =>
    simp only [Bool.or_eq_true, Bool.not_eq_true', not_or, Bool.not_eq_false] at sound
    split at parsed
    next excludes =>
      obtain ⟨isConsistent, same⟩ := Option.ite_none_right_eq_some.mp parsed
      rw [← Option.some.inj same]
      exact ⟨rfl, sound.2, .inl ⟨excludes, isConsistent, fun _ => rfl⟩⟩
    next includes =>
      rw [← Option.some.inj parsed]
      exact ⟨rfl, sound.2, .inr ⟨by simpa using includes, fun _ => rfl⟩⟩

variable {pipeline : List Json}

section Keeps

variable {V : Type} {meaning : Meaning V}

theorem Rewrite.touches_of_lookup {rewrite : Rewrite} {rule : Rule}
    (found : rewrite.rules.lookup [name] = some rule) : rewrite.touches name = true := by
  refine List.any_eq_true.mpr ⟨([name], rule), ?_, by simp⟩
  obtain ⟨before, after, shape, _⟩ := List.lookup_eq_some_iff.mp found
  simp [shape]

theorem Rewrite.value_of_not_mem {rewrite : Rewrite} {doc : Doc V}
    (absent : name ∉ rewrite.names doc) : rewrite.value meaning doc name = none := by
  simp only [Rewrite.names, List.mem_dedup, List.mem_append, not_or] at absent
  obtain ⟨notHeld, notNamed⟩ := absent
  have untouched : rewrite.touches name = false := by
    refine List.any_eq_false.mpr fun rule member isHead => notNamed ?_
    exact List.mem_filterMap.mpr ⟨rule, member, by simpa using isHead⟩
  have missing : doc.lookup name = none := by
    refine List.lookup_eq_none_iff.mpr fun entry member => ?_
    have differs : name ≠ entry.1 := by
      rintro rfl
      exact notHeld (List.mem_map_of_mem member)
    simpa using differs
  cases found : rewrite.rules.lookup [name] with
  | some rule => simp [Rewrite.touches_of_lookup found] at untouched
  | none => simp [Rewrite.value, found, untouched, missing]

theorem lookup_filterMap {names : List String} (unique : names.Nodup) (value : String → Option V) (name : String) :
    (names.filterMap fun other => (value other).map (other, ·)).lookup name =
      if name ∈ names then value name else none := by
  induction names with
  | nil => rfl
  | cons other rest ih =>
    obtain ⟨fresh, unique⟩ := List.nodup_cons.mp unique
    have later := ih unique
    by_cases same : name = other
    · subst same
      rw [if_neg fresh] at later
      cases held : value name with
      | some found => simp [held]
      | none => rw [List.filterMap_cons_none (by simp [held]), later, if_pos List.mem_cons_self]
    · have differs : (name == other) = false := by simpa using same
      cases held : value other with
      | some found => simp [held, List.lookup_cons, differs, same, later]
      | none => rw [List.filterMap_cons_none (by simp [held]), later]; simp [same]

theorem Rewrite.lookup_apply (rewrite : Rewrite) (doc : Doc V) (name : String) :
    (rewrite.apply meaning doc).lookup name = rewrite.value meaning doc name := by
  rw [Rewrite.apply, lookup_filterMap (show (rewrite.names doc).Nodup from List.nodup_dedup _)]
  split
  next => rfl
  next absent => exact (Rewrite.value_of_not_mem absent).symm

theorem Rewrite.value_of_keeps {rewrite : Rewrite} (keeps : rewrite.keeps name = true)
    (doc : Doc V) : rewrite.value meaning doc name = doc.lookup name := by
  unfold Rewrite.keeps at keeps
  unfold Rewrite.value
  cases found : rewrite.rules.lookup [name] with
  | some rule => cases rule <;> simp_all
  | none => simp_all

variable [DecidableEq V]

theorem Stage.run_kept {stage : Stage} (keeps : stage.keeps name = true)
    {docs : List (Traced V)} (kept : ∀ traced ∈ docs, traced.Kept name) :
    ∀ traced ∈ stage.run meaning docs, traced.Kept name := by
  intro traced member
  cases stage with
  | select query => exact kept traced (List.mem_of_mem_filter member)
  | sort order => exact kept traced (List.mem_mergeSort.mp member)
  | limit amount => exact kept traced (List.mem_of_mem_take member)
  | skip amount => exact kept traced (List.mem_of_mem_drop member)
  | rewrite change =>
    obtain ⟨before, listed, rfl⟩ := List.mem_map.mp member
    obtain ⟨source, sources, same⟩ := kept before listed
    exact ⟨source, sources, by rw [Rewrite.lookup_apply, Rewrite.value_of_keeps keeps, same]⟩
  | _ => cases keeps

theorem runPipeline_kept (keeps : ∀ stage ∈ pipeline, ∀ parsed ∈ Stage.parse stage, parsed.keeps name = true)
    {docs outputs : List (Traced V)} (kept : ∀ traced ∈ docs, traced.Kept name)
    (ran : runPipeline meaning pipeline docs = some outputs) : ∀ traced ∈ outputs, traced.Kept name := by
  induction pipeline generalizing docs with
  | nil =>
    cases ran
    exact kept
  | cons stage rest ih =>
    obtain ⟨parsed, isParsed, ran⟩ := Option.bind_eq_some_iff.mp ran
    split at ran
    next => cases ran
    next =>
      refine ih (fun later listed => keeps later (List.mem_cons_of_mem _ listed)) ?_ ran
      exact Stage.run_kept (keeps stage List.mem_cons_self parsed isParsed) kept

end Keeps

/-! ## Fields a stage does not keep -/

/-- Everything is selected, and whatever is computed is `true`. -/
def spoiler : Meaning Bool where
  fails _ _ := false
  selects _ _ := true
  before _ _ _ := true
  limit _ := 1
  skip _ := 0
  eval _ _ := some true
  inside _ _ _ := some true
  root _ := []
  facet _ _ := true
  number _ := true
  bucket _ _ := some true
  outputs _ _ := []
  other _ _ _ := [([0], [])]

/-- The document no longer has the `false` that its sources have. -/
structure Spoiled (name : String) (traced : Traced Bool) : Prop where
  sources : ∀ source ∈ traced.sources, source.lookup name = some false
  doc : traced.doc.lookup name ≠ some false

theorem Spoiled.not_kept {traced : Traced Bool} (spoiled : Spoiled name traced) :
    ¬ traced.Kept name := by
  rintro ⟨source, sources, same⟩
  exact spoiled.doc (same.trans (spoiled.sources source (by simp [sources])))

theorem lookup_of_all_true {doc : Doc Bool} (all : ∀ entry ∈ doc, entry.2 = true) (name : String) :
    doc.lookup name ≠ some false := by
  intro found
  obtain ⟨before, after, shape, _⟩ := List.lookup_eq_some_iff.mp found
  have isTrue := all (name, false) (by simp [shape])
  cases isTrue

theorem Rewrite.spoiled {change : Rewrite} {doc : Doc Bool}
    (spoils : change.keeps name = false ∨ doc.lookup name ≠ some false) :
    (change.apply spoiler doc).lookup name ≠ some false := by
  rw [Rewrite.lookup_apply]
  unfold Rewrite.value
  cases found : change.rules.lookup [name] with
  | some rule =>
    cases rule with
    | keep =>
      rcases spoils with not_kept | different
      · simp [Rewrite.keeps, found] at not_kept
      · exact different
    | drop => simp
    | compute expression => simp [spoiler]
  | none =>
    cases touched : change.touches name with
    | true => simp [spoiler]
    | false =>
      cases others : change.keepsOthers name with
      | false => simp
      | true =>
        rcases spoils with not_kept | different
        · simp [Rewrite.keeps, found, touched, others] at not_kept
        · simpa using different

theorem Stage.run_spoiler (stage : Stage) {traced : Traced Bool}
    (sources : ∀ source ∈ traced.sources, source.lookup name = some false) :
    ∃ after, stage.run spoiler [traced] = [after] ∧
      (∀ source ∈ after.sources, source.lookup name = some false) ∧
      (stage.keeps name = false ∨ traced.doc.lookup name ≠ some false →
        after.doc.lookup name ≠ some false) := by
  cases stage with
  | select query => exact ⟨traced, rfl, sources, by simp [Stage.keeps]⟩
  | sort order => exact ⟨traced, by simp [Stage.run], sources, by simp [Stage.keeps]⟩
  | limit amount => exact ⟨traced, rfl, sources, by simp [Stage.keeps]⟩
  | skip amount => exact ⟨traced, rfl, sources, by simp [Stage.keeps]⟩
  | rewrite change => exact ⟨_, rfl, sources, Rewrite.spoiled⟩
  | replaceRoot expression => exact ⟨_, rfl, sources, fun _ => by simp [spoiler]⟩
  | facet pipelines =>
    refine ⟨_, rfl, by simpa [madeFrom] using sources, fun _ => lookup_of_all_true ?_ name⟩
    simp [madeFrom, spoiler]
  | count named =>
    refine ⟨_, rfl, by simpa [madeFrom] using sources, fun _ => lookup_of_all_true ?_ name⟩
    simp [madeFrom, spoiler]
  | sortByCount expression =>
    refine ⟨madeFrom [traced] [("_id", true), ("count", true)], ?_, by simpa [madeFrom] using sources,
      fun _ => lookup_of_all_true (by simp [madeFrom]) name⟩
    simp [Stage.run, groups, grouped, spoiler]
  | bucket spec =>
    refine ⟨madeFrom [traced] [("_id", true)], ?_, by simpa [madeFrom] using sources,
      fun _ => lookup_of_all_true (by simp [madeFrom]) name⟩
    simp [Stage.run, groups, grouped, spoiler]
  | other named spec =>
    exact ⟨_, rfl, by simpa [madeFrom] using sources, fun _ => by simp [madeFrom]⟩

theorem runPipeline_spoiled (parses : ∀ stage ∈ pipeline, (Stage.parse stage).isSome = true) {traced : Traced Bool}
    (sources : ∀ source ∈ traced.sources, source.lookup name = some false)
    (spoils : traced.doc.lookup name ≠ some false ∨
      ∃ stage ∈ pipeline, ∃ parsed, Stage.parse stage = some parsed ∧ parsed.keeps name = false) :
    ∃ output, runPipeline spoiler pipeline [traced] = some [output] ∧ Spoiled name output := by
  induction pipeline generalizing traced with
  | nil =>
    refine ⟨traced, rfl, sources, ?_⟩
    simpa using spoils
  | cons stage rest ih =>
    obtain ⟨parsed, isParsed⟩ := Option.isSome_iff_exists.mp (parses stage List.mem_cons_self)
    obtain ⟨after, ran, sources', lost⟩ := parsed.run_spoiler sources
    have spoils' : after.doc.lookup name ≠ some false ∨
        ∃ later ∈ rest, ∃ parsed, Stage.parse later = some parsed ∧ parsed.keeps name = false := by
      rcases spoils with already | ⟨culprit, listed, read, isRead, notKept⟩
      · exact .inl (lost (.inr already))
      · rcases List.mem_cons.mp listed with rfl | later
        · obtain rfl : parsed = read := Option.some.inj (isParsed.symm.trans isRead)
          exact .inl (lost (.inl notKept))
        · exact .inr ⟨culprit, later, read, isRead, notKept⟩
    obtain ⟨output, runs, spoiled⟩ := ih
      (fun later listed => parses later (List.mem_cons_of_mem _ listed)) sources' spoils'
    refine ⟨output, ?_, spoiled⟩
    rw [runPipeline, isParsed, Option.bind_some, ran, runs]
    simp [spoiler]

/-! ## Pipelines that keep fields -/

def Traced.input {V : Type} (doc : Doc V) : Traced V :=
  { sources := [doc], doc := doc }

def KeepsFields {V : Type} [DecidableEq V] (meaning : Meaning V) (pipeline : List Json)
    (names : List String) : Prop :=
  ∀ (inputs : List (Doc V)) (outputs : List (Traced V)), (∀ doc ∈ inputs, ∀ name ∈ names, (doc.lookup name).isSome = true) →
    runPipeline meaning pipeline (inputs.map Traced.input) = some outputs →
      ∀ traced ∈ outputs, ∀ name ∈ names, traced.Kept name

theorem runPipeline_of_malformed {V : Type} [DecidableEq V] {meaning : Meaning V}
    {stage : Json} (listed : stage ∈ pipeline) (malformed : Stage.parse stage = none)
    (docs : List (Traced V)) : runPipeline meaning pipeline docs = none := by
  induction pipeline generalizing docs with
  | nil => cases listed
  | cons first rest ih =>
    rw [runPipeline]
    rcases List.mem_cons.mp listed with rfl | later
    · rw [malformed, Option.bind_none]
    · cases Stage.parse first with
      | none => rfl
      | some parsed =>
        rw [Option.bind_some]
        split
        · rfl
        · exact ih later _

theorem keepsFields_iff (parses : ∀ stage ∈ pipeline, (Stage.parse stage).isSome = true) (names : List String) :
    (∀ (V : Type) [DecidableEq V] (meaning : Meaning V), KeepsFields meaning pipeline names) ↔
      ∀ stage ∈ pipeline, ∀ parsed, Stage.parse stage = some parsed →
        ∀ name ∈ names, parsed.keeps name = true := by
  constructor
  · intro always stage listed parsed isParsed name isName
    by_contra notKept
    have input : ∀ other ∈ names, (names.map fun other => (other, false)).lookup other = some false :=
      fun other isOther => List.lookup_graph (fun _ => false) isOther
    have sources : ∀ source ∈ (Traced.input (names.map fun other => (other, false))).sources,
        source.lookup name = some false := by
      simpa [Traced.input] using input name isName
    obtain ⟨output, ran, spoiled⟩ := runPipeline_spoiled parses sources
      (.inr ⟨stage, listed, parsed, isParsed, by simpa using notKept⟩)
    refine spoiled.not_kept (always Bool spoiler [_] _ ?_ ran output List.mem_cons_self name isName)
    simp
  · intro keeps V _ meaning inputs outputs _ ran traced member name isName
    refine runPipeline_kept (fun stage listed parsed isParsed => keeps stage listed parsed isParsed name isName)
      ?_ ran traced member
    intro input listed
    obtain ⟨doc, _, rfl⟩ := List.mem_map.mp listed
    exact ⟨doc, rfl, rfl⟩

end Boom.Foundations.Aggregation
