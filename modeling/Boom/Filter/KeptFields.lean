import Boom.Filter.Base
import Boom.Foundations.Aggregation
import Boom.Foundations.Except

/-! # The two fields every filter result must have

What a filter lets through is read by its `_id` and `objectId`, and the validation is
there so that no pipeline loses them.  It looks at the integers `0` and `1` in a
`$project`, at the names in an `$unset`, and at no other stage. -/

namespace Boom.Filter

open Boom.Foundations Boom.Foundations.Aggregation

def keptNames : List String := ["_id", "objectId"]

/-! ## Loopholes -/

def reaches (path : List String) : Bool :=
  path.head?.any keptNames.contains

def isInside (path : List String) : Bool :=
  reaches path && 1 < path.length

def overlooked (leaf : List String × Json) : Bool :=
  let rule := Rule.ofProjection leaf.2
  !leaf.2.isNumber .zero &&
    ((leaf.1 == ["_id"] && (rule.isDrop || rule.isCompute)) || (leaf.1 == ["objectId"] && rule.isDrop))

def fieldsOf (spec : Json) : List (List String × Json) :=
  leavesOf [] (spec.asObject.getD [])

def unsetPaths : Json → List String
  | .string path => [path]
  | .array paths => paths.filterMap Json.asStr
  | _ => []

def loophole : Json → Bool
  | .object [(name, spec)] =>
    if name = "$project" then (fieldsOf spec).any fun leaf => isInside leaf.1 || overlooked leaf
    else if name = "$unset" then (unsetPaths spec).any fun path => isInside (segments path)
    else if name = "$set" || name = "$addFields" then (fieldsOf spec).any fun leaf => reaches leaf.1
    else !(["$match", "$sort", "$limit", "$skip"].contains name)
  | _ => false

/-! ## What the validation sees -/

theorem foldl_entry (fields : List (String × Json)) (flags : ProjectFlags) :
    fields.foldl (fun flags field => flags.entry field.1 field.2) flags =
      { includesObjectId := flags.includesObjectId ||
          fields.any fun field => field.1 = "objectId" && field.2.isNumber .one
        excludesObjectId := flags.excludesObjectId ||
          fields.any fun field => field.1 = "objectId" && field.2.isNumber .zero
        excludesId := flags.excludesId || fields.any fun field => field.1 = "_id" && field.2.isNumber .zero
        includeStage := flags.includeStage &&
          !fields.any fun field => !keptNames.contains field.1 && field.2.isNumber .zero } := by
  induction fields generalizing flags with
  | nil => simp
  | cons field rest ih =>
    obtain ⟨key, value⟩ := field
    rw [List.foldl_cons, ih]
    have exclusive : value.isNumber .one = true → value.isNumber .zero = false := by
      intro isOne
      rw [Json.isNumber_iff.mp isOne]
      rfl
    by_cases isObjectId : key = "objectId"
    · cases isOne : value.isNumber .one <;> cases isZero : value.isNumber .zero <;>
        simp_all [ProjectFlags.entry, keptNames]
    · by_cases isId : key = "_id"
      · cases isZero : value.isNumber .zero <;> simp_all [ProjectFlags.entry, keptNames]
      · cases isZero : value.isNumber .zero <;> simp_all [ProjectFlags.entry, keptNames]

section Flags

variable {fields : List (String × Json)}

theorem includesObjectId_iff :
    (projectFlags fields).includesObjectId = true ↔ ("objectId", Json.number .one) ∈ fields := by
  simp [projectFlags, foldl_entry, Json.isNumber_iff]

theorem excludesObjectId_iff :
    (projectFlags fields).excludesObjectId = true ↔ ("objectId", Json.number .zero) ∈ fields := by
  simp [projectFlags, foldl_entry, Json.isNumber_iff]

theorem excludesId_iff : (projectFlags fields).excludesId = true ↔ ("_id", Json.number .zero) ∈ fields := by
  simp [projectFlags, foldl_entry, Json.isNumber_iff]

theorem includeStage_iff : (projectFlags fields).includeStage = false ↔
    ∃ key, key ∉ keptNames ∧ (key, Json.number .zero) ∈ fields := by
  simp [projectFlags, foldl_entry, Json.isNumber_iff, and_comm]

end Flags

variable {fields : List (String × Json)}

theorem of_checkProject {stage : Json}
    (isProject : stage.get "$project" = some (.object fields)) (accepted : checkProject stage = .ok ()) :
    ("_id", Json.number .zero) ∉ fields ∧ (("objectId", Json.number .one) ∈ fields ∨
      (∃ key, key ∉ keptNames ∧ (key, Json.number .zero) ∈ fields) ∧
        ("objectId", Json.number .zero) ∉ fields) := by
  rw [← excludesId_iff, ← includesObjectId_iff, ← includeStage_iff, ← excludesObjectId_iff]
  rw [checkProject, isProject] at accepted
  simp only [Json.asObject, Option.getD_some] at accepted
  cases excludesId : (projectFlags fields).excludesId <;> cases included : (projectFlags fields).includeStage <;>
    cases includes : (projectFlags fields).includesObjectId <;>
    cases excludes : (projectFlags fields).excludesObjectId <;>
    simp_all [invalid]

/-! ## Ways out -/

theorem reaches_iff {path : List String} :
    reaches path = true ↔ ∃ name ∈ keptNames, path.head? = some name := by
  unfold reaches
  cases path.head? <;> simp

theorem eq_of_not_isInside {path : List String} {name : String} (isKept : name ∈ keptNames)
    (isHead : path.head? = some name) (notInside : isInside path = false) : path = [name] := by
  obtain ⟨rest, rfl⟩ := List.head?_eq_some_iff.mp isHead
  cases rest with
  | nil => rfl
  | cons => simp [isInside, reaches, isKept] at notInside

theorem overlooked_iff {leaf : List String × Json} : overlooked leaf = true ↔
    leaf.2 ≠ .number .zero ∧ (leaf.1 = ["_id"] ∧ Rule.ofProjection leaf.2 ≠ .keep ∨
      leaf.1 = ["objectId"] ∧ Rule.ofProjection leaf.2 = .drop) := by
  have notKeep (rule : Rule) : (rule.isDrop || rule.isCompute) = true ↔ rule ≠ .keep := by
    cases rule <;> simp [Rule.isDrop, Rule.isCompute]
  have isDrop (rule : Rule) : rule.isDrop = true ↔ rule = .drop := by
    cases rule <;> simp [Rule.isDrop]
  have isZero : (!leaf.2.isNumber .zero) = true ↔ leaf.2 ≠ .number .zero := by
    rw [Bool.not_eq_true', ← Bool.not_eq_true, Json.isNumber_iff]
  simp only [overlooked, Bool.and_eq_true, Bool.or_eq_true (_ && _), isZero, notKeep, isDrop, beq_iff_eq]

section Projection

variable {fields : List (String × Json)} {change : Rewrite}

theorem of_project_keeps (parsed : projection fields = some change)
    (keeps : ∀ name ∈ keptNames, change.keeps name = true) :
    ∀ leaf ∈ leavesOf [] fields, isInside leaf.1 = false ∧ overlooked leaf = false := by
  obtain ⟨rules, separate, _⟩ := projection_spec parsed
  intro leaf member
  have listed : (leaf.1, Rule.ofProjection leaf.2) ∈ change.rules := by
    rw [rules]
    exact List.mem_map_of_mem member
  have only (name : String) (isKept : name ∈ keptNames) (isHead : leaf.1.head? = some name) :
      leaf.1 = [name] ∧ Rule.ofProjection leaf.2 = .keep :=
    Prod.mk.inj (((Rewrite.keeps_iff separate).mp (keeps name isKept)).1 _ listed isHead)
  constructor
  · by_contra inside
    rw [Bool.not_eq_false, isInside, Bool.and_eq_true] at inside
    obtain ⟨reached, long⟩ := inside
    obtain ⟨name, isKept, isHead⟩ := reaches_iff.mp reached
    simp [(only name isKept isHead).1] at long
  · by_contra missed
    rcases (overlooked_iff.mp (by simpa using missed)).2 with ⟨path, notKeep⟩ | ⟨path, isDrop⟩
    · exact notKeep (only "_id" (by simp [keptNames]) (by simp [path])).2
    · have keep := (only "objectId" (by simp [keptNames]) (by simp [path])).2
      rw [isDrop] at keep
      cases keep

theorem excluding_of_zero {key : String} (other : key ∉ keptNames) (member : (key, Json.number .zero) ∈ fields) :
    excluding ((leavesOf [] fields).map fun leaf => (leaf.1, Rule.ofProjection leaf.2)) = true := by
  have notId : segments key ≠ ["_id"] := by
    intro same
    exact other (by simp [eq_of_segments same, keptNames])
  have listed := leaf_of_number member
  refine Bool.or_eq_true_iff.mpr (.inl (List.any_eq_true.mpr ⟨_, List.mem_map_of_mem listed, ?_⟩))
  simp [notId, Rule.ofProjection, Number.isZero, Number.zero, Rule.isDrop]

/-- An accepted `$project` with no loophole keeps both fields. -/
theorem project_keeps {stage : Json} (isProject : stage.get "$project" = some (.object fields))
    (accepted : checkProject stage = .ok ()) (parsed : projection fields = some change)
    (closed : ∀ leaf ∈ leavesOf [] fields, isInside leaf.1 = false ∧ overlooked leaf = false) :
    ∀ name ∈ keptNames, change.keeps name = true := by
  obtain ⟨rules, separate, mode⟩ := projection_spec parsed
  obtain ⟨idStays, objectIdStays⟩ := of_checkProject isProject accepted
  -- A rule about one of the fields or a part of it is about the field, and comes from a leaf.
  have leafOf {name : String} (isKept : name ∈ keptNames) {rule : List String × Rule}
      (listed : rule ∈ change.rules) (isHead : rule.1.head? = some name) :
      ∃ value, ([name], value) ∈ leavesOf [] fields ∧ rule = ([name], Rule.ofProjection value) := by
    rw [rules] at listed
    obtain ⟨leaf, member, rfl⟩ := List.mem_map.mp listed
    have path := eq_of_not_isInside isKept isHead (closed leaf member).1
    exact ⟨leaf.2, path ▸ member, by rw [path]⟩
  intro name isKept
  refine (Rewrite.keeps_iff separate).mpr ?_
  rcases List.mem_pair.mp isKept with rfl | rfl
  · refine ⟨fun rule listed isHead => ?_, .inr ?_⟩
    · obtain ⟨value, member, rfl⟩ := leafOf isKept listed isHead
      by_contra notKeep
      refine Bool.eq_false_iff.mp (closed _ member).2 (overlooked_iff.mpr ⟨?_, .inl ⟨rfl, ?_⟩⟩)
      · intro isZero
        have isZero : value = .number .zero := isZero
        exact idStays (isZero ▸ (mem_of_leaf member).1)
      · intro keep
        exact notKeep (by rw [keep])
    · rcases mode with ⟨_, _, others⟩ | ⟨_, others⟩
      · exact others _
      · rw [others]
        rfl
  · rcases objectIdStays with included | ⟨⟨key, other, zero⟩, notZero⟩
    · have keep : (["objectId"], Rule.keep) ∈ change.rules := by
        rw [rules]
        exact List.mem_map.mpr ⟨_, leaf_of_number included, rfl⟩
      refine ⟨fun rule listed isHead => ?_, .inl keep⟩
      obtain ⟨value, member, rfl⟩ := leafOf isKept listed isHead
      exact List.inj_on_of_nodup_map (nodup_of_apart separate) listed keep rfl
    · have excludes := excluding_of_zero other zero
      rw [← rules] at excludes
      rcases mode with ⟨_, isConsistent, others⟩ | ⟨includes, _⟩
      · refine ⟨fun rule listed isHead => ?_, .inr (others _)⟩
        obtain ⟨value, member, rfl⟩ := leafOf isKept listed isHead
        have drops := List.all_eq_true.mp isConsistent _ listed
        have isDrop : Rule.ofProjection value = .drop := by
          cases rule : Rule.ofProjection value <;> simp_all [Rule.isDrop]
        refine absurd (overlooked_iff.mpr ⟨?_, .inr ⟨rfl, isDrop⟩⟩) (Bool.eq_false_iff.mp (closed _ member).2)
        intro isZero
        have isZero : value = .number .zero := isZero
        exact notZero (isZero ▸ (mem_of_leaf member).1)
      · rw [includes] at excludes
        cases excludes

end Projection

theorem removal_keeps_iff {paths : List String} {change : Rewrite} (parsed : removal paths = some change)
    (others : ∀ path ∈ paths, path ∉ keptNames) :
    (∀ name ∈ keptNames, change.keeps name = true) ↔ ∀ path ∈ paths, isInside (segments path) = false := by
  obtain ⟨separate, same⟩ := Option.ite_none_right_eq_some.mp parsed
  obtain rfl := Option.some.inj same
  constructor
  · intro keeps path member
    by_contra inside
    rw [Bool.not_eq_false, isInside, Bool.and_eq_true] at inside
    obtain ⟨name, isKept, isHead⟩ := reaches_iff.mp inside.1
    have only := ((Rewrite.keeps_iff separate).mp (keeps name isKept)).1 _ (List.mem_map_of_mem member) isHead
    cases (Prod.mk.inj only).2
  · intro closed name isKept
    refine (Rewrite.keeps_iff separate).mpr ⟨fun rule listed isHead => ?_, .inr rfl⟩
    obtain ⟨path, member, rfl⟩ := List.mem_map.mp listed
    have single := eq_of_not_isInside isKept isHead (closed path member)
    exact absurd (eq_of_segments single ▸ isKept) (others path member)

theorem assignment_keeps_iff {change : Rewrite} (parsed : assignment fields = some change) :
    (∀ name ∈ keptNames, change.keeps name = true) ↔ ∀ leaf ∈ leavesOf [] fields, reaches leaf.1 = false := by
  obtain ⟨sound, same⟩ := Option.ite_none_left_eq_some.mp parsed
  obtain rfl := Option.some.inj same
  simp only [Bool.or_eq_true, Bool.not_eq_true', not_or, Bool.not_eq_false] at sound
  have separate := sound.2
  constructor
  · intro keeps leaf member
    by_contra reached
    obtain ⟨name, isKept, isHead⟩ := reaches_iff.mp (by simpa using reached)
    have only := ((Rewrite.keeps_iff separate).mp (keeps name isKept)).1 _ (List.mem_map_of_mem member) isHead
    cases (Prod.mk.inj only).2
  · intro closed name isKept
    refine (Rewrite.keeps_iff separate).mpr ⟨fun rule listed isHead => ?_, .inr rfl⟩
    obtain ⟨leaf, member, rfl⟩ := List.mem_map.mp listed
    have reached := reaches_iff.mpr ⟨name, isKept, isHead⟩
    rw [closed leaf member] at reached
    cases reached

theorem of_checkUnset {stage spec : Json} (isUnset : stage.get "$unset" = some spec)
    (accepted : checkUnset stage = .ok ()) : ∀ path ∈ unsetPaths spec, path ∉ keptNames := by
  rw [checkUnset, isUnset] at accepted
  cases spec with
  | string text =>
    intro path member isKept
    obtain rfl := List.mem_singleton.mp member
    rcases List.mem_pair.mp isKept with rfl | rfl <;> cases accepted
  | array values =>
    intro path member isKept
    obtain ⟨value, listed, isText⟩ := List.mem_filterMap.mp member
    have named : (values.any fun value => value.isString "objectId" || value.isString "_id") = true := by
      refine List.any_eq_true.mpr ⟨value, listed, ?_⟩
      cases value with
      | string text =>
        obtain rfl := Option.some.inj isText
        rcases List.mem_pair.mp isKept with rfl | rfl <;> simp [Json.isString]
      | _ => cases isText
    simp only [named, if_true, invalid] at accepted
    cases accepted
  | _ => simp [unsetPaths]

theorem unsetPaths_of_mapM {values : List Json} {paths : List String}
    (read : values.mapM Json.asStr = some paths) : unsetPaths (.array values) = paths := by
  induction values generalizing paths with
  | nil =>
    cases read
    rfl
  | cons value rest ih =>
    simp only [List.mapM_cons, Option.bind_eq_bind, Option.pure_def, Option.bind_eq_some_iff] at read
    obtain ⟨path, isText, others, readRest, same⟩ := read
    obtain rfl := Option.some.inj same
    have rest := ih readRest
    simp only [unsetPaths] at rest ⊢
    rw [List.filterMap_cons_some isText, rest]

theorem removal_of_unsetting {spec : Json} {change : Rewrite} (parsed : unsetting spec = some change) :
    removal (unsetPaths spec) = some change := by
  cases spec with
  | string path => exact parsed
  | array values =>
    obtain ⟨paths, read, removed⟩ := Option.bind_eq_some_iff.mp parsed
    rw [unsetPaths_of_mapM read, removed]
  | _ => cases parsed

theorem ways_out {stage : Json} {parsed : Stage} (isParsed : Stage.parse stage = some parsed)
    (project : checkProject stage = .ok ()) (unset : checkUnset stage = .ok ()) :
    (∀ name ∈ keptNames, parsed.keeps name = true) ↔ loophole stage = false := by
  obtain ⟨name, spec, rfl⟩ : ∃ name spec, stage = .object [(name, spec)] := by
    unfold Stage.parse at isParsed
    split at isParsed
    next name spec => exact ⟨name, spec, rfl⟩
    next => cases isParsed
  have isParsed : Stage.ofNamed name spec = some parsed := isParsed
  have held : (Json.object [(name, spec)]).get name = some spec := by simp [Json.get]
  -- The stages that make up documents, or that are not known, keep neither field.
  have loses (lost : ∀ name, parsed.keeps name = false) (open_ : loophole (.object [(name, spec)]) = true) :
      (∀ name ∈ keptNames, parsed.keeps name = true) ↔ loophole (.object [(name, spec)]) = false := by
    rw [open_]
    refine ⟨fun keeps => ?_, fun impossible => by cases impossible⟩
    rw [← lost "_id"]
    exact (keeps "_id" (by simp [keptNames])).symm
  by_cases isProject : name = "$project"
  · subst isProject
    obtain ⟨change, changed, rfl⟩ := Option.map_eq_some_iff.mp isParsed
    obtain ⟨fields, isObject, changed⟩ := Option.bind_eq_some_iff.mp changed
    have shape : spec = .object fields := by
      cases spec <;> simp_all [Json.asObject]
    subst shape
    simp only [Stage.keeps, loophole, if_true, fieldsOf, Json.asObject, Option.getD_some, List.any_eq_false,
      Bool.or_eq_true, not_or, Bool.not_eq_true]
    exact ⟨of_project_keeps changed, project_keeps held project changed⟩
  by_cases isUnset : name = "$unset"
  · subst isUnset
    obtain ⟨change, unsets, rfl⟩ := Option.map_eq_some_iff.mp isParsed
    have keeps := removal_keeps_iff (removal_of_unsetting unsets) (of_checkUnset held unset)
    simpa [Stage.keeps, loophole] using keeps
  by_cases isSet : name = "$set" ∨ name = "$addFields"
  · have assigned : ∃ change, (spec.asObject.bind assignment) = some change ∧ parsed = .rewrite change := by
      rcases isSet with rfl | rfl <;>
        exact (Option.map_eq_some_iff.mp isParsed).imp fun change both => ⟨both.1, both.2.symm⟩
    obtain ⟨change, assigned, rfl⟩ := assigned
    obtain ⟨fields, isObject, assigned⟩ := Option.bind_eq_some_iff.mp assigned
    have known : (decide (name = "$set") || decide (name = "$addFields")) = true := by simpa using isSet
    simpa [Stage.keeps, loophole, isProject, isUnset, isSet, fieldsOf, isObject] using
      assignment_keeps_iff assigned
  · by_cases passes : name ∈ ["$match", "$sort", "$limit", "$skip"]
    · have keeps : ∀ kept, parsed.keeps kept = true := by
        simp only [List.mem_cons, List.not_mem_nil, or_false] at passes
        rcases passes with rfl | rfl | rfl | rfl <;> rw [← Option.some.inj isParsed] <;> exact fun _ => rfl
      have closed : loophole (.object [(name, spec)]) = false := by
        simp [loophole, isProject, isUnset, isSet, passes]
      exact iff_of_true (fun kept _ => keeps kept) closed
    · refine loses (fun kept => ?_) (by simp [loophole, isProject, isUnset, isSet, passes])
      simp only [List.mem_cons, List.not_mem_nil, or_false, not_or] at passes
      simp only [Stage.ofNamed, isProject, isUnset, passes, if_false, Bool.or_eq_true, decide_eq_true_eq,
        isSet] at isParsed
      split_ifs at isParsed <;>
        first
        | obtain ⟨_, _, rfl⟩ := Option.map_eq_some_iff.mp isParsed
          rfl
        | obtain rfl := Option.some.inj isParsed
          rfl

theorem checks_of_validateStages {pipeline : List Json} {matches_ : Nat}
    (accepted : validateStages pipeline = .ok matches_) :
    ∀ stage ∈ pipeline, checkProject stage = .ok () ∧ checkUnset stage = .ok () := by
  induction pipeline generalizing matches_ with
  | nil => simp
  | cons stage rest ih =>
    simp only [validateStages, bind_eq_ok] at accepted
    obtain ⟨_, _, _, project, _, unset, accepted⟩ := accepted
    have later : ∃ others, validateStages rest = .ok others := by
      split at accepted
      · obtain ⟨_, _, accepted⟩ := bind_eq_ok.mp accepted
        exact (bind_eq_ok.mp accepted).imp fun _ => And.left
      · exact (bind_eq_ok.mp accepted).imp fun _ => And.left
    obtain ⟨_, later⟩ := later
    intro other listed
    rcases List.mem_cons.mp listed with rfl | listed
    · exact ⟨project, unset⟩
    · exact ih later other listed

theorem checks_of_accepted {pipeline : List Json} (accepted : validateFilterPipeline pipeline = .ok ()) :
    ∀ stage ∈ pipeline, checkProject stage = .ok () ∧ checkUnset stage = .ok () := by
  rw [validateFilterPipeline] at accepted
  split at accepted
  · cases (bind_eq_ok.mp accepted).choose_spec.1
  · obtain ⟨_, _, accepted⟩ := bind_eq_ok.mp accepted
    obtain ⟨_, stages, _⟩ := bind_eq_ok.mp accepted
    exact checks_of_validateStages stages

/-! ## Accepted pipelines -/

def KeepsIdentity (pipeline : List Json) : Prop :=
  ∀ (V : Type) [DecidableEq V] (meaning : Meaning V), KeepsFields meaning pipeline keptNames

/-- An accepted pipeline keeps the `_id` and the `objectId` of every document exactly if
    it is malformed, and then yields no document, or has no stage with a loophole. -/
theorem accepted_keeps_iff (pipeline : List Json) (accepted : validateFilterPipeline pipeline = .ok ()) :
    KeepsIdentity pipeline ↔
      (∃ stage ∈ pipeline, Stage.parse stage = none) ∨ ∀ stage ∈ pipeline, loophole stage = false := by
  by_cases malformed : ∃ stage ∈ pipeline, Stage.parse stage = none
  · obtain ⟨stage, listed, unread⟩ := malformed
    refine iff_of_true (fun V _ meaning inputs outputs _ ran => ?_) (.inl ⟨stage, listed, unread⟩)
    rw [runPipeline_of_malformed listed unread] at ran
    cases ran
  · have parses : ∀ stage ∈ pipeline, (Stage.parse stage).isSome = true := by
      intro stage listed
      by_contra unread
      exact malformed ⟨stage, listed, by simpa using unread⟩
    have checks := checks_of_accepted accepted
    rw [KeepsIdentity, keepsFields_iff parses, or_iff_right malformed]
    constructor
    · intro keeps stage listed
      obtain ⟨parsed, isParsed⟩ := Option.isSome_iff_exists.mp (parses stage listed)
      exact (ways_out isParsed (checks stage listed).1 (checks stage listed).2).mp
        (keeps stage listed parsed isParsed)
    · intro closed stage listed parsed isParsed
      exact (ways_out isParsed (checks stage listed).1 (checks stage listed).2).mpr (closed stage listed)

def projecting (dropped : Json) : List Json :=
  [.object [("$match", .object [])],
    .object [("$project", .object [("objectId", .number .one), ("_id", dropped)])]]

/-- An `_id` that is included by `true`. -/
theorem accepted_keeps_included :
    validateFilterPipeline (projecting (.bool true)) = .ok () ∧
      (KeepsIdentity (projecting (.bool true)) ↔
        (∃ stage ∈ projecting (.bool true), Stage.parse stage = none) ∨
          ∀ stage ∈ projecting (.bool true), loophole stage = false) :=
  ⟨by rfl, accepted_keeps_iff (projecting (.bool true)) (by rfl)⟩

/-- `"_id": false` is accepted, and the results have no `_id`. -/
theorem false_drops_id :
    validateFilterPipeline (projecting (.bool false)) = .ok () ∧
      ¬ KeepsIdentity (projecting (.bool false)) := by
  refine ⟨by rfl, fun keeps => ?_⟩
  have ran : runPipeline spoiler (projecting (.bool false))
      [Traced.input [("_id", false), ("objectId", false)]] =
        some [⟨[[("_id", false), ("objectId", false)]], [("objectId", false)]⟩] := by rfl
  obtain ⟨source, sources, same⟩ := keeps Bool spoiler [_] _ (by simp [keptNames]) ran _ List.mem_cons_self
    "_id" (by simp [keptNames])
  obtain rfl := (List.cons.inj sources).1
  cases same

end Boom.Filter
