import Boom.Api.Catalogs
import Boom.Filter.Base
import Boom.Foundations.Collection
import Boom.Foundations.Except

/-! # Pipeline queries

A user runs an aggregation pipeline on a catalog.  The request is refused unless the user
may query the catalog and every collection that a scan of the pipeline finds named by a
join, at whatever depth.

`Reads` is what the document store reads: a stage that joins names a collection, and
stages with pipelines of their own read what these do.  The scan finds all of it
(`named_of_reads`), so nothing is read that the user may not query
(`queryable_of_reads`). -/

namespace Boom.Api

open Boom.Foundations
open Boom.Filter (joinedCollections joinedCollectionsItems joinedCollectionsFields joinTargets joinStages trim)
open Boom.Utils (AppConfig)

structure PipelineQuery where
  catalogName : String
  pipeline : Json

inductive QueryError where
  | unauthorized
  | tooManyLargeQueries
  | notFound (message : String)
  | badRequest (message : String)
  /-- A stage with a number no document can hold; the text is the serializer's. -/
  | unserializable
deriving DecidableEq, Repr

def catalogDoesNotExist (catalogName : String) : QueryError :=
  .notFound ("Catalog " ++ catalogName ++ " does not exist")

/-! A stage has to be an object whose numbers a document can hold. -/

mutual

def fitsBson : Json → Bool
  | .number (.posInt value) => value < 2 ^ 63
  | .array items => fitsBsonItems items
  | .object fields => fitsBsonFields fields
  | _ => true

def fitsBsonItems : List Json → Bool
  | [] => true
  | item :: rest => fitsBson item && fitsBsonItems rest

def fitsBsonFields : List (String × Json) → Bool
  | [] => true
  | (_, value) :: rest => fitsBson value && fitsBsonFields rest

end

def deserializeFilter (stage : Json) : Except QueryError Json :=
  match stage with
  | .object _ => if fitsBson stage then .ok stage else .error .unserializable
  | _ => .error (.badRequest "Invalid filter: MongoDB Filter must be a JSON object")

def parsePipeline : Json → Except QueryError (List Json)
  | .array stages => stages.mapM deserializeFilter
  | _ => .error (.badRequest "Invalid filter: Pipeline must be a JSON array")

def writes (stage : Json) : Bool := (stage.get "$out").isSome || (stage.get "$merge").isSome

structure QueryServer where
  slot : Bool
  collections : Option (List String)

def postPipelineQuery (config : AppConfig) (server : QueryServer) (currentUser : Option User) (body : PipelineQuery) :
    Except QueryError (String × List Json) := do
  match currentUser with
  | none => .error .unauthorized
  | some user =>
    if !server.slot then .error .tooManyLargeQueries
    else
      let catalogName := trim body.catalogName
      if !catalogAccessible server.collections catalogName user config then .error (catalogDoesNotExist catalogName)
      else
        let pipeline ← parsePipeline body.pipeline
        if pipeline.any writes then .error (.badRequest "$out and $merge stages are not allowed")
        else
          let joined ← (joinedCollections body.pipeline).mapError fun error => .badRequest ("Invalid pipeline: " ++ error)
          match joined.find? fun name => !isCatalogQueryable name user config with
          | some name => .error (catalogDoesNotExist name)
          | none => .ok (catalogName, pipeline)

/-! ## What a pipeline reads -/

inductive Target where
  | named (collection : String)
  | elsewhere (spec : Json)

def Target.of : Json → Target
  | .string collection => .named collection
  | spec => .elsewhere spec

def sourceFields : List (String × String) :=
  [("$lookup", "from"), ("$graphLookup", "from"), ("$unionWith", "coll")]

def nestingStages : List String := ["$lookup", "$unionWith"]

/-- A pipeline joins this, at whatever depth. -/
inductive Reads : Json → Target → Prop
  | source {stages : List Json} {entries fields : List (String × Json)} {stage field : String} {source : Json} :
      .object entries ∈ stages → (stage, .object fields) ∈ entries → (stage, field) ∈ sourceFields →
      fields.lookup field = some source → Reads (.array stages) (.of source)
  | union {stages : List Json} {entries : List (String × Json)} {collection : String} :
      .object entries ∈ stages → ("$unionWith", .string collection) ∈ entries →
      Reads (.array stages) (.named collection)
  | nested {stages : List Json} {entries fields : List (String × Json)} {stage : String} {pipeline : Json} {target : Target} :
      .object entries ∈ stages → (stage, .object fields) ∈ entries → stage ∈ nestingStages →
      fields.lookup "pipeline" = some pipeline → Reads pipeline target → Reads (.array stages) target
  | facet {stages : List Json} {entries fields : List (String × Json)} {name : String} {pipeline : Json} {target : Target} :
      .object entries ∈ stages → ("$facet", .object fields) ∈ entries → (name, pipeline) ∈ fields →
      Reads pipeline target → Reads (.array stages) target

/-! ## What the scan finds -/

variable {names : List String}

theorem scan_item {items : List Json} (scanned : joinedCollectionsItems items = .ok names)
    {item : Json} (listed : item ∈ items) : ∃ found, joinedCollections item = .ok found ∧ found ⊆ names := by
  induction items generalizing names with
  | nil => cases listed
  | cons first rest ih =>
    rw [joinedCollectionsItems] at scanned
    obtain ⟨here, isHere, scanned⟩ := bind_eq_ok.mp scanned
    obtain ⟨later, isLater, same⟩ := bind_eq_ok.mp scanned
    obtain rfl := Except.ok.inj same
    rcases List.mem_cons.mp listed with rfl | listed
    · exact ⟨here, isHere, List.subset_append_left here later⟩
    · obtain ⟨found, isFound, among⟩ := ih isLater listed
      exact ⟨found, isFound, fun name member => List.mem_append_right here (among member)⟩

variable {fields : List (String × Json)}

theorem scan_field
    (scanned : joinedCollectionsFields fields = .ok names) {key : String} {spec : Json} (listed : (key, spec) ∈ fields) :
    (∃ found, joinedCollections spec = .ok found ∧ found ⊆ names) ∧
      (key ∈ joinStages → ∃ found, joinTargets key spec = .ok found ∧ found ⊆ names) := by
  induction fields generalizing names with
  | nil => cases listed
  | cons first rest ih =>
    obtain ⟨firstKey, firstSpec⟩ := first
    obtain ⟨named, nested, later, isNamed, isNested, isLater, rfl⟩ : ∃ named nested later,
        (firstKey ∈ joinStages → joinTargets firstKey firstSpec = .ok named) ∧ joinedCollections firstSpec = .ok nested ∧
          joinedCollectionsFields rest = .ok later ∧ names = named ++ nested ++ later := by
      rw [joinedCollectionsFields] at scanned
      by_cases joins : joinStages.contains firstKey = true
      · rw [if_pos joins] at scanned
        obtain ⟨named, isNamed, scanned⟩ := bind_eq_ok.mp scanned
        obtain ⟨nested, isNested, scanned⟩ := bind_eq_ok.mp scanned
        obtain ⟨later, isLater, same⟩ := bind_eq_ok.mp scanned
        exact ⟨named, nested, later, fun _ => isNamed, isNested, isLater, (Except.ok.inj same).symm⟩
      · rw [if_neg joins] at scanned
        obtain ⟨nothing, isNothing, scanned⟩ := bind_eq_ok.mp scanned
        obtain ⟨nested, isNested, scanned⟩ := bind_eq_ok.mp scanned
        obtain ⟨later, isLater, same⟩ := bind_eq_ok.mp scanned
        refine ⟨nothing, nested, later, fun joins' => absurd (by simpa using joins') joins, isNested, isLater, ?_⟩
        exact (Except.ok.inj same).symm
    rcases List.mem_cons.mp listed with isFirst | listed
    · obtain ⟨rfl, rfl⟩ := Prod.mk.inj isFirst
      exact ⟨⟨nested, isNested, fun name member => by simp [member]⟩, fun joins =>
        ⟨named, isNamed joins, fun name member => by simp [member]⟩⟩
    · obtain ⟨⟨found, isFound, among⟩, targets⟩ := ih isLater listed
      refine ⟨⟨found, isFound, fun name member => by simp [among member]⟩, fun joins => ?_⟩
      obtain ⟨found, isFound, among⟩ := targets joins
      exact ⟨found, isFound, fun name member => by simp [among member]⟩

theorem scan_array {items : List Json} (scanned : joinedCollections (.array items) = .ok names)
    {item : Json} (listed : item ∈ items) : ∃ found, joinedCollections item = .ok found ∧ found ⊆ names := by
  rw [joinedCollections] at scanned
  exact scan_item scanned listed

theorem scan_object
    (scanned : joinedCollections (.object fields) = .ok names) {key : String} {spec : Json} (listed : (key, spec) ∈ fields) :
    (∃ found, joinedCollections spec = .ok found ∧ found ⊆ names) ∧
      (key ∈ joinStages → ∃ found, joinTargets key spec = .ok found ∧ found ⊆ names) := by
  rw [joinedCollections] at scanned
  exact scan_field scanned listed

theorem named_of_joinTargets {key field : String} {source : Json} {found : List String}
    (targets : joinTargets key (.object fields) = .ok found) (isField : field = "from" ∨ field = "coll")
    (isSource : fields.lookup field = some source) : ∃ name ∈ found, Target.of source = .named name := by
  have listed : source ∈ ([fields.lookup "from", fields.lookup "coll"].filterMap id : List Json) := by
    rw [List.mem_filterMap]
    refine ⟨some source, ?_, rfl⟩
    rcases isField with rfl | rfl <;> simp [isSource]
  obtain ⟨name, member, isName⟩ := exists_of_mapM targets listed
  refine ⟨name, member, ?_⟩
  cases source with
  | string text => rw [show text = name from Except.ok.inj isName]; rfl
  | _ => cases isName

theorem named_of_joinTargets_string {key collection : String} {found : List String}
    (targets : joinTargets key (.string collection) = .ok found) : collection ∈ found := by
  obtain ⟨name, member, isName⟩ := exists_of_mapM targets (List.mem_singleton_self (Json.string collection))
  rwa [show collection = name from Except.ok.inj isName]

theorem of_sourceFields {stage field : String} (isSource : (stage, field) ∈ sourceFields) :
    stage ∈ joinStages ∧ (field = "from" ∨ field = "coll") := by
  simp only [sourceFields, List.mem_cons, Prod.mk.injEq, List.not_mem_nil, or_false] at isSource
  obtain ⟨rfl, rfl⟩ | ⟨rfl, rfl⟩ | ⟨rfl, rfl⟩ := isSource <;> simp [joinStages]

theorem named_of_reads {pipeline : Json} {target : Target} (reads : Reads pipeline target)
    (scanned : joinedCollections pipeline = .ok names) : ∃ name ∈ names, target = .named name := by
  induction reads generalizing names with
  | source isStage isEntry isSource isField =>
    obtain ⟨inStage, stageScan, fromStage⟩ := scan_array scanned isStage
    obtain ⟨joins, field⟩ := of_sourceFields isSource
    obtain ⟨found, targets, fromEntry⟩ := (scan_object stageScan isEntry).2 joins
    obtain ⟨name, member, isName⟩ := named_of_joinTargets targets field isField
    exact ⟨name, fromStage (fromEntry member), isName⟩
  | union isStage isEntry =>
    obtain ⟨inStage, stageScan, fromStage⟩ := scan_array scanned isStage
    obtain ⟨found, targets, fromEntry⟩ := (scan_object stageScan isEntry).2 (by simp [joinStages])
    exact ⟨_, fromStage (fromEntry (named_of_joinTargets_string targets)), rfl⟩
  | nested isStage isEntry _ isPipeline _ ih =>
    obtain ⟨inStage, stageScan, fromStage⟩ := scan_array scanned isStage
    obtain ⟨inSpec, specScan, fromSpec⟩ := (scan_object stageScan isEntry).1
    obtain ⟨inPipeline, pipelineScan, fromPipeline⟩ := (scan_object specScan (Collection.mem_of_lookup isPipeline)).1
    obtain ⟨name, member, isName⟩ := ih pipelineScan
    exact ⟨name, fromStage (fromSpec (fromPipeline member)), isName⟩
  | facet isStage isEntry isPipeline _ ih =>
    obtain ⟨inStage, stageScan, fromStage⟩ := scan_array scanned isStage
    obtain ⟨inSpec, specScan, fromSpec⟩ := (scan_object stageScan isEntry).1
    obtain ⟨inPipeline, pipelineScan, fromPipeline⟩ := (scan_object specScan isPipeline).1
    obtain ⟨name, member, isName⟩ := ih pipelineScan
    exact ⟨name, fromStage (fromSpec (fromPipeline member)), isName⟩

/-! ## What an accepted query reads -/

theorem stages_of_parsePipeline {pipeline : Json} {stages : List Json} (parsed : parsePipeline pipeline = .ok stages) :
    pipeline = .array stages := by
  cases pipeline with
  | array items =>
    have same : items.mapM deserializeFilter = .ok (items.map id) := by
      refine mapM_ok fun stage listed => ?_
      obtain ⟨document, _, isDocument⟩ := exists_of_mapM parsed listed
      cases stage with
      | object fields =>
        simp only [deserializeFilter] at isDocument ⊢
        split at isDocument
        next fits => rw [if_pos fits]; rfl
        next => cases isDocument
      | _ => cases isDocument
    rw [List.map_id] at same
    rw [Except.ok.inj (same.symm.trans parsed)]
  | _ => cases parsed

/-- A query that is accepted reads only collections its user may query: the one it runs
    on, and those it joins, at whatever depth. -/
theorem queryable_of_reads (config : AppConfig) (server : QueryServer) (currentUser : Option User) (body : PipelineQuery)
    (catalog : String) (pipeline : List Json)
    (accepted : postPipelineQuery config server currentUser body = .ok (catalog, pipeline)) :
    ∃ user, currentUser = some user ∧ MayRead user config catalog ∧
      ∀ target, Reads (.array pipeline) target → ∃ collection, target = .named collection ∧ MayRead user config collection := by
  cases currentUser with
  | none => cases accepted
  | some user =>
    refine ⟨user, rfl, ?_⟩
    simp only [postPipelineQuery] at accepted
    split at accepted
    next => cases accepted
    next =>
    split at accepted
    next => cases accepted
    next accessible =>
    obtain ⟨stages, parsed, accepted⟩ := bind_eq_ok.mp accepted
    split at accepted
    next => cases accepted
    next =>
    obtain ⟨joined, scan, accepted⟩ := bind_eq_ok.mp accepted
    split at accepted
    next => cases accepted
    next noneRefused =>
    obtain ⟨rfl, rfl⟩ := Prod.mk.inj (Except.ok.inj accepted)
    have queryable : isCatalogQueryable (trim body.catalogName) user config = true := by
      simp only [catalogAccessible, Bool.not_eq_true', Bool.not_eq_false, Bool.and_eq_true] at accessible
      exact accessible.1
    refine ⟨mayRead_of_queryable queryable, fun target reads => ?_⟩
    have scanned : joinedCollections (.array stages) = .ok joined := by
      rw [← stages_of_parsePipeline parsed]
      cases tried : joinedCollections body.pipeline with
      | error fault => simp [tried, Except.mapError] at scan
      | ok names => simpa [tried, Except.mapError] using scan
    obtain ⟨collection, member, rfl⟩ := named_of_reads reads scanned
    refine ⟨collection, rfl, mayRead_of_queryable ?_⟩
    simpa using List.find?_eq_none.mp noneRefused collection member

def facetQuery : PipelineQuery where
  catalogName := "ZTF_alerts"
  pipeline := .array [.object [("$facet", .object [("objects", .array [.object [("$unionWith", .string "ZTF_alerts_aux")]])])]]

theorem queryable_of_reads_facet :
    ∃ collection, Reads facetQuery.pipeline (.named collection) ∧ MayRead ⟨false, []⟩ ⟨[]⟩ collection := by
  have reads : Reads facetQuery.pipeline (.named "ZTF_alerts_aux") :=
    .facet List.mem_cons_self List.mem_cons_self List.mem_cons_self (.union List.mem_cons_self List.mem_cons_self)
  have accepted : ∃ pipeline, facetQuery.pipeline = .array pipeline ∧
      postPipelineQuery ⟨[]⟩ ⟨true, some ["ZTF_alerts"]⟩ (some ⟨false, []⟩) facetQuery = .ok ("ZTF_alerts", pipeline) :=
    ⟨_, rfl, by rfl⟩
  obtain ⟨pipeline, isPipeline, accepted⟩ := accepted
  obtain ⟨user, isUser, _, all⟩ := queryable_of_reads _ _ _ _ _ _ accepted
  obtain rfl := Option.some.inj isUser
  obtain ⟨collection, isCollection, mayRead⟩ := all _ (isPipeline ▸ reads)
  exact ⟨collection, isCollection ▸ reads, mayRead⟩

end Boom.Api
