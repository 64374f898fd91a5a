import Boom.Foundations.Serde
import Boom.Filter.Base
import Boom.Tasks.Queue
import Boom.Utils.Enums

/-! # The parameters of a task

What a client may ask of each task type whose runs are told apart by what they are
run on: the record its JSON is read into, with the defaults, and the check made of
that record before a run is queued. -/

namespace Boom.Tasks

open Boom.Foundations Boom.Foundations.Serde
open Boom.Utils (Survey)

/-! ## What the records share -/

def surveyNames : List (String × Survey) :=
  [("ZTF", .ztf), ("ztf", .ztf), ("LSST", .lsst), ("lsst", .lsst), ("DECAM", .decam),
   ("decam", .decam), ("WINTER", .winter), ("winter", .winter), ("wntr", .winter), ("WNTR", .winter)]

def survey : Reader Survey := unitVariant surveyNames

def surveyText : Survey → String
  | .ztf => "ZTF"
  | .lsst => "LSST"
  | .decam => "DECAM"
  | .winter => "WINTER"

def bounded (name : String) (value max : Nat) : Except String Unit :=
  if value = 0 ∨ max < value then .error (name ++ " must be between 1 and " ++ toString max)
  else .ok ()

def PROTECTED_COLLECTION_NAMES : List String :=
  ["filters", "babamul_users", "users", "stats", "babamul_oauth_states",
   "babamul_pending_identities", "locks", "catalog_state"]

structure CatalogDef where
  id : String
  collection : String
  aliases : List String

def CATALOGS : List CatalogDef :=
  [⟨"2mass", "2MASS_PSC", []⟩, ⟨"ned-lvs", "NED", []⟩, ⟨"allwise", "AllWISE", []⟩,
   ⟨"milliquas", "milliquas_v8", ["milliquas_v6", "milliquas_v7"]⟩, ⟨"desi-dr1", "DESI_DR1", []⟩,
   ⟨"desi-dr1-dwarfs", "DESI_DR1_dwarfs", []⟩, ⟨"catwise2020", "CatWISE2020", []⟩,
   ⟨"gaia-dr3", "Gaia_DR3", []⟩, ⟨"galex", "GALEX", []⟩, ⟨"vsx", "VSX", []⟩,
   ⟨"panstarrs", "PS1_DR2", ["PS1_DR1"]⟩, ⟨"lsdr9", "LSDR9", []⟩, ⟨"lspsc", "LSPSC", []⟩]

def WITHOUT_DEFINITIONS : List String := ["LSDR10", "TNS"]

def findCatalog (id : String) : Option CatalogDef :=
  CATALOGS.find? fun catalog => catalog.id == id

def findByCollection (collection : String) : Option CatalogDef :=
  CATALOGS.find? fun catalog => catalog.collection == collection || catalog.aliases.contains collection

def isKnownWithoutDefinition (collection : String) : Bool :=
  WITHOUT_DEFINITIONS.contains collection

/-! ## `catalog_ingest` -/

structure CatalogIngestParams where
  catalog : String
  dropExisting : Bool
  maxChunks : Option Nat
  numWorkers : Nat
  batchSize : Nat

inductive ParamsError where
  | unknownCatalog (id known : String)
  | zeroChunks
  | workerCount (max : Nat)
  | batchSize (max : Nat)
  | tooMuchInFlight (requested max : Nat)

def ParamsError.text (quoted : String → String) : ParamsError → String
  | .unknownCatalog id known => "unknown catalog " ++ quoted id ++ "; known catalogs are " ++ known
  | .zeroChunks => "max_chunks must be greater than zero"
  | .workerCount max => "num_workers must be between 1 and " ++ toString max
  | .batchSize max => "batch_size must be between 1 and " ++ toString max
  | .tooMuchInFlight requested max =>
    "num_workers x batch_size is " ++ toString requested ++ " records in flight, more than the " ++
      toString max ++ " this worker will hold; lower either one"

namespace CatalogIngestParams

def deserialize (params : Json) : Option CatalogIngestParams := do
  let field ← fields ["catalog", "drop_existing", "max_chunks", "num_workers", "batch_size"] params
  return {
    catalog := ← required string (field "catalog")
    dropExisting := ← withDefault bool false (field "drop_existing")
    maxChunks := ← optional usize (field "max_chunks")
    numWorkers := ← withDefault usize 4 (field "num_workers")
    batchSize := ← withDefault usize 10000 (field "batch_size") }

def MAX_WORKERS : Nat := 16

def MAX_BATCH_SIZE : Nat := 100000

def MAX_RECORDS_IN_FLIGHT : Nat := 400000

def validate (params : CatalogIngestParams) : Except ParamsError CatalogDef :=
  if params.maxChunks = some 0 then .error .zeroChunks
  else if params.numWorkers = 0 ∨ MAX_WORKERS < params.numWorkers then
    .error (.workerCount MAX_WORKERS)
  else if params.batchSize = 0 ∨ MAX_BATCH_SIZE < params.batchSize then
    .error (.batchSize MAX_BATCH_SIZE)
  else
    -- `saturating_mul`
    let inFlight := min (params.numWorkers * params.batchSize) (2 ^ 64 - 1)
    if MAX_RECORDS_IN_FLIGHT < inFlight then
      .error (.tooMuchInFlight inFlight MAX_RECORDS_IN_FLIGHT)
    else
      match findCatalog params.catalog with
      | some catalog => .ok catalog
      | none => .error (.unknownCatalog params.catalog (", ".intercalate (CATALOGS.map CatalogDef.id)))

end CatalogIngestParams

/-! ## `copy_cutouts` -/

structure CopyCutoutsParams where
  srcUri : String
  dstUri : String
  survey : Survey
  batchSize : Nat
  minCandid : Option Int
  parallelism : Nat
  dryRun : Bool

namespace CopyCutoutsParams

def deserialize (params : Json) : Option CopyCutoutsParams := do
  let field ← fields
    ["src_uri", "dst_uri", "survey", "batch_size", "min_candid", "parallelism", "dry_run"] params
  return {
    srcUri := ← required string (field "src_uri")
    dstUri := ← required string (field "dst_uri")
    survey := ← required Tasks.survey (field "survey")
    batchSize := ← withDefault usize 1000 (field "batch_size")
    minCandid := ← optional i64 (field "min_candid")
    parallelism := ← withDefault usize 4 (field "parallelism")
    dryRun := ← withDefault bool false (field "dry_run") }

def isMongoUri (uri : String) : Bool :=
  (stripPrefix uri "mongodb://").isSome || (stripPrefix uri "mongodb+srv://").isSome

def validateUri (name uri : String) : Except String Unit :=
  if isMongoUri uri then .ok () else .error (name ++ " must be a mongodb:// or mongodb+srv:// URI")

def validateParams (params : CopyCutoutsParams) : Except String Unit := do
  validateUri "src_uri" params.srcUri
  validateUri "dst_uri" params.dstUri
  if params.srcUri = params.dstUri then throw "src_uri and dst_uri are the same deployment"
  bounded "batch_size" params.batchSize 100000
  bounded "parallelism" params.parallelism 64

end CopyCutoutsParams

/-! ## `enrich_reprocess` -/

/-- Which alerts to reprocess. -/
inductive Selection where
  | all
  | missingField (field : String)
  | candidRange (first last : Int)

def Selection.deserialize (value : Json) : Option Selection := do
  match ← tagged "kind" value with
  | ("all", rest) =>
    -- what else an object holds is ignored
    let _ ← fields [] rest
    return .all
  | ("missing_field", rest) =>
    let field ← fields ["field"] rest
    return .missingField (← required string (field "field"))
  | ("candid_range", rest) =>
    let field ← fields ["from", "to"] rest
    return .candidRange (← required i64 (field "from")) (← required i64 (field "to"))
  | _ => none

structure EnrichReprocessParams where
  survey : Survey
  selection : Selection
  nWorkers : Option Nat
  inputQueue : Option String

namespace EnrichReprocessParams

def deserialize (params : Json) : Option EnrichReprocessParams := do
  let field ← fields ["survey", "selection", "n_workers", "input_queue"] params
  return {
    survey := ← required Tasks.survey (field "survey")
    selection := ← required Selection.deserialize (field "selection")
    nWorkers := ← optional usize (field "n_workers")
    inputQueue := ← optional string (field "input_queue") }

def validateParams (params : EnrichReprocessParams) : Except String Unit := do
  if ¬ (params.survey = .ztf ∨ params.survey = .lsst) then
    throw ("enrichment reprocessing is not supported for " ++ surveyText params.survey)
  if let some workers := params.nWorkers then
    bounded "n_workers" workers 32
  if let .missingField field := params.selection then
    if Filter.trim field = "" then throw "selection.field is required"
  if let .candidRange first last := params.selection then
    if last < first then throw "selection.from must not exceed selection.to"

end EnrichReprocessParams

/-! ## `prepare_catalog` -/

structure PrepareCatalogParams where
  catalog : String
  raField : String
  decField : String
  batchSize : Nat
  processes : Nat
  force : Bool
  dryRun : Bool

namespace PrepareCatalogParams

def deserialize (params : Json) : Option PrepareCatalogParams := do
  let field ← fields
    ["catalog", "ra_field", "dec_field", "batch_size", "processes", "force", "dry_run"] params
  return {
    catalog := ← required string (field "catalog")
    raField := ← withDefault string "ra" (field "ra_field")
    decField := ← withDefault string "dec" (field "dec_field")
    batchSize := ← withDefault usize 1000 (field "batch_size")
    processes := ← withDefault usize 1 (field "processes")
    force := ← withDefault bool false (field "force")
    dryRun := ← withDefault bool false (field "dry_run") }

def validateParams (params : PrepareCatalogParams) : Except String Unit := do
  if Filter.trim params.catalog = "" then throw "catalog is required"
  if PROTECTED_COLLECTION_NAMES.contains params.catalog then
    throw (params.catalog ++ " is an operational collection, not a catalog")
  bounded "batch_size" params.batchSize 100000
  bounded "processes" params.processes 64

end PrepareCatalogParams

/-! ## `reprocess_crossmatch` -/

inductive Direction where
  | auto
  | objects
  | catalog
deriving DecidableEq

def Direction.deserialize : Reader Direction :=
  unitVariant [("auto", .auto), ("objects", .objects), ("catalog", .catalog)]

structure ReprocessCrossmatchParams where
  survey : Survey
  catalogs : List String
  direction : Direction
  batchSize : Nat
  processes : Nat
  concurrency : Nat
  skipExisting : Bool
  skipEmpty : Bool
  restart : Bool
  remove : Bool

namespace ReprocessCrossmatchParams

def defaultBatchSize : Nat := 5000

def defaultConcurrency : Nat := 8

def deserialize (params : Json) : Option ReprocessCrossmatchParams := do
  let field ← fields
    ["survey", "catalogs", "direction", "batch_size", "processes", "concurrency", "skip_existing",
     "skip_empty", "restart", "remove"] params
  return {
    survey := ← required Tasks.survey (field "survey")
    catalogs := ← required (list string) (field "catalogs")
    direction := ← withDefault Direction.deserialize .auto (field "direction")
    batchSize := ← withDefault usize defaultBatchSize (field "batch_size")
    processes := ← withDefault usize 1 (field "processes")
    concurrency := ← withDefault usize defaultConcurrency (field "concurrency")
    skipExisting := ← withDefault bool false (field "skip_existing")
    skipEmpty := ← withDefault bool false (field "skip_empty")
    restart := ← withDefault bool false (field "restart")
    remove := ← withDefault bool false (field "remove") }

def ignored (params : ReprocessCrossmatchParams) : List String :=
  ([("direction", params.direction != .auto), ("batch_size", params.batchSize != defaultBatchSize),
    ("concurrency", params.concurrency != defaultConcurrency), ("skip_existing", params.skipExisting),
    ("skip_empty", params.skipEmpty), ("restart", params.restart)].filter Prod.snd).map Prod.fst

def validateParams (params : ReprocessCrossmatchParams) : Except String Unit := do
  if params.catalogs = [] then throw "at least one catalog is required"
  bounded "batch_size" params.batchSize 100000
  bounded "processes" params.processes 64
  bounded "concurrency" params.concurrency 64
  if params.remove ∧ params.ignored ≠ [] then
    throw ("remove does not compute matches, so " ++ ", ".intercalate params.ignored ++
      " would have no effect; leave them at their defaults")

end ReprocessCrossmatchParams

/-! ## `export_catalog` -/

structure ExportCatalogParams where
  collection : String
  kept : List String
  shards : Nat
  dryRun : Bool

namespace ExportCatalogParams

def deserialize (params : Json) : Option ExportCatalogParams := do
  let field ← fields ["collection", "fields", "shards", "dry_run"] params
  return {
    collection := ← required string (field "collection")
    kept := ← withDefault (list string) [] (field "fields")
    shards := ← withDefault usize 8 (field "shards")
    dryRun := ← withDefault bool false (field "dry_run") }

def validateParams (params : ExportCatalogParams) : Except String Unit := do
  if Filter.trim params.collection = "" then throw "collection is required"
  bounded "shards" params.shards 64
  if PROTECTED_COLLECTION_NAMES.contains params.collection then
    throw (params.collection ++ " is a protected collection")
  if ¬ ((findByCollection params.collection).isSome ∨ isKnownWithoutDefinition params.collection) then
    throw (params.collection ++ " is not a catalog this release knows about; catalogs are declared in " ++
      "CATALOGS or WITHOUT_DEFINITIONS in src/catalogs/mod.rs")

end ExportCatalogParams

/-! ## `backfill_detection_span` -/

structure BackfillDetectionSpanParams where
  survey : Survey
  days : Number
  batchSize : Nat
  processes : Nat
  dryRun : Bool

namespace BackfillDetectionSpanParams

def daysInRange : Number → Bool
  | .posInt value => 0 < value && value ≤ 10000
  | .negInt _ => false
  | .float value => F64.lt ⟨0⟩ value && value.le ⟨0x40c3880000000000⟩

def deserialize (params : Json) : Option BackfillDetectionSpanParams := do
  let field ← fields ["survey", "days", "batch_size", "processes", "dry_run"] params
  return {
    survey := ← required Tasks.survey (field "survey")
    days := ← withDefault number (.float ⟨0x403f000000000000⟩) (field "days")
    batchSize := ← withDefault usize 2000 (field "batch_size")
    processes := ← withDefault usize 8 (field "processes")
    dryRun := ← withDefault bool false (field "dry_run") }

def validateParams (params : BackfillDetectionSpanParams) : Except String Unit := do
  if ¬ (params.survey = .ztf ∨ params.survey = .lsst) then
    throw (surveyText params.survey ++ " is not supported: this reads psfFlux and magpsf, which " ++
      "WINTER and DECam do not store under those names")
  if ¬ daysInRange params.days then throw "days must be between 0 and 10000"
  bounded "batch_size" params.batchSize 100000
  bounded "processes" params.processes 64

end BackfillDetectionSpanParams

/-! ## `backfill_host_galaxy` -/

structure BackfillHostGalaxyParams where
  survey : Survey
  batchSize : Nat
  processes : Nat
  skipExisting : Bool
  dryRun : Bool

namespace BackfillHostGalaxyParams

def deserialize (params : Json) : Option BackfillHostGalaxyParams := do
  let field ← fields ["survey", "batch_size", "processes", "skip_existing", "dry_run"] params
  return {
    survey := ← required Tasks.survey (field "survey")
    batchSize := ← withDefault usize 5000 (field "batch_size")
    processes := ← withDefault usize 4 (field "processes")
    skipExisting := ← withDefault bool false (field "skip_existing")
    dryRun := ← withDefault bool false (field "dry_run") }

def validateParams (params : BackfillHostGalaxyParams) : Except String Unit := do
  bounded "batch_size" params.batchSize 100000
  bounded "processes" params.processes 64

end BackfillHostGalaxyParams

/-! ## `repair_photometry` -/

structure RepairPhotometryParams where
  survey : Survey
  batchSize : Nat
  processes : Nat
  dryRun : Bool

namespace RepairPhotometryParams

def deserialize (params : Json) : Option RepairPhotometryParams := do
  let field ← fields ["survey", "batch_size", "processes", "dry_run"] params
  return {
    survey := ← required Tasks.survey (field "survey")
    batchSize := ← withDefault usize 5000 (field "batch_size")
    processes := ← withDefault usize 1 (field "processes")
    dryRun := ← withDefault bool false (field "dry_run") }

def validateParams (params : RepairPhotometryParams) : Except String Unit := do
  bounded "batch_size" params.batchSize 100000
  bounded "processes" params.processes 64

end RepairPhotometryParams

/-! ## Validation -/

/-- What the task types leave to code that is not modelled here. -/
structure Validation where
  /-- The deserializer's message about parameters it refuses. -/
  refusal : String → Json → String
  /-- A string in quotes. -/
  quoted : String → String
  /-- The check of a task type of which one run at a time is allowed, whatever its
      parameters. -/
  other : String → Json → Except TaskError Unit

def parsedAs {α : Type} (validation : Validation) (taskType : String) (params : Json)
    (parsed : Option α) (check : α → Except String Unit) : Except TaskError Unit :=
  match parsed with
  | none => .error (.invalidParams (validation.refusal taskType params))
  | some record => (check record).mapError .invalidParams

def unkeyedTypes : List String :=
  ["backfill_track_elements", "migrate_fp_flux", "stream_kowalski_alerts", "sso_baselines",
   "mpcorb_ingest", "migrate_snr", "link_tracks", "backfill_hpx"]

def knownTypes : String := ", ".intercalate (tasks.map TaskSpec.id)

/-- Check parameters against the task type, without running anything. -/
def validateParams (validation : Validation) (taskType : String) (params : Json) :
    Except TaskError Unit :=
  match taskType with
  | "catalog_ingest" => parsedAs validation taskType params (CatalogIngestParams.deserialize params)
    fun record => (record.validate.mapError (ParamsError.text validation.quoted)).map fun _ => ()
  | "copy_cutouts" => parsedAs validation taskType params (CopyCutoutsParams.deserialize params)
    CopyCutoutsParams.validateParams
  | "enrich_reprocess" => parsedAs validation taskType params (EnrichReprocessParams.deserialize params)
    EnrichReprocessParams.validateParams
  | "prepare_catalog" => parsedAs validation taskType params (PrepareCatalogParams.deserialize params)
    PrepareCatalogParams.validateParams
  | "reprocess_crossmatch" => parsedAs validation taskType params
    (ReprocessCrossmatchParams.deserialize params) ReprocessCrossmatchParams.validateParams
  | "export_catalog" => parsedAs validation taskType params (ExportCatalogParams.deserialize params)
    ExportCatalogParams.validateParams
  | "backfill_detection_span" => parsedAs validation taskType params
    (BackfillDetectionSpanParams.deserialize params) BackfillDetectionSpanParams.validateParams
  | "backfill_host_galaxy" => parsedAs validation taskType params
    (BackfillHostGalaxyParams.deserialize params) BackfillHostGalaxyParams.validateParams
  | "repair_photometry" => parsedAs validation taskType params
    (RepairPhotometryParams.deserialize params) RepairPhotometryParams.validateParams
  | other =>
    if unkeyedTypes.contains other then validation.other other params
    else .error (.unknownType other knownTypes)

end Boom.Tasks
