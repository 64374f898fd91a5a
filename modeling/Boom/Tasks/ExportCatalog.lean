import Boom.Foundations.Transition
import Boom.Utils.Shards
import Mathlib.Algebra.GroupWithZero.Nat

/-! # Exporting a catalog

A run clears the directory, cuts the collection into shards, writes one part for each and
ends with the manifest, which is the marker that the parts are complete.  Each call into
the file system is one step, and runs may overlap: a run whose lease was lost goes on
beside its replacement.

Part `i` is the file `part-{i:04}.jsonl.gz`.  A directory entry names a file by its number,
and a run that has a part open writes to that file, whatever the directory says by then. -/

namespace Boom.Tasks.Export

open Boom.Foundations Boom.Utils

def maxShards : Nat := 64

structure ExportCatalogParams where
  fields : List String
  shards : Nat
  dryRun : Bool
  validShards : 0 < shards ∧ shards ≤ maxShards

structure Catalog (V Doc : Type) [LinearOrder V] where
  docs : List Doc
  held : String → Doc → Option V
  comparison : Comparison V
  line : List String → Doc → String

structure Part where
  lines : List String
  /-- Whether its gzip stream has its end. -/
  finished : Bool
  /-- The run that created or truncated it last. -/
  writer : Nat
  /-- Whether another run wrote into it after that. -/
  mixed : Bool

inductive Manifest where
  /-- The write did not get to its end. -/
  | cut
  | complete (fields : List String) (files : List (Nat × Nat)) (rows : Nat)

structure Pass (V : Type) where
  field : String
  shards : List (ShardFilter V)
  files : List (Nat × Nat)

/-- Where a run is. -/
inductive Stage (V Doc : Type) where
  | submitted
  | unlinking
  | listing
  | clearing (names : List Nat)
  | sampling
  | opening (pass : Pass V)
  | writing (pass : Pass V) (writer : Option Nat) (rows : Nat) (cursor : List Doc)
  | ended

structure Run (V Doc : Type) where
  params : ExportCatalogParams
  stage : Stage V Doc

structure Directory (V Doc : Type) where
  manifest : Option Manifest
  parts : Nat → Option Nat
  files : List Part
  runs : List (Run V Doc)

inductive Fault where
  /-- Another run that writes has not ended. -/
  | overlap
  /-- A file is not removed, or not listed; the error is ignored. -/
  | unremoved
  /-- The write of the manifest stops in the middle. -/
  | manifestCut
  /-- The shards are cut on a field whose values are of several types, or of none that compares. -/
  | mixedTypes
deriving DecidableEq

section Model

variable {V Doc : Type}

def Run.writes (run : Run V Doc) : Prop :=
  run.params.dryRun = false ∧ run.stage ≠ .ended

namespace Directory

def setStage (state : Directory V Doc) (index : Nat) (params : ExportCatalogParams)
    (stage : Stage V Doc) : Directory V Doc :=
  { state with runs := state.runs.set index { params, stage } }

def create (state : Directory V Doc) (name writer : Nat) : Directory V Doc × Nat :=
  let empty : Part := { lines := [], finished := false, writer, mixed := false }
  match state.parts name with
  | some file => ({ state with files := state.files.set file empty }, file)
  | none =>
    ({ state with
        parts := Function.update state.parts name (some state.files.length)
        files := state.files ++ [empty] },
      state.files.length)

def write (state : Directory V Doc) (file writer : Nat) (change : Part → Part) : Directory V Doc :=
  { state with
    files := state.files.modify file fun part =>
      { change part with mixed := part.mixed || part.writer != writer } }

def through (state : Directory V Doc) (handle : Option Nat) (writer : Nat) (change : Part → Part) :
    Directory V Doc :=
  match handle with
  | none => state
  | some file => state.write file writer change

def openPart (state : Directory V Doc) (params : ExportCatalogParams) (name writer : Nat) :
    Directory V Doc × Option Nat :=
  if params.dryRun then (state, none)
  else
    let (created, file) := state.create name writer
    (created, some file)

end Directory

def Sampled [LinearOrder V] (catalog : Catalog V Doc) (field : String) (parts : Nat) (bounds : List V) : Prop :=
  bounds.length ≤ min (parts * 20) 10000 ∧
  (∀ bound ∈ bounds, ∃ doc ∈ catalog.docs, catalog.held field doc = some bound) ∧
  bounds.Pairwise fun first second => ∀ kind, catalog.comparison.kind first = some kind →
    catalog.comparison.kind second = some kind → first ≤ second

def OneType [LinearOrder V] (catalog : Catalog V Doc) (field : String) : Prop :=
  ∃ kind, ∀ doc ∈ catalog.docs, ∀ value, catalog.held field doc = some value →
    catalog.comparison.kind value = some kind

def Cursor [LinearOrder V] (catalog : Catalog V Doc) (field : String) (shard : ShardFilter V)
    (cursor : List Doc) : Prop :=
  cursor.Perm (catalog.docs.filter fun doc => shard.matches_ catalog.comparison (catalog.held field doc))

namespace Directory

/-- One step of a run; what `may` rules out does not happen. -/
inductive Step [LinearOrder V] (catalog : Catalog V Doc) (may : Fault → Prop) :
    Directory V Doc → Directory V Doc → Prop where
  | submit {state : Directory V Doc} {params : ExportCatalogParams} :
      (params.dryRun = false → (∃ run ∈ state.runs, run.writes) → may .overlap) →
      Step catalog may state { state with runs := state.runs ++ [{ params, stage := .submitted }] }
  | begin_ {state : Directory V Doc} {index : Nat} {params : ExportCatalogParams} :
      state.runs[index]? = some { params, stage := .submitted } →
      Step catalog may state
        (state.setStage index params (if params.dryRun then .sampling else .unlinking))
  | unlink {state : Directory V Doc} {index : Nat} {params : ExportCatalogParams} :
      state.runs[index]? = some { params, stage := .unlinking } →
      Step catalog may state { state.setStage index params .listing with manifest := none }
  | unlinkFails {state : Directory V Doc} {index : Nat} {params : ExportCatalogParams} :
      state.runs[index]? = some { params, stage := .unlinking } → may .unremoved →
      Step catalog may state (state.setStage index params .listing)
  | list_ {state : Directory V Doc} {index : Nat} {params : ExportCatalogParams} {names : List Nat} :
      state.runs[index]? = some { params, stage := .listing } →
      ((∀ name file, state.parts name = some file → name ∈ names) ∨ may .unremoved) →
      Step catalog may state (state.setStage index params (.clearing names))
  | clear {state : Directory V Doc} {index name : Nat} {params : ExportCatalogParams} {names : List Nat} :
      state.runs[index]? = some { params, stage := .clearing (name :: names) } →
      Step catalog may state { state.setStage index params (.clearing names) with
        parts := Function.update state.parts name none }
  | clearFails {state : Directory V Doc} {index name : Nat} {params : ExportCatalogParams}
      {names : List Nat} : state.runs[index]? = some { params, stage := .clearing (name :: names) } →
      may .unremoved → Step catalog may state (state.setStage index params (.clearing names))
  | cleared {state : Directory V Doc} {index : Nat} {params : ExportCatalogParams} :
      state.runs[index]? = some { params, stage := .clearing [] } →
      Step catalog may state (state.setStage index params .sampling)
  | sample {state : Directory V Doc} {index : Nat} {params : ExportCatalogParams} {field : String}
      {bounds : List V} : state.runs[index]? = some { params, stage := .sampling } →
      field = "created_at" ∨ field = "_id" → Sampled catalog field params.shards bounds →
      (rangeShards params.shards bounds = [.all] ∨ OneType catalog field ∨ may .mixedTypes) →
      Step catalog may state
        (state.setStage index params (.opening ⟨field, rangeShards params.shards bounds, []⟩))
  -- the cursor is opened before the part is created
  | open_ {state : Directory V Doc} {index : Nat} {params : ExportCatalogParams} {pass : Pass V}
      {shard : ShardFilter V} {rest : List (ShardFilter V)} {cursor : List Doc} :
      state.runs[index]? = some { params, stage := .opening pass } → pass.shards = shard :: rest →
      Cursor catalog pass.field shard cursor →
      Step catalog may state
        ((state.openPart params pass.files.length index).1.setStage index params
          (.writing { pass with shards := rest } (state.openPart params pass.files.length index).2 0 cursor))
  | row {state : Directory V Doc} {index rows : Nat} {params : ExportCatalogParams} {pass : Pass V}
      {handle : Option Nat} {doc : Doc} {cursor : List Doc} :
      state.runs[index]? = some { params, stage := .writing pass handle rows (doc :: cursor) } →
      Step catalog may state
        ((state.through handle index fun part =>
            { part with lines := part.lines ++ [catalog.line params.fields doc] }).setStage index params
          (.writing pass handle (rows + 1) cursor))
  | finish {state : Directory V Doc} {index rows : Nat} {params : ExportCatalogParams} {pass : Pass V}
      {handle : Option Nat} : state.runs[index]? = some { params, stage := .writing pass handle rows [] } →
      Step catalog may state
        ((state.through handle index fun part => { part with finished := true }).setStage index params
          (.opening { pass with files := pass.files ++ [(pass.files.length, rows)] }))
  | vouch {state : Directory V Doc} {index : Nat} {params : ExportCatalogParams} {pass : Pass V} :
      state.runs[index]? = some { params, stage := .opening pass } → pass.shards = [] →
      params.dryRun = false →
      Step catalog may state { state.setStage index params .ended with
        manifest := some (.complete params.fields pass.files (pass.files.map Prod.snd).sum) }
  | vouchCut {state : Directory V Doc} {index : Nat} {params : ExportCatalogParams} {pass : Pass V} :
      state.runs[index]? = some { params, stage := .opening pass } → pass.shards = [] →
      params.dryRun = false → may .manifestCut →
      Step catalog may state { state.setStage index params .ended with manifest := some .cut }
  | tally {state : Directory V Doc} {index : Nat} {params : ExportCatalogParams} {pass : Pass V} :
      state.runs[index]? = some { params, stage := .opening pass } → pass.shards = [] →
      params.dryRun = true → Step catalog may state (state.setStage index params .ended)
  -- an empty collection, a failed call, a crash
  | stop {state : Directory V Doc} {index : Nat} {run : Run V Doc} : state.runs[index]? = some run →
      Step catalog may state (state.setStage index run.params .ended)
  -- canceled between two blocks, or a row fails: dropping the encoder ends its stream
  | drop {state : Directory V Doc} {index rows : Nat} {params : ExportCatalogParams} {pass : Pass V}
      {handle : Option Nat} {cursor : List Doc} :
      state.runs[index]? = some { params, stage := .writing pass handle rows cursor } →
      Step catalog may state
        ((state.through handle index fun part => { part with finished := true }).setStage index params .ended)

end Directory

/-- No run was submitted yet. -/
structure Starts (state : Directory V Doc) : Prop where
  manifest : state.manifest = none
  parts : ∀ name, state.parts name = none
  runs : state.runs = []

def Directory.lines (state : Directory V Doc) (name : Nat) : List String :=
  match state.parts name with
  | none => []
  | some file => (state.files[file]?.map (·.lines)).getD []

def Directory.HasPart (state : Directory V Doc) (name rows : Nat) : Prop :=
  ∃ file part, state.parts name = some file ∧ state.files[file]? = some part ∧
    part.finished = true ∧ part.mixed = false ∧ part.lines.length = rows

structure Directory.Holds [LinearOrder V] (catalog : Catalog V Doc) (state : Directory V Doc)
    (fields : List String) (files : List (Nat × Nat)) (rows : Nat) : Prop where
  distinct : (files.map Prod.fst).Nodup
  listed : ∀ name, (state.parts name).isSome ↔ name ∈ files.map Prod.fst
  parts : ∀ entry ∈ files, state.HasPart entry.1 entry.2
  total : rows = (files.map Prod.snd).sum
  documents : (files.flatMap fun entry => state.lines entry.1).Perm (catalog.docs.map (catalog.line fields))

def Vouches [LinearOrder V] (catalog : Catalog V Doc) (state : Directory V Doc) : Prop :=
  ∀ manifest, state.manifest = some manifest → ∃ fields files rows,
    manifest = .complete fields files rows ∧ state.Holds catalog fields files rows

end Model

end Boom.Tasks.Export
