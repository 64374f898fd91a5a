import Boom.Foundations.Requests

/-! # Ingesting a catalog

A run of `add_catalog` goes through the chunks of a catalog, skips those the state
document lists as done, ingests the others, and lists each once its records are in.  With
`drop_existing` it drops the collection first, and then deletes the state document.

Any number of executions share the collection and the document, also several of one run:
each claims the document with a token of its own, and what it writes there is conditional
on the token.  `CatalogWorker.act` is the next operation of an execution.  A token is the
slot of the execution that drew it. -/

namespace Boom.Catalogs

open Boom.Foundations

structure Archive (ρ : Type) where
  chunks : List String
  accepted : String → List ρ

structure CatalogState where
  claim : Nat
  droppedBy : Option String
  chunksDone : List String
  complete : Bool
deriving DecidableEq

structure CatalogStore (ρ : Type) where
  records : List ρ
  state : Option CatalogState
  /-- How often the collection was dropped. -/
  drops : Nat

structure AddCatalogParams where
  dropExisting : Bool
  maxChunks : Option Nat
deriving DecidableEq

structure AddCatalogReport where
  chunksIngested : Nat
  chunksResumed : Nat
  chunksTotal : Nat
  complete : Bool
  canceled : Bool
deriving DecidableEq

inductive CatalogError where
  | nothingToIngest
  | preempted (chunk : String)
  | failed
deriving DecidableEq

inductive CatalogPhase (ρ : Type) where
  /-- About to read who dropped the collection last. -/
  | asking
  | dropping
  | deleting
  /-- About to read which chunks are done. -/
  | listing (dropped : Bool)
  | claiming (dropped : Bool)
  | looping (rest : List String)
  /-- The records still to be inserted; and the drops there had been at the first insert. -/
  | ingesting (chunk : String) (rest : List String) (left : List ρ) (first : Option Nat)
  | recording (chunk : String) (rest : List String) (first : Option Nat)
  | finishing
  | answered (answer : Except CatalogError AddCatalogReport)

structure CatalogWorker (ρ : Type) where
  run : String
  params : AddCatalogParams
  done : List String
  /-- The drops there had been when `done` was read. -/
  readAt : Nat
  ingested : Nat
  resumed : Nat
  canceled : Bool
  /-- The chunks this execution recorded. -/
  recorded : List String
  phase : CatalogPhase ρ

def shouldDrop (requested : Bool) (run : String) (droppedBy : Option String) : Bool :=
  requested && (run == "" || droppedBy != some run)

namespace CatalogState

def claimed (state : Option CatalogState) (token : Nat) (droppedBy : Option String) : CatalogState where
  claim := token
  droppedBy := droppedBy.or (state.bind CatalogState.droppedBy)
  chunksDone := (state.map CatalogState.chunksDone).getD []
  complete := false

/-- `$addToSet`. -/
def record (state : CatalogState) (chunk : String) : CatalogState :=
  { state with chunksDone := if chunk ∈ state.chunksDone then state.chunksDone else state.chunksDone ++ [chunk] }

end CatalogState

def CatalogStore.claimedBy {ρ : Type} (store : CatalogStore ρ) (token : Nat) : Bool :=
  store.state.any fun state => state.claim == token

structure CatalogOutcome (ρ : Type) where
  canceled : Bool
  batch : List ρ

namespace CatalogWorker

variable {ρ : Type} [DecidableEq ρ]

def start (archive : Archive ρ) (run : String) (params : AddCatalogParams) : CatalogWorker ρ where
  run := run
  params := params
  done := []
  readAt := 0
  ingested := 0
  resumed := 0
  canceled := false
  recorded := []
  phase := if archive.chunks.isEmpty then .answered (.error .nothingToIngest) else .asking

def go (worker : CatalogWorker ρ) (phase : CatalogPhase ρ) : CatalogWorker ρ := { worker with phase := phase }

def report (worker : CatalogWorker ρ) (archive : Archive ρ) : AddCatalogReport where
  chunksIngested := worker.ingested
  chunksResumed := worker.resumed
  chunksTotal := archive.chunks.length
  complete := worker.ingested + worker.resumed == archive.chunks.length
  canceled := worker.canceled

def ends (worker : CatalogWorker ρ) (archive : Archive ρ) : CatalogWorker ρ :=
  if (worker.report archive).complete then worker.go .finishing else worker.go (.answered (.ok (worker.report archive)))

def turn (worker : CatalogWorker ρ) (archive : Archive ρ) (canceled : Bool) (rest : List String) : CatalogWorker ρ :=
  match rest with
  | [] => worker.ends archive
  | chunk :: rest =>
    if worker.done.contains chunk then { worker with resumed := worker.resumed + 1, phase := .looping rest }
    else if canceled then ends { worker with canceled := true } archive
    else if worker.params.maxChunks.any fun max => max ≤ worker.ingested then worker.ends archive
    else worker.go (.ingesting chunk rest (archive.accepted chunk) none)

/-- The next operation of an execution. -/
def act (archive : Archive ρ) (outcome : CatalogOutcome ρ) (slot : Nat) (store : CatalogStore ρ) (worker : CatalogWorker ρ) :
    CatalogStore ρ × CatalogWorker ρ :=
  match worker.phase with
  | .asking =>
    if shouldDrop worker.params.dropExisting worker.run (store.state.bind CatalogState.droppedBy) then
      (store, worker.go .dropping)
    else (store, worker.go (.listing false))
  | .dropping => ({ store with records := [], drops := store.drops + 1 }, worker.go .deleting)
  | .deleting => ({ store with state := none }, worker.go (.listing true))
  | .listing dropped =>
    (store, { worker with
      done := (store.state.map CatalogState.chunksDone).getD []
      readAt := store.drops
      phase := .claiming dropped })
  | .claiming dropped =>
    -- attributed only when this attempt did the dropping
    let droppedBy := if dropped && worker.run != "" then some worker.run else none
    ({ store with state := some (.claimed store.state slot droppedBy) }, worker.go (.looping archive.chunks))
  | .looping rest => (store, worker.turn archive outcome.canceled rest)
  | .ingesting chunk rest left first =>
    if left.isEmpty then (store, { worker with ingested := worker.ingested + 1, phase := .recording chunk rest first })
    else
      let batch := outcome.batch.filter fun record => (archive.accepted chunk).contains record
      ({ store with records := store.records ++ batch },
        worker.go (.ingesting chunk rest (left.filter fun record => !batch.contains record) (some (first.getD store.drops))))
  | .recording chunk rest _ =>
    if store.claimedBy slot then
      ({ store with state := store.state.map fun state => state.record chunk },
        { worker with recorded := worker.recorded ++ [chunk], phase := .looping rest })
    else (store, worker.go (.answered (.error (.preempted chunk))))
  | .finishing =>
    if store.claimedBy slot then
      ({ store with state := store.state.map fun state => { state with complete := true } },
        worker.go (.answered (.ok (worker.report archive))))
    else (store, worker.go (.answered (.error (.preempted "the final state write"))))
  | .answered _ => (store, worker)

end CatalogWorker

inductive CatalogActs {ρ : Type} [DecidableEq ρ] (archive : Archive ρ) (slot : Nat) (store : CatalogStore ρ)
    (worker : CatalogWorker ρ) : CatalogStore ρ → CatalogWorker ρ → Prop where
  | proceed (outcome : CatalogOutcome ρ) : CatalogActs archive slot store worker
      (worker.act archive outcome slot store).1 (worker.act archive outcome slot store).2
  | fail : CatalogActs archive slot store worker store (worker.go (.answered (.error .failed)))

def catalogRules {ρ : Type} [DecidableEq ρ] (archive : Archive ρ) : Requests.Rules (CatalogStore ρ) (CatalogWorker ρ) where
  starts _ _ worker := ∃ run params, worker = .start archive run params
  acts := CatalogActs archive
  outside _ _ := False

def CatalogStore.Initial {ρ : Type} (store : CatalogStore ρ) : Prop :=
  store.records = [] ∧ store.state = none ∧ store.drops = 0

end Boom.Catalogs
