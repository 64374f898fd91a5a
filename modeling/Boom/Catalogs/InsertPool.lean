import Boom.Foundations.Slots
import Boom.Foundations.SortOrder

/-! # A pool of insert workers

Records wait in a bounded channel.  Each worker takes one after the other, renders it as a document, and
inserts the documents it holds when they fill a batch, and the rest when the channel is closed and empty.
A worker may fail at any time, and what it held is then inserted in part. -/

namespace Boom.Catalogs.Ingest

open Boom.Foundations

abbrev Document := List (String × Bson)

inductive IngestError where
  | serialize
  | mongo
  | workerPanic
  /-- After so many records off the sphere. -/
  | offSphere (seen : Nat)
  | read
  /-- After so many lines that do not parse. -/
  | gaveUp (skipped : Nat)
deriving DecidableEq

structure Tally where
  inserted : Nat
  skipped : Nat

/-! ## Rendering -/

inductive Rendered where
  | ready (doc : Document)
  | offSphere (doc : Document)

structure RecordType (ρ : Type) where
  toDocument : ρ → Option Document
  hasCoordinates : Bool
  coordinates : F64 → F64 → Bson

def onSphere (ra dec : F64) : Bool :=
  (F64.zero.le ra && ra.le ⟨0x4076800000000000⟩) && (F64.le ⟨0xc056800000000000⟩ dec && dec.le ⟨0x4056800000000000⟩)

def toCatalogDocument {ρ : Type} (type : RecordType ρ) (record : ρ) : Option Rendered := do
  let doc ← type.toDocument record
  if type.hasCoordinates then
    match (doc.lookup "ra").bind Bson.asF64, (doc.lookup "dec").bind Bson.asF64 with
    | some ra, some dec =>
      if onSphere ra dec then some (.ready (insertField "coordinates" (type.coordinates ra dec) doc))
      else some (.offSphere doc)
    | _, _ => some (.ready doc)
  else some (.ready doc)

/-! ## Inserting -/

def Present (collection : List Document) (doc : Document) : Prop :=
  ∃ stored ∈ collection, (stored.lookup "_id").map Bson.sortKey = (doc.lookup "_id").map Bson.sortKey

instance (collection : List Document) (doc : Document) : Decidable (Present collection doc) :=
  inferInstanceAs (Decidable (∃ stored ∈ collection, _))

def insertOne (collection : List Document) (doc : Document) : List Document :=
  if Present collection doc then collection else collection ++ [doc]

def writeBatch (collection batch : List Document) : List Document × Nat :=
  let after := batch.foldl insertOne collection
  (after, after.length - collection.length)

/-! ## Workers -/

inductive Worker where
  | taking (batch : List Document) (tally : Tally)
  | writing (batch : List Document) (last : Bool) (tally : Tally)
  | done (tally : Tally)
  | failed (error : IngestError)

namespace Worker

def ended : Worker → Bool
  | .done _ => true
  | .failed _ => true
  | _ => false

def hasFailed : Worker → Bool
  | .failed _ => true
  | _ => false

def held : Worker → List Document
  | .taking batch _ => batch
  | .writing batch _ _ => batch
  | _ => []

def skipped : Worker → Nat
  | .taking _ tally => tally.skipped
  | .writing _ _ tally => tally.skipped
  | .done tally => tally.skipped
  | .failed _ => 0

end Worker

def MAX_OFF_SPHERE : Nat := 100

/-- The sizes of a pool, none of which is zero. -/
structure Inserter where
  numWorkers : Nat
  batchSize : Nat
  channelCapacity : Nat
  someWorker : 0 < numWorkers
  someBatch : 0 < batchSize
  someRoom : 0 < channelCapacity

def Inserter.new (numWorkers batchSize channelCapacity : Nat) : Inserter where
  numWorkers := max numWorkers 1
  batchSize := max batchSize 1
  channelCapacity := max channelCapacity 1
  someWorker := lt_max_of_lt_right Nat.one_pos
  someBatch := lt_max_of_lt_right Nat.one_pos
  someRoom := lt_max_of_lt_right Nat.one_pos

structure Pool (ρ : Type) where
  queue : List ρ
  closed : Bool
  workers : List Worker
  offSphere : Nat
  collection : List Document

namespace Pool

variable {ρ : Type} (type : RecordType ρ) (inserter : Inserter)

def start (collection : List Document) : Pool ρ where
  queue := []
  closed := false
  workers := List.replicate inserter.numWorkers (.taking [] ⟨0, 0⟩)
  offSphere := 0
  collection := collection

def received (offSphere : Nat) (record : ρ) (batch : List Document) (tally : Tally) : Worker × Nat :=
  match toCatalogDocument type record with
  | none => (.failed .serialize, offSphere)
  | some (.ready doc) =>
    (if inserter.batchSize ≤ (batch ++ [doc]).length then .writing (batch ++ [doc]) false tally else .taking (batch ++ [doc]) tally,
      offSphere)
  | some (.offSphere _) =>
    (if MAX_OFF_SPHERE < offSphere + 1 then .failed (.offSphere (offSphere + 1))
      else .taking batch { tally with skipped := tally.skipped + 1 }, offSphere + 1)

def written (new : Nat) (last : Bool) (tally : Tally) : Worker :=
  if last then .done { tally with inserted := tally.inserted + new }
  else .taking [] { tally with inserted := tally.inserted + new }

def exhausted (batch : List Document) (tally : Tally) : Worker :=
  if batch = [] then .done tally else .writing batch true tally

/-- One worker takes a step. -/
inductive Works : Pool ρ → Pool ρ → Prop where
  | receives {pool : Pool ρ} {record : ρ} {rest : List ρ} {slot : Nat} {batch : List Document} {tally : Tally} :
      pool.queue = record :: rest → pool.workers[slot]? = some (.taking batch tally) →
      Works pool { pool with
        queue := rest
        workers := pool.workers.set slot (received type inserter pool.offSphere record batch tally).1
        offSphere := (received type inserter pool.offSphere record batch tally).2 }
  | closes {pool : Pool ρ} {slot : Nat} {batch : List Document} {tally : Tally} :
      pool.queue = [] → pool.closed = true → pool.workers[slot]? = some (.taking batch tally) →
      Works pool { pool with workers := pool.workers.set slot (exhausted batch tally) }
  | writes {pool : Pool ρ} {slot : Nat} {batch : List Document} {last : Bool} {tally : Tally} :
      pool.workers[slot]? = some (.writing batch last tally) →
      Works pool { pool with
        workers := pool.workers.set slot (written (writeBatch pool.collection batch).2 last tally)
        collection := (writeBatch pool.collection batch).1 }

inductive Fails : Pool ρ → Pool ρ → Prop where
  | fails {pool : Pool ρ} {slot : Nat} {worker : Worker} {part : List Document} (error : IngestError) :
      pool.workers[slot]? = some worker → worker.ended = false → part ⊆ worker.held →
      Fails pool { pool with
        workers := pool.workers.set slot (.failed error)
        collection := (writeBatch pool.collection part).1 }

def allEnded (pool : Pool ρ) : Bool := pool.workers.all Worker.ended

end Pool

def finish (workers : List Worker) : Except IngestError Tally :=
  match workers.findSome? fun
    | .failed error => some error
    | _ => none with
  | some error => .error error
  | none => .ok {
      inserted := (workers.map fun
        | .done tally => tally.inserted
        | _ => 0).sum
      skipped := (workers.map Worker.skipped).sum }

/-! ## What is inserted stays -/

theorem present_append {collection : List Document} {doc : Document} (present : Present collection doc) (more : List Document) :
    Present (collection ++ more) doc := by
  obtain ⟨stored, there, same⟩ := present
  exact ⟨stored, List.mem_append_left _ there, same⟩

theorem present_insertOne (collection : List Document) (doc : Document) : Present (insertOne collection doc) doc := by
  unfold insertOne
  split
  next present => exact present
  next => exact ⟨doc, List.mem_append_right _ List.mem_cons_self, rfl⟩

theorem present_insertOne_of_present {collection : List Document} {doc : Document} (present : Present collection doc)
    (other : Document) : Present (insertOne collection other) doc := by
  unfold insertOne
  split
  next => exact present
  next => exact present_append present _

theorem present_writeBatch_of_present {collection : List Document} {doc : Document} (present : Present collection doc)
    (batch : List Document) : Present (writeBatch collection batch).1 doc := by
  unfold writeBatch
  dsimp only
  induction batch generalizing collection with
  | nil => exact present
  | cons first rest ih => exact ih (present_insertOne_of_present present first)

theorem present_writeBatch {doc : Document} {batch : List Document} (there : doc ∈ batch) (collection : List Document) :
    Present (writeBatch collection batch).1 doc := by
  induction batch generalizing collection with
  | nil => cases there
  | cons first rest ih =>
    rcases List.mem_cons.mp there with rfl | later
    · exact present_writeBatch_of_present (present_insertOne collection doc) rest
    · exact ih later (insertOne collection first)

end Boom.Catalogs.Ingest
