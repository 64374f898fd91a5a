import Boom.Foundations.Transition
import Mathlib.Data.List.Basic
import Mathlib.Algebra.Group.Int.Defs

/-! # Copying cutouts between deployments

One reader pages through the source by `_id` and sends batches into a bounded channel;
several writers take them off and insert them into the destination.  A writer whose
batch cannot be written stops, and the others go on.  Whatever ends the reader, the
writers drain the channel, every writer is joined, and the run reports where to resume.

A document is known by its `_id`.  `read` records what the cursor has returned, and
`dropped` the batch that could not be sent; the code keeps neither. -/

namespace Boom.Tasks.Cutouts

open Boom.Foundations

def i64Min : Int := -2 ^ 63

def maxBatchSize : Nat := 100000
def maxParallelism : Nat := 64

structure CopyCutoutsParams where
  batchSize : Nat
  minCandid : Option Int
  parallelism : Nat
  validBatchSize : 0 < batchSize ∧ batchSize ≤ maxBatchSize
  validParallelism : 0 < parallelism ∧ parallelism ≤ maxParallelism

structure Source where
  ids : List Int
  words : ∀ id ∈ ids, i64Min ≤ id

abbrev Batch := List Int × Int

/-! ## Writers -/

inductive InsertMany where
  | inserted
  | errors (writeErrors : List (Int × Nat)) (writeConcernError : Bool)
  | other

def flushBatch : InsertMany → Bool
  | .inserted => true
  | .errors writeErrors writeConcernError => !writeErrors.any (·.2 ≠ 11000) && !writeConcernError
  | .other => false

def Answers (destination : List Int) (batch : List Int) (answer : InsertMany) (landed : List Int) : Prop :=
  (∀ id ∈ landed, id ∈ batch) ∧
  match answer with
  | .inserted => ∀ id ∈ batch, id ∈ landed
  | .errors writeErrors _ =>
    (∀ id ∈ batch, id ∈ landed ∨ ∃ code, (id, code) ∈ writeErrors) ∧
    ∀ id, (id, 11000) ∈ writeErrors → id ∈ destination
  | .other => True

inductive Writer where
  | receiving
  | flushing (item : Batch)
  | finished
  /-- It returned its error, with the batch's start as the resume point. -/
  | failed (item : Batch)
  | panicked (item : Batch)

def Writer.lost : Writer → Option Batch
  | .failed item | .panicked item => some item
  | .receiving | .flushing _ | .finished => none

def Writer.taken : Writer → Option Batch
  | .flushing item | .failed item | .panicked item => some item
  | .receiving | .finished => none

def Writer.ended : Writer → Bool
  | .finished | .failed _ | .panicked _ => true
  | .receiving | .flushing _ => false

def Writer.error : Writer → Option (Option Int)
  | .failed item => some (some item.2)
  | .panicked _ => some none
  | .receiving | .flushing _ | .finished => none

/-! ## The run -/

inductive ReadError where
  | canceled (resume : Int)
  | failed (resume : Option Int)

inductive Reader where
  | reading
  /-- Waiting for room in the channel; `last` is the send after the cursor's end. -/
  | sending (item : Batch) (last : Bool)
  | stopped (error : Option ReadError)

inductive TaskResult where
  | canceled (resume : Int)
  | failed (resume : Option Int)
  | ok (resume : Option Int)
deriving DecidableEq

def TaskResult.resume : TaskResult → Option Int
  | .canceled resume => some resume
  | .failed resume | .ok resume => resume

structure Copy where
  unread : List Int
  read : List Int
  batch : List Int
  batchStart : Int
  maxCandidRead : Int
  reader : Reader
  queue : List Batch
  dropped : Option Batch
  writers : List Writer
  destination : List Int
  outcome : Option TaskResult

namespace Copy

def resume (copy : Copy) : Int :=
  if copy.batch ≠ [] then copy.batchStart else copy.maxCandidRead

def push (copy : Copy) (params : CopyCutoutsParams) (id : Int) : Copy :=
  let batch := copy.batch ++ [id]
  let batchStart := if copy.batch = [] then id else copy.batchStart
  let next := { copy with
    unread := copy.unread.filter (· ≠ id)
    read := copy.read ++ [id]
    maxCandidRead := if id > copy.maxCandidRead then id else copy.maxCandidRead }
  if batch.length ≥ params.batchSize then
    { next with batch := [], batchStart := i64Min, reader := .sending (batch, batchStart) false }
  else { next with batch, batchStart }

def exhausted (copy : Copy) : Copy :=
  if copy.batch = [] then { copy with reader := .stopped none }
  else { copy with batch := [], reader := .sending (copy.batch, copy.batchStart) true }

def stop (copy : Copy) (error : ReadError) : Copy :=
  { copy with reader := .stopped (some error) }

def setWriter (copy : Copy) (index : Nat) (writer : Writer) : Copy :=
  { copy with writers := copy.writers.set index writer }

def result (copy : Copy) (error : Option ReadError) : TaskResult :=
  match error, copy.writers.findSome? Writer.error with
  | some (.canceled resume), _ => .canceled resume
  | _, some resume => .failed resume
  | some (.failed resume), none => .failed resume
  | none, none => .ok (if copy.maxCandidRead > i64Min then some copy.maxCandidRead else none)

/-- One step of the cursor, the reader, a writer, or the end of the run. -/
inductive Step (params : CopyCutoutsParams) : Copy → Copy → Prop where
  | cancel {copy : Copy} : copy.reader = .reading → Step params copy (copy.stop (.canceled copy.resume))
  -- by `_id`, every document that was there at the start and maybe newer ones
  | next {copy : Copy} {id : Int} : copy.reader = .reading → i64Min ≤ id →
      (∀ earlier ∈ copy.read, earlier < id) → (∀ later ∈ copy.unread, id ≤ later) →
      Step params copy (copy.push params id)
  | malformed {copy : Copy} : copy.reader = .reading → Step params copy (copy.stop (.failed none))
  | exhausted {copy : Copy} : copy.reader = .reading → copy.unread = [] → Step params copy copy.exhausted
  | cursorFails {copy : Copy} : copy.reader = .reading →
      Step params copy (copy.stop (.failed (if copy.resume = i64Min then none else some copy.resume)))
  | send {copy : Copy} {item : Batch} {last : Bool} : copy.reader = .sending item last →
      copy.queue.length < params.parallelism * 2 → (∃ writer ∈ copy.writers, writer.ended = false) →
      Step params copy { copy with
        queue := copy.queue ++ [item]
        reader := if last then .stopped none else .reading }
  | refuse {copy : Copy} {item : Batch} {last : Bool} : copy.reader = .sending item last →
      (∀ writer ∈ copy.writers, writer.ended = true) →
      Step params copy { copy with
        dropped := some item
        reader := .stopped (some (.failed (some item.2))) }
  | take {copy : Copy} {index : Nat} {item : Batch} {rest : List Batch} :
      copy.writers[index]? = some .receiving → copy.queue = item :: rest →
      Step params copy { copy.setWriter index (.flushing item) with queue := rest }
  | close {copy : Copy} {index : Nat} {error : Option ReadError} :
      copy.writers[index]? = some .receiving → copy.queue = [] → copy.reader = .stopped error →
      Step params copy (copy.setWriter index .finished)
  | flush {copy : Copy} {index : Nat} {item : Batch} {answer : InsertMany} {landed : List Int} :
      copy.writers[index]? = some (.flushing item) → Answers copy.destination item.1 answer landed →
      Step params copy { copy.setWriter index (if flushBatch answer then .receiving else .failed item) with
        destination := copy.destination ++ landed }
  | panic {copy : Copy} {index : Nat} {item : Batch} {landed : List Int} :
      copy.writers[index]? = some (.flushing item) →
      Step params copy { copy.setWriter index (.panicked item) with
        destination := copy.destination ++ landed }
  | conclude {copy : Copy} {error : Option ReadError} : copy.reader = .stopped error →
      (∀ writer ∈ copy.writers, writer.ended = true) →
      Step params copy { copy with outcome := some (copy.result error) }

end Copy

def matching (params : CopyCutoutsParams) (source : Source) : List Int :=
  source.ids.filter fun id => params.minCandid.all (· ≤ id)

/-- The cursor is open and the writers wait. -/
structure Starts (params : CopyCutoutsParams) (source : Source) (copy : Copy) : Prop where
  unread : copy.unread = matching params source
  read : copy.read = []
  batch : copy.batch = []
  batchStart : copy.batchStart = i64Min
  maxCandidRead : copy.maxCandidRead = i64Min
  reader : copy.reader = .reading
  queue : copy.queue = []
  dropped : copy.dropped = none
  writers : copy.writers = List.replicate params.parallelism .receiving
  outcome : copy.outcome = none

def Safe (params : CopyCutoutsParams) (source : Source) (copy : Copy) : Prop :=
  ∀ result, copy.outcome = some result →
    (∀ resume ∈ result.resume, ∀ id ∈ matching params source, id < resume → id ∈ copy.destination) ∧
    ∀ resume, result = .ok resume → ∀ id ∈ matching params source, id ∈ copy.destination

end Boom.Tasks.Cutouts
