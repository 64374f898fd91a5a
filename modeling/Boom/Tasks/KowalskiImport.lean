import Boom.Enrichment.Base

/-! # Importing alerts from Kowalski

A run streams the source through a bounded channel to several workers.  A worker takes a
batch, keeps the alerts of objects that are known, inserts them, and for the candids that
its insert was the first to add it stores the cutouts and pushes them onto the enrichment
queue.  A run may be canceled, fail or die, and another one starts from the beginning.

An alert is known by its candid.  `owed` is what a worker has inserted and not yet pushed. -/

namespace Boom.Tasks.Kowalski

open Boom.Foundations
open Boom.Enrichment (lpush)

def maxBatchSize : Nat := 100000
def maxWorkers : Nat := 64

structure StreamKowalskiParams where
  enrich : Bool
  batchSize : Nat
  nWorkers : Nat
  validBatchSize : 0 < batchSize ∧ batchSize ≤ maxBatchSize
  validWorkers : 0 < nWorkers ∧ nWorkers ≤ maxWorkers

structure KowalskiZtfAlert where
  candid : Int
  objectId : String
deriving DecidableEq

structure Source where
  alerts : List KowalskiZtfAlert
  hasCutouts : Int → Bool

/-! ## One batch -/

def insertManySkipDups (writeErrors : List (Nat × Nat)) : Option (List Nat) :=
  if writeErrors.all (·.2 = 11000) then some (writeErrors.map Prod.fst) else none

def insertedCandids (candids : List Int) (dups : List Nat) : List Int :=
  (candids.zipIdx.filter fun entry => !dups.contains entry.2).map Prod.fst

def toImport (known : String → Bool) (batch : List KowalskiZtfAlert) : List KowalskiZtfAlert :=
  batch.filter fun alert => known alert.objectId

/-- Where a worker is in its loop. -/
inductive Stage where
  | starting
  | collecting (batch : List KowalskiZtfAlert)
  | querying (batch : List KowalskiZtfAlert)
  /-- The first `done` documents of the insert have been tried. -/
  | inserting (candids : List Int) (done : Nat) (writeErrors : List (Nat × Nat))
  | fetching (inserted : List Int)
  | storing (inserted fetched : List Int)
  | pushing (toEnqueue : List Int)
  | finished
  | failed (lost : List Int)

namespace Stage

def ended : Stage → Bool
  | .finished | .failed _ => true
  | .starting | .collecting _ | .querying _ | .inserting .. | .fetching _ | .storing .. | .pushing _ => false

def isFailed : Stage → Bool
  | .failed _ => true
  | _ => false

def owed : Stage → List Int
  | .inserting candids done writeErrors => insertedCandids (candids.take done) (writeErrors.map Prod.fst)
  | .fetching inserted | .storing inserted _ => inserted
  | .pushing toEnqueue => toEnqueue
  | .failed lost => lost
  | .starting | .collecting _ | .querying _ | .finished => []

def Waits (stage : Stage) (alert : KowalskiZtfAlert) : Prop :=
  match stage with
  | .collecting batch | .querying batch => alert ∈ batch
  | .inserting candids done writeErrors =>
    alert.candid ∈ if (insertManySkipDups writeErrors).isSome then candids.drop done else candids
  | .starting | .fetching _ | .storing .. | .pushing _ | .finished | .failed _ => False

end Stage

/-! ## Runs -/

inductive ReadError where
  | canceled
  | failed

inductive Reader where
  /-- No run is going on. -/
  | idle
  | opening (stream : List KowalskiZtfAlert)
  | reading (unread : List KowalskiZtfAlert)
  | sending (alert : KowalskiZtfAlert) (unread : List KowalskiZtfAlert)
  | stopped (error : Option ReadError)

def Reader.unread : Reader → List KowalskiZtfAlert
  | .opening stream => stream
  | .reading unread => unread
  | .sending alert unread => alert :: unread
  | .idle | .stopped _ => []

inductive Outcome where
  | ok
  | canceled
  | failed
  | crashed
deriving DecidableEq

structure Import where
  alerts : List Int
  cutouts : List Int
  pushed : List Int
  reader : Reader
  channel : List KowalskiZtfAlert
  workers : List Stage
  outcome : Option Outcome

namespace Import

def setStage (state : Import) (index : Nat) (stage : Stage) : Import :=
  { state with workers := state.workers.set index stage }

def submit (state : Import) (params : StreamKowalskiParams) (stream : List KowalskiZtfAlert) : Import :=
  { state with
    reader := .opening stream
    channel := []
    workers := List.replicate params.nWorkers .starting
    outcome := none }

def abandon (state : Import) (outcome : Outcome) : Import :=
  { state with
    reader := .idle
    workers := state.workers.map fun stage => .failed stage.owed
    outcome := some outcome }

def conclude (state : Import) (error : Option ReadError) : Import :=
  { state with
    reader := .idle
    outcome := some <| match error with
      | some .canceled => .canceled
      | some .failed => .failed
      | none => if state.workers.any Stage.isFailed then .failed else .ok }

def afterInsert (candids : List Int) (writeErrors : List (Nat × Nat)) : Stage :=
  match insertManySkipDups writeErrors with
  | none => .failed (insertedCandids candids (writeErrors.map Prod.fst))
  | some dups =>
    if insertedCandids candids dups = [] then .collecting [] else .fetching (insertedCandids candids dups)

def afterStore (params : StreamKowalskiParams) (inserted fetched : List Int) : Stage :=
  let toEnqueue := inserted.filter fetched.contains
  if params.enrich = false ∨ toEnqueue = [] then .collecting [] else .pushing toEnqueue

def insertOne (state : Import) (index : Nat) (candids : List Int) (done : Nat)
    (writeErrors : List (Nat × Nat)) (candid : Int) : Import :=
  if candid ∈ state.alerts then
    state.setStage index (.inserting candids (done + 1) (writeErrors ++ [(done, 11000)]))
  else
    { state.setStage index (.inserting candids (done + 1) writeErrors) with
      alerts := state.alerts ++ [candid] }

/-- One step of the reader, of a worker, or of the process they run in. -/
inductive Step (params : StreamKowalskiParams) (source : Source) (always : String → Bool) :
    Import → Import → Prop where
  | submit {state : Import} {stream : List KowalskiZtfAlert} : state.reader = .idle →
      (∀ alert, alert ∈ stream ↔ alert ∈ source.alerts) →
      Step params source always state (state.submit params stream)
  -- the workers are left with a channel nobody feeds
  | openFails {state : Import} {stream : List KowalskiZtfAlert} : state.reader = .opening stream →
      Step params source always state (state.abandon .failed)
  | opened {state : Import} {stream : List KowalskiZtfAlert} : state.reader = .opening stream →
      Step params source always state { state with reader := .reading stream }
  | cancel {state : Import} {alert : KowalskiZtfAlert} {unread : List KowalskiZtfAlert} :
      state.reader = .reading (alert :: unread) →
      Step params source always state { state with reader := .stopped (some .canceled) }
  | read {state : Import} {alert : KowalskiZtfAlert} {unread : List KowalskiZtfAlert} :
      state.reader = .reading (alert :: unread) →
      Step params source always state { state with reader := .sending alert unread }
  | send {state : Import} {alert : KowalskiZtfAlert} {unread : List KowalskiZtfAlert} :
      state.reader = .sending alert unread →
      state.channel.length < params.nWorkers * params.batchSize * 2 →
      (∃ stage ∈ state.workers, stage.ended = false) →
      Step params source always state { state with
        reader := .reading unread
        channel := state.channel ++ [alert] }
  | refuse {state : Import} {alert : KowalskiZtfAlert} {unread : List KowalskiZtfAlert} :
      state.reader = .sending alert unread → (∀ stage ∈ state.workers, stage.ended = true) →
      Step params source always state { state with reader := .idle, outcome := some .failed }
  | cursorFails {state : Import} {unread : List KowalskiZtfAlert} : state.reader = .reading unread →
      Step params source always state { state with reader := .stopped (some .failed) }
  | exhausted {state : Import} : state.reader = .reading [] →
      Step params source always state { state with reader := .stopped none }
  | conclude {state : Import} {error : Option ReadError} : state.reader = .stopped error →
      (∀ stage ∈ state.workers, stage.ended = true) →
      Step params source always state (state.conclude error)
  | crash {state : Import} : Step params source always state (state.abandon .crashed)
  | start {state : Import} {index : Nat} : state.workers[index]? = some .starting →
      Step params source always state (state.setStage index (.collecting []))
  | collect {state : Import} {index : Nat} {batch rest : List KowalskiZtfAlert} {alert : KowalskiZtfAlert} :
      state.workers[index]? = some (.collecting batch) → state.channel = alert :: rest →
      (batch = [] ∨ batch.length < params.batchSize) →
      Step params source always state
        { state.setStage index (.collecting (batch ++ [alert])) with channel := rest }
  | collected {state : Import} {index : Nat} {batch : List KowalskiZtfAlert} :
      state.workers[index]? = some (.collecting batch) → batch ≠ [] →
      (batch.length ≥ params.batchSize ∨ state.channel = []) →
      Step params source always state (state.setStage index (.querying batch))
  | close {state : Import} {index : Nat} {error : Option ReadError} :
      state.workers[index]? = some (.collecting []) → state.channel = [] →
      state.reader = .stopped error →
      Step params source always state (state.setStage index .finished)
  | query {state : Import} {index : Nat} {batch : List KowalskiZtfAlert} {known : String → Bool} :
      state.workers[index]? = some (.querying batch) →
      (∀ objectId, always objectId = true → known objectId = true) →
      Step params source always state (state.setStage index
        (if toImport known batch = [] then .collecting []
          else .inserting ((toImport known batch).map (·.candid)) 0 []))
  | insertOne {state : Import} {index done : Nat} {candids : List Int} {writeErrors : List (Nat × Nat)}
      {candid : Int} : state.workers[index]? = some (.inserting candids done writeErrors) →
      candids[done]? = some candid →
      Step params source always state (state.insertOne index candids done writeErrors candid)
  -- a document is refused for another reason, and the others are still tried
  | refuseOne {state : Import} {index done code : Nat} {candids : List Int}
      {writeErrors : List (Nat × Nat)} {candid : Int} :
      state.workers[index]? = some (.inserting candids done writeErrors) →
      candids[done]? = some candid → code ≠ 11000 →
      Step params source always state
        (state.setStage index (.inserting candids (done + 1) (writeErrors ++ [(done, code)])))
  | inserted {state : Import} {index : Nat} {candids : List Int} {writeErrors : List (Nat × Nat)} :
      state.workers[index]? = some (.inserting candids candids.length writeErrors) →
      Step params source always state (state.setStage index (afterInsert candids writeErrors))
  | fetch {state : Import} {index : Nat} {inserted : List Int} :
      state.workers[index]? = some (.fetching inserted) →
      Step params source always state
        (state.setStage index (.storing inserted (inserted.filter source.hasCutouts)))
  | store {state : Import} {index : Nat} {inserted fetched : List Int} :
      state.workers[index]? = some (.storing inserted fetched) →
      Step params source always state { state.setStage index (afterStore params inserted fetched) with
        cutouts := state.cutouts ++ fetched }
  | push {state : Import} {index : Nat} {toEnqueue : List Int} :
      state.workers[index]? = some (.pushing toEnqueue) →
      Step params source always state { state.setStage index (.collecting []) with
        pushed := lpush toEnqueue state.pushed }
  -- any call of a worker may fail; some of what it asked for may have been done
  | fail {state : Import} {index : Nat} {stage : Stage} {landed : List Int} :
      state.workers[index]? = some stage → stage.ended = false →
      (∀ candid ∈ landed, ∃ inserted fetched, stage = .storing inserted fetched ∧ candid ∈ fetched) →
      Step params source always state { state.setStage index (.failed stage.owed) with
        cutouts := state.cutouts ++ landed }
  | pushUnanswered {state : Import} {index : Nat} {toEnqueue : List Int} :
      state.workers[index]? = some (.pushing toEnqueue) →
      Step params source always state { state.setStage index (.failed []) with
        pushed := lpush toEnqueue state.pushed }

end Import

/-- No run has been made. -/
structure Starts (initial : List Int) (state : Import) : Prop where
  alerts : state.alerts = initial
  reader : state.reader = .idle
  workers : state.workers = []
  outcome : state.outcome = none

def Imported (source : Source) (always : String → Bool) (initial : List Int) (state : Import) : Prop :=
  state.outcome = some .ok → ∀ alert ∈ source.alerts, always alert.objectId = true →
    alert.candid ∉ initial → source.hasCutouts alert.candid = true →
    alert.candid ∈ state.alerts ∧ alert.candid ∈ state.cutouts ∧ alert.candid ∈ state.pushed

def NoneLost (source : Source) (state : Import) : Prop :=
  ∀ stage ∈ state.workers, ∀ lost, stage = .failed lost → ∀ candid ∈ lost, source.hasCutouts candid = false

def WholeStep (params : StreamKowalskiParams) (source : Source) (always : String → Bool)
    (state after : Import) : Prop :=
  Import.Step params source always state after ∧ NoneLost source state

end Boom.Tasks.Kowalski
