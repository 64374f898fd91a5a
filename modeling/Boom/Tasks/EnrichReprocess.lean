import Boom.Enrichment.Base
import Boom.Foundations.Bson

/-! # Reprocessing a selection of alerts

The task pushes the candids of a selection onto a list of its own, starts workers that
pop and enrich them, and waits until the list has been seen empty twice in a row with
no worker gone.  A popped batch is in no list: it is enriched, in the hands of a
worker, or lost with one. -/

namespace Boom.Tasks.Reprocess

open Boom.Foundations
open Boom.Enrichment (lpush rpop mem_lpush mem_rpop)

def pushBatch : Nat := 1000

def maxWorkers : Nat := 32

def getI64 : Bson → Option Int
  | .int64 value => some value
  | _ => none

def integerId : Bson → Option Int
  | .int64 value | .int32 value => some value
  | _ => none

structure Settings where
  nWorkers : Nat
  batchSize : Nat
  commandInterval : Nat

def Settings.workers (settings : Settings) : Nat := max 1 (min settings.nWorkers maxWorkers)

def Settings.batch (settings : Settings) : Nat := max settings.batchSize 1

/-! ## Filling the queue -/

structure Filling where
  batch : List Int
  queue : List Int
  pushed : Nat

def Filling.push (filling : Filling) : Filling :=
  ⟨[], lpush filling.batch filling.queue, filling.pushed + filling.batch.length⟩

def Filling.add (filling : Filling) (id : Bson) : Filling :=
  match getI64 id with
  | none => filling
  | some candid =>
    let next := { filling with batch := filling.batch ++ [candid] }
    if next.batch.length ≥ pushBatch then next.push else next

def populate (queue : List Int) (selected : List Bson) : Filling :=
  let filled := selected.foldl Filling.add ⟨[], queue, 0⟩
  if filled.batch = [] then filled else filled.push

/-! ## Workers -/

inductive Stage where
  | starting
  | looping (countdown : Nat)
  | popping (countdown : Nat)
  | processing (batch : List Int) (countdown : Nat)
  /-- An error or a panic is on its way out of the thread. -/
  | failing (lost : List Int)
  | exited (lost : List Int)
  | terminated

namespace Stage

/-- `is_finished`. -/
def isFinished : Stage → Bool
  | .exited _ | .terminated => true
  | .starting | .looping _ | .popping _ | .processing _ _ | .failing _ => false

def lost : Stage → List Int
  | .failing lost | .exited lost => lost
  | .starting | .looping _ | .popping _ | .processing _ _ | .terminated => []

def held : Stage → List Int
  | .processing batch _ => batch
  | .failing lost | .exited lost => lost
  | .starting | .looping _ | .popping _ | .terminated => []

end Stage

structure Worker where
  stage : Stage
  /-- Whether its command channel holds `TERM`. -/
  term : Bool

/-! ## The run -/

inductive TaskError where
  | canceled
  | failed

inductive Phase where
  | populating
  | sleeping (emptyStreak : Nat)
  /-- No worker was gone; the length is read next. -/
  | polling (emptyStreak : Nat)
  /-- `drain` has returned; the workers are told to stop and joined. -/
  | drained (outcome : Except TaskError Nat)
  | done (result : Except TaskError Nat)

structure Run where
  phase : Phase
  queue : List Int
  queued : Nat
  workers : List Worker
  /-- The batches `process_alerts` has returned `Ok` on. -/
  enriched : List (List Int)

namespace Run

def populated (run : Run) (settings : Settings) (selected : List Bson) : Run :=
  let filled := populate run.queue selected
  if filled.pushed = 0 then { run with phase := .done (.ok 0), queue := [] }
  else { run with
    phase := .sleeping 0
    queue := filled.queue
    queued := filled.pushed
    workers := List.replicate settings.workers ⟨.starting, false⟩ }

def check (run : Run) (emptyStreak : Nat) : Run :=
  if run.workers.any (·.stage.isFinished) then { run with phase := .drained (.error .failed) }
  else { run with phase := .polling emptyStreak }

def length (run : Run) (emptyStreak : Nat) : Run :=
  if run.queue = [] then
    if emptyStreak + 1 ≥ 2 then { run with phase := .drained (.ok run.queued) }
    else { run with phase := .sleeping (emptyStreak + 1) }
  else { run with phase := .sleeping 0 }

def setStage (run : Run) (index : Nat) (worker : Worker) (stage : Stage) : Run :=
  { run with workers := run.workers.set index { worker with stage } }

def enter (settings : Settings) (worker : Worker) (countdown : Nat) : Stage :=
  if countdown = 0 then if worker.term then .terminated else .popping settings.commandInterval
  else .popping countdown

def pop (run : Run) (settings : Settings) (index : Nat) (worker : Worker) (countdown : Nat) : Run :=
  let (candids, left) := rpop settings.batch run.queue
  if candids = [] then run.setStage index worker (.looping 0)
  else { run.setStage index worker (.processing candids (countdown - candids.length)) with queue := left }

/-- One step of the task, of a worker, or of a call that fails. -/
inductive Step (settings : Settings) (selected : List Bson) : Run → Run → Prop where
  | populate {run : Run} : run.phase = .populating → Step settings selected run (run.populated settings selected)
  | populateFails {run : Run} (error : TaskError) : run.phase = .populating →
      Step settings selected run { run with phase := .done (.error error), queue := [] }
  | cancel {run : Run} {emptyStreak : Nat} : run.phase = .sleeping emptyStreak →
      Step settings selected run { run with phase := .drained (.error .canceled) }
  | check {run : Run} {emptyStreak : Nat} : run.phase = .sleeping emptyStreak →
      Step settings selected run (run.check emptyStreak)
  | length {run : Run} {emptyStreak : Nat} : run.phase = .polling emptyStreak →
      Step settings selected run (run.length emptyStreak)
  | lengthFails {run : Run} {emptyStreak : Nat} : run.phase = .polling emptyStreak →
      Step settings selected run { run with phase := .drained (.error .failed) }
  | sendTerm {run : Run} {outcome : Except TaskError Nat} {index : Nat} {worker : Worker} :
      run.phase = .drained outcome → run.workers[index]? = some worker →
      Step settings selected run { run with workers := run.workers.set index { worker with term := true } }
  | join {run : Run} {outcome : Except TaskError Nat} : run.phase = .drained outcome →
      (∀ worker ∈ run.workers, worker.stage.isFinished = true) →
      Step settings selected run { run with phase := .done outcome, queue := [] }
  | start {run : Run} {index : Nat} {worker : Worker} : run.workers[index]? = some worker →
      worker.stage = .starting →
      Step settings selected run (run.setStage index worker (.looping settings.commandInterval))
  | startFails {run : Run} {index : Nat} {worker : Worker} : run.workers[index]? = some worker →
      worker.stage = .starting → Step settings selected run (run.setStage index worker (.failing []))
  | enter {run : Run} {index countdown : Nat} {worker : Worker} : run.workers[index]? = some worker →
      worker.stage = .looping countdown →
      Step settings selected run (run.setStage index worker (Run.enter settings worker countdown))
  | pop {run : Run} {index countdown : Nat} {worker : Worker} : run.workers[index]? = some worker →
      worker.stage = .popping countdown →
      Step settings selected run (run.pop settings index worker countdown)
  -- the list may have given up the batch before the call failed
  | popFails {run : Run} {index countdown : Nat} {worker : Worker} (reached : Bool) :
      run.workers[index]? = some worker → worker.stage = .popping countdown →
      Step settings selected run (if reached then
          { run.setStage index worker (.failing (rpop settings.batch run.queue).1) with
            queue := (rpop settings.batch run.queue).2 }
        else run.setStage index worker (.failing []))
  | process {run : Run} {index countdown : Nat} {batch : List Int} {worker : Worker} :
      run.workers[index]? = some worker → worker.stage = .processing batch countdown →
      Step settings selected run { run.setStage index worker (.looping countdown) with
        enriched := run.enriched ++ [batch] }
  | processFails {run : Run} {index countdown : Nat} {batch : List Int} {worker : Worker} :
      run.workers[index]? = some worker → worker.stage = .processing batch countdown →
      Step settings selected run (run.setStage index worker (.failing batch))
  | exit {run : Run} {index : Nat} {lost : List Int} {worker : Worker} :
      run.workers[index]? = some worker → worker.stage = .failing lost →
      Step settings selected run (run.setStage index worker (.exited lost))

end Run

/-- The task is about to fill its queue. -/
structure Starts (run : Run) : Prop where
  phase : run.phase = .populating
  workers : run.workers = []
  enriched : run.enriched = []

def Complete (selected : List Bson) (run : Run) : Prop :=
  ∀ processed, run.phase = .done (.ok processed) →
    ∀ id ∈ selected, ∀ candid, integerId id = some candid → ∃ batch ∈ run.enriched, candid ∈ batch

def Attended (run : Run) : Prop :=
  ∀ queued, run.phase = .drained (.ok queued) → ∀ worker ∈ run.workers, worker.stage.lost = []

def AttendedStep (settings : Settings) (selected : List Bson) (run after : Run) : Prop :=
  Run.Step settings selected run after ∧ Attended run

end Boom.Tasks.Reprocess
