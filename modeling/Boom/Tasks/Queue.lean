import Boom.Foundations.Program
import Boom.Foundations.Collection

/-! # The task queue

Runs are documents of one collection, and every function of the queue is a few
guarded single-document updates of it, so the programs below are sequences of the
requests they make of the database, in the order the source makes them.

Times are milliseconds, the precision of `now`.  `attempts` is a natural number:
a claim whose document cannot be read back is a call whose answer is lost.  A call
that fails inside `now` stands for a process that stops there. -/

namespace Boom.Tasks

open Boom.Foundations

/-! ## The stored shape of a run -/

inductive TaskStatus where
  | queued
  | running
  | succeeded
  | failed
  | canceled
deriving DecidableEq, Repr

def TaskStatus.isTerminal : TaskStatus → Bool
  | .succeeded | .failed | .canceled => true
  | .queued | .running => false

structure Task where
  taskType : String
  status : TaskStatus
  requestedAt : Nat
  startedAt : Option Nat
  finishedAt : Option Nat
  worker : Option String
  leaseExpiresAt : Option Nat
  cancelRequested : Bool
  error : Option String
  attempts : Nat
deriving DecidableEq, Repr

def Task.fresh (taskType : String) (requestedAt : Nat) : Task where
  taskType := taskType
  status := .queued
  requestedAt := requestedAt
  startedAt := none
  finishedAt := none
  worker := none
  leaseExpiresAt := none
  cancelRequested := false
  error := none
  attempts := 0

/-! ## The task types of this release -/

structure TaskSpec where
  id : String
  idempotent : Bool
deriving DecidableEq, Repr

def tasks : List TaskSpec :=
  [⟨"catalog_ingest", true⟩, ⟨"backfill_track_elements", true⟩, ⟨"stream_kowalski_alerts", true⟩,
   ⟨"copy_cutouts", true⟩, ⟨"sso_baselines", true⟩, ⟨"mpcorb_ingest", true⟩,
   ⟨"enrich_reprocess", true⟩, ⟨"prepare_catalog", true⟩, ⟨"export_catalog", true⟩,
   ⟨"link_tracks", true⟩, ⟨"backfill_detection_span", true⟩, ⟨"backfill_host_galaxy", true⟩,
   ⟨"backfill_hpx", true⟩, ⟨"repair_photometry", true⟩, ⟨"reprocess_crossmatch", true⟩,
   ⟨"migrate_snr", true⟩, ⟨"migrate_fp_flux", true⟩]

def find (id : String) : Option TaskSpec :=
  tasks.find? fun spec => spec.id == id

def isRetryable (taskType : String) : Bool :=
  (find taskType).any TaskSpec.idempotent

def retryableTaskTypes : List String :=
  (tasks.filter TaskSpec.idempotent).map TaskSpec.id

theorem find_any_idempotent_iff {specs : List TaskSpec} (distinct : (specs.map TaskSpec.id).Nodup)
    (id : String) : (specs.find? fun spec => spec.id == id).any TaskSpec.idempotent ↔
      id ∈ (specs.filter TaskSpec.idempotent).map TaskSpec.id := by
  induction specs with
  | nil => simp
  | cons spec rest ih =>
    rw [List.map_cons, List.nodup_cons] at distinct
    by_cases same : spec.id = id
    · subst same
      have absent : spec.id ∉ (rest.filter TaskSpec.idempotent).map TaskSpec.id := fun member =>
        distinct.1 (List.map_subset _ (List.filter_subset_self rest) member)
      cases idempotent : spec.idempotent <;> simp_all
    · have differs : (spec.id == id) = false := by simpa using same
      rw [List.find?_cons_of_neg (by simp [differs]), ih distinct.2]
      cases idempotent : spec.idempotent <;> simp [idempotent, Ne.symm same]

theorem isRetryable_iff_mem (taskType : String) :
    isRetryable taskType ↔ taskType ∈ retryableTaskTypes :=
  find_any_idempotent_iff (by decide) taskType

/-! ## The database -/

structure Queue where
  clock : Nat
  tasks : Collection String Task
  claims : List (String × String)

namespace Queue

def leaseMillis : Nat := 60 * 1000

def updateOne (queue : Queue) (id : String) (filter : Task → Bool) (change : Task → Task) :
    Nat × Queue :=
  (if queue.tasks.matches? id filter then 1 else 0,
    { queue with tasks := queue.tasks.updateOne id filter change })

def findOneAndUpdate (queue : Queue) (id : String) (filter : Task → Bool) (change : Task → Task) :
    Option Task × Queue :=
  (((queue.tasks.get id).filter filter).map change,
    { queue with tasks := queue.tasks.updateOne id filter change })

def updateMany (queue : Queue) (filter : Task → Bool) (change : Task → Task) : Nat × Queue :=
  ((queue.tasks.find fun _ => filter).length,
    { queue with tasks := queue.tasks.updateMany (fun _ => filter) change })

def oldestQueued (queue : Queue) : List (String × Task) :=
  let queued := queue.tasks.find fun _ task => task.status == .queued
  queued.filter fun entry => queued.all fun other => entry.2.requestedAt ≤ other.2.requestedAt

def nextQueued (queue : Queue) (tie : String) : Option (String × Task) :=
  (queue.oldestQueued.find? fun entry => entry.1 == tie).or queue.oldestQueued.head?

end Queue

def Task.heldBy (task : Task) (worker : String) : Bool :=
  task.worker == some worker && task.status == .running

def Task.expired (task : Task) (time : Nat) : Bool :=
  task.status == .running && task.leaseExpiresAt.any (· < time)

def Task.claimed (task : Task) (worker : String) (startedAt leaseUntil : Nat) : Task :=
  { task with
    status := .running, startedAt := some startedAt, worker := some worker
    leaseExpiresAt := some leaseUntil, attempts := task.attempts + 1 }

def Task.renewed (task : Task) (leaseUntil : Nat) : Task :=
  { task with leaseExpiresAt := some leaseUntil }

def Task.finished (task : Task) (status : TaskStatus) (time : Nat) (error : Option String) : Task :=
  { task with status := status, finishedAt := some time, error := error, leaseExpiresAt := none }

def Task.flagged (task : Task) : Task :=
  { task with cancelRequested := true }

def Task.returned (task : Task) : Task :=
  { task with status := .queued, worker := none, leaseExpiresAt := none }

def orphanedError : String :=
  "the worker running this stopped renewing its lease, and this task type is not declared " ++
    "idempotent, so it was not retried automatically. Check what it had already done before " ++
    "running it again."

def Task.orphaned (task : Task) (time : Nat) : Task :=
  { task.finished .failed time (some orphanedError) with worker := none }

/-- The requests the queue makes. -/
inductive TaskOp : Type → Type where
  | now : TaskOp Nat
  | insert (id : String) (task : Task) : TaskOp Bool
  | claimOldest (tie worker : String) (startedAt leaseUntil : Nat) : TaskOp (Option (String × Task))
  | renewLease (id worker : String) (leaseUntil : Nat) : TaskOp (Option Task)
  | finish (id worker : String) (status : TaskStatus) (time : Nat) (error : Option String) : TaskOp Nat
  | cancelQueued (id : String) (time : Nat) : TaskOp Nat
  | flagRunning (id : String) : TaskOp Nat
  | findOne (id : String) : TaskOp (Option Task)
  | requeueExpired (time : Nat) : TaskOp Nat
  | findFailing (time : Nat) : TaskOp (List String)
  | failExpired (time : Nat) (failedAt : Nat) : TaskOp Nat
  | release (id worker : String) : TaskOp Nat
  | extendRetention (id : String) : TaskOp Unit

def TaskOp.exec {β : Type} (op : TaskOp β) (queue : Queue) : β × Queue :=
  match op with
  | .now => (queue.clock, queue)
  | .insert id task =>
    match queue.tasks.insertOne id task with
    | some after => (true, { queue with tasks := after })
    | none => (false, queue)
  | .claimOldest tie worker startedAt leaseUntil =>
    match queue.nextQueued tie with
    | none => (none, queue)
    | some (id, _) =>
      let (claimed, after) := queue.findOneAndUpdate id (fun task => task.status == .queued)
        (·.claimed worker startedAt leaseUntil)
      (claimed.map (id, ·), { after with claims := (id, worker) :: after.claims })
  | .renewLease id worker leaseUntil =>
    queue.findOneAndUpdate id (·.heldBy worker) (·.renewed leaseUntil)
  | .finish id worker status time error =>
    queue.updateOne id (·.heldBy worker) (·.finished status time error)
  | .cancelQueued id time =>
    queue.updateOne id (fun task => task.status == .queued) (·.finished .canceled time none)
  | .flagRunning id => queue.updateOne id (fun task => task.status == .running) (·.flagged)
  | .findOne id => (queue.tasks.get id, queue)
  | .requeueExpired time =>
    queue.updateMany (fun task => task.expired time && retryableTaskTypes.contains task.taskType)
      (·.returned)
  | .findFailing time =>
    ((queue.tasks.find fun _ task =>
      task.expired time && !retryableTaskTypes.contains task.taskType).map Prod.fst, queue)
  | .failExpired time failedAt =>
    queue.updateMany (fun task => task.expired time && !retryableTaskTypes.contains task.taskType)
      (·.orphaned failedAt)
  | .release id worker => queue.updateOne id (·.heldBy worker) (·.returned)
  | .extendRetention _ => ((), queue)

instance : Store TaskOp Queue := ⟨TaskOp.exec⟩

@[simp] theorem exec_eq {β : Type} (op : TaskOp β) (queue : Queue) :
    Store.exec op queue = op.exec queue := rfl

/-! ## The functions of the queue -/

inductive QueueError where
  | mongo
deriving DecidableEq, Repr

abbrev QueueProg : Type → Type 1 := ExceptT QueueError (Prog TaskOp)

def ask {β : Type} (op : TaskOp β) : QueueProg β :=
  Prog.request .mongo op

def submit (id : String) (task : Task) : QueueProg Unit := do
  let inserted ← ask (.insert id task)
  if inserted then pure () else throw .mongo

def claimNext (tie worker : String) : QueueProg (Option (String × Task)) := do
  let startedAt ← ask .now
  let leasedAt ← ask .now
  ask (.claimOldest tie worker startedAt (leasedAt + Queue.leaseMillis))

def heartbeat (id worker : String) : QueueProg (Option Bool) := do
  let time ← ask .now
  let updated ← ask (.renewLease id worker (time + Queue.leaseMillis))
  pure (updated.map (·.cancelRequested))

def extendRetention (id : String) : QueueProg Unit :=
  ExceptT.mk (.call (.extendRetention id) fun _ => .ret (.ok ()))

def finishClaimed (id worker : String) (status : TaskStatus) (error : Option String) :
    QueueProg Bool := do
  let time ← ask .now
  let matched ← ask (.finish id worker status time error)
  if status = .failed ∨ status = .canceled then
    extendRetention id
  pure (matched == 1)

def requestCancel (id : String) : QueueProg (Option TaskStatus) := do
  let time ← ask .now
  let canceled ← ask (.cancelQueued id time)
  if canceled = 1 then return some .canceled
  let flagged ← ask (.flagRunning id)
  if flagged = 1 then return some .running
  let found ← ask (.findOne id)
  return found.map (·.status)

structure ReapReport where
  requeued : Nat
  failed : Nat
deriving DecidableEq, Repr

def extendAll : List String → QueueProg Unit
  | [] => pure ()
  | id :: rest => do
    extendRetention id
    extendAll rest

def requeueExpired : QueueProg ReapReport := do
  let time ← ask .now
  let requeued ← ask (.requeueExpired time)
  let failingAt ← ask .now
  let failedIds ← ask (.findFailing failingAt)
  let failedAt ← ask .now
  let failed ← ask (.failExpired failingAt failedAt)
  if 0 < failed then
    extendAll failedIds
  pure { requeued := requeued, failed := failed }

def release (id worker : String) : QueueProg Unit := do
  let _ ← ask (.release id worker)
  pure ()

/-! ## Why a run fails -/

inductive TaskError where
  | failed (message : String)
  | canceled
  | unknownType (id known : String)
  | invalidParams (message : String)
deriving DecidableEq, Repr

/-! ## Requests -/

inductive Request where
  | submit (id : String) (task : Task)
  | claimNext (tie worker : String)
  | heartbeat (id worker : String)
  | finishClaimed (id worker : String) (status : TaskStatus) (error : Option String)
  | requestCancel (id : String)
  | requeueExpired
  | release (id worker : String)

/-- What a request returned, and for which run. -/
inductive Reply where
  | submitted (id : String) (result : Except QueueError Unit)
  | claimed (result : Except QueueError (Option (String × Task)))
  | heartbeat (id : String) (result : Except QueueError (Option Bool))
  | finished (id : String) (result : Except QueueError Bool)
  | cancelRequested (id : String) (result : Except QueueError (Option TaskStatus))
  | reaped (result : Except QueueError ReapReport)
  | released (id : String) (result : Except QueueError Unit)

def Request.program : Request → Prog TaskOp Reply
  | .submit id task => (Tasks.submit id task).run >>= fun result => .ret (.submitted id result)
  | .claimNext tie worker => (Tasks.claimNext tie worker).run >>= fun result => .ret (.claimed result)
  | .heartbeat id worker => (Tasks.heartbeat id worker).run >>= fun result => .ret (.heartbeat id result)
  | .finishClaimed id worker status error =>
    (Tasks.finishClaimed id worker status error).run >>= fun result => .ret (.finished id result)
  | .requestCancel id => (Tasks.requestCancel id).run >>= fun result => .ret (.cancelRequested id result)
  | .requeueExpired => Tasks.requeueExpired.run >>= fun result => .ret (.reaped result)
  | .release id worker => (Tasks.release id worker).run >>= fun result => .ret (.released id result)

def Request.Allowed (queue : Queue) : Request → Prop
  | .submit _ task => ∃ taskType requestedAt, task = Task.fresh taskType requestedAt
  | .claimNext _ _ | .requestCancel _ | .requeueExpired => True
  | .heartbeat id worker => (id, worker) ∈ queue.claims
  | .finishClaimed id worker status _ => (id, worker) ∈ queue.claims ∧ status.isTerminal
  | .release id worker => (id, worker) ∈ queue.claims ∧
    ∀ task, queue.tasks.get id = some task → isRetryable task.taskType

/-! ## The system -/

def Queue.Init (queue : Queue) : Prop :=
  queue.tasks = Collection.empty ∧ queue.claims = []

def Queue.Tick (before after : Queue) : Prop :=
  ∃ later, before.clock ≤ later ∧ after = { before with clock := later }

def Starts (queue : Queue) (program : Prog TaskOp Reply) : Prop :=
  ∃ request : Request, request.Allowed queue ∧ program = request.program

abbrev Deployment := Pool TaskOp Queue Reply

abbrev TaskStep (permit : Permit TaskOp Queue) : Deployment → Deployment → Prop :=
  Pool.Step permit Starts Queue.Tick

end Boom.Tasks
