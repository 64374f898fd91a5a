import Boom.Tasks.Queue

/-! # The lease invariant of the task queue

Each request changes a run in one way, under one guard (`TaskOp.Changes`), and
every fact below is read off that table. -/

namespace Boom.Tasks

open Boom.Foundations

/-! ## What one request can do -/

def TaskOp.Changes {β : Type} (op : TaskOp β) (id : String) (task after : Task) : Prop :=
  match op with
  | .claimOldest _ worker startedAt leaseUntil =>
    task.status = .queued ∧ after = task.claimed worker startedAt leaseUntil
  | .renewLease target worker leaseUntil =>
    id = target ∧ task.heldBy worker ∧ after = task.renewed leaseUntil
  | .finish target worker status time error =>
    id = target ∧ task.heldBy worker ∧ after = task.finished status time error
  | .cancelQueued target time =>
    id = target ∧ task.status = .queued ∧ after = task.finished .canceled time none
  | .flagRunning target => id = target ∧ task.status = .running ∧ after = task.flagged
  | .requeueExpired time => task.expired time ∧ isRetryable task.taskType ∧ after = task.returned
  | .failExpired time failedAt =>
    task.expired time ∧ ¬ isRetryable task.taskType ∧ after = task.orphaned failedAt
  | .release target worker => id = target ∧ task.heldBy worker ∧ after = task.returned
  | .now | .insert _ _ | .findOne _ | .findFailing _ | .extendRetention _ => False

def TaskOp.claimer? {β : Type} : TaskOp β → Option String
  | .claimOldest _ worker _ _ => some worker
  | _ => none

def TaskOp.Inserts {β : Type} (op : TaskOp β) (id : String) (task : Task) : Prop :=
  match op with
  | .insert target inserted => target = id ∧ inserted = task
  | _ => False

def Queue.claimCount (queue : Queue) (id : String) : Nat :=
  queue.claims.countP fun claim => claim.1 == id

variable {queue : Queue} {task : Task}

theorem Queue.nextQueued_spec {tie id : String} (next : queue.nextQueued tie = some (id, task)) :
    queue.tasks.get id = some task ∧ task.status = .queued := by
  have member : (id, task) ∈ queue.oldestQueued := by
    unfold Queue.nextQueued at next
    rcases Option.or_eq_some_iff.mp next with found | ⟨_, first⟩
    · exact List.mem_of_find?_eq_some found
    · exact List.mem_of_head? first
  have queued := (List.mem_filter.mp member).1
  simpa using Collection.mem_find.mp queued

theorem Queue.get_updateOne_cases {target id : String}
    (stored : queue.tasks.get id = some task) (filter : Task → Bool) (change : Task → Task) :
    (queue.tasks.updateOne target filter change).get id = some task ∨
      (id = target ∧ filter task ∧
        (queue.tasks.updateOne target filter change).get id = some (change task)) := by
  by_cases same : id = target
  · subst same
    cases matched : filter task with
    | false => exact .inl (by simp [stored, matched])
    | true => exact .inr ⟨rfl, rfl, by simp [stored, matched]⟩
  · exact .inl (by rw [Collection.get_updateOne_ne _ same, stored])

variable {id : String}

theorem Queue.get_updateMany_cases
    (stored : queue.tasks.get id = some task) (filter : Task → Bool) (change : Task → Task) :
    (queue.tasks.updateMany (fun _ => filter) change).get id = some task ∨
      (filter task ∧ (queue.tasks.updateMany (fun _ => filter) change).get id = some (change task)) := by
  cases matched : filter task with
  | false => exact .inl (by simp [stored, matched])
  | true => exact .inr ⟨rfl, by simp [stored, matched]⟩

variable {β : Type}

theorem exec_stored (op : TaskOp β) (stored : queue.tasks.get id = some task) :
    ((op.exec queue).2.tasks.get id = some task ∧
      (op.exec queue).2.claimCount id = queue.claimCount id) ∨
    ∃ after, (op.exec queue).2.tasks.get id = some after ∧ op.Changes id task after ∧
      (op.exec queue).2.claimCount id = queue.claimCount id + (op.claimer?.elim 0 fun _ => 1) ∧
      ∀ worker ∈ op.claimer?, (id, worker) ∈ (op.exec queue).2.claims := by
  cases op with
  | now => exact .inl ⟨stored, rfl⟩
  | findOne target => exact .inl ⟨stored, rfl⟩
  | findFailing time => exact .inl ⟨stored, rfl⟩
  | extendRetention target => exact .inl ⟨stored, rfl⟩
  | insert target inserted =>
    left
    simp only [TaskOp.exec]
    split
    next after fresh =>
      -- What is stored is not inserted again.
      have distinct : id ≠ target := by
        rintro rfl
        rw [Collection.absent_of_insertOne fresh] at stored
        cases stored
      exact ⟨by simpa [distinct, stored] using Collection.get_insertOne fresh id, rfl⟩
    next => exact ⟨stored, rfl⟩
  | claimOldest tie worker startedAt leaseUntil =>
    simp only [TaskOp.exec]
    split
    next => exact .inl ⟨stored, rfl⟩
    next chosen held next =>
      obtain ⟨present, queued⟩ := Queue.nextQueued_spec next
      -- The claimed task is the oldest that is queued, this one or another.
      by_cases same : id = chosen
      · subst same
        obtain rfl : task = held := Option.some.inj (stored.symm.trans present)
        refine .inr ⟨task.claimed worker startedAt leaseUntil, ?_, ⟨queued, rfl⟩, ?_, ?_⟩
        · simp [Queue.findOneAndUpdate, stored, queued]
        · simp [Queue.findOneAndUpdate, Queue.claimCount, TaskOp.claimer?]
        · simp [Queue.findOneAndUpdate, TaskOp.claimer?]
      · refine .inl ⟨?_, ?_⟩
        · simpa [Queue.findOneAndUpdate, stored] using
            Collection.get_updateOne_ne queue.tasks same _ _
        · simp [Queue.findOneAndUpdate, Queue.claimCount, Ne.symm same]
  | renewLease target worker leaseUntil =>
    -- A guarded update leaves the task as it is, or finds its guard to hold.
    rcases Queue.get_updateOne_cases stored (·.heldBy worker) (·.renewed leaseUntil) with
      same | ⟨matched, guarded, changed⟩
    · exact .inl ⟨same, rfl⟩
    · exact .inr ⟨_, changed, ⟨matched, guarded, rfl⟩, rfl, by simp [TaskOp.claimer?]⟩
  | finish target worker status time error =>
    rcases Queue.get_updateOne_cases stored (·.heldBy worker) (·.finished status time error) with
      same | ⟨matched, guarded, changed⟩
    · exact .inl ⟨same, rfl⟩
    · exact .inr ⟨_, changed, ⟨matched, guarded, rfl⟩, rfl, by simp [TaskOp.claimer?]⟩
  | cancelQueued target time =>
    rcases Queue.get_updateOne_cases stored (fun task => task.status == .queued)
      (·.finished .canceled time none) with same | ⟨matched, guarded, changed⟩
    · exact .inl ⟨same, rfl⟩
    · exact .inr ⟨_, changed, ⟨matched, by simpa using guarded, rfl⟩, rfl, by simp [TaskOp.claimer?]⟩
  | flagRunning target =>
    rcases Queue.get_updateOne_cases stored (fun task => task.status == .running) (·.flagged) with
      same | ⟨matched, guarded, changed⟩
    · exact .inl ⟨same, rfl⟩
    · exact .inr ⟨_, changed, ⟨matched, by simpa using guarded, rfl⟩, rfl, by simp [TaskOp.claimer?]⟩
  | requeueExpired time =>
    rcases Queue.get_updateMany_cases stored
      (fun task => task.expired time && retryableTaskTypes.contains task.taskType) (·.returned) with
      same | ⟨guarded, changed⟩
    · exact .inl ⟨same, rfl⟩
    · simp only [Bool.and_eq_true, List.contains_iff_mem] at guarded
      exact .inr ⟨_, changed, ⟨guarded.1, (isRetryable_iff_mem _).mpr guarded.2, rfl⟩, rfl,
        by simp [TaskOp.claimer?]⟩
  | failExpired time failedAt =>
    rcases Queue.get_updateMany_cases stored
      (fun task => task.expired time && !retryableTaskTypes.contains task.taskType)
      (·.orphaned failedAt) with same | ⟨guarded, changed⟩
    · exact .inl ⟨same, rfl⟩
    · simp only [Bool.and_eq_true, Bool.not_eq_true', List.contains_eq_mem, decide_eq_false_iff_not]
        at guarded
      exact .inr ⟨_, changed, ⟨guarded.1, (isRetryable_iff_mem _).not.mpr guarded.2, rfl⟩, rfl,
        by simp [TaskOp.claimer?]⟩
  | release target worker =>
    rcases Queue.get_updateOne_cases stored (·.heldBy worker) (·.returned) with
      same | ⟨matched, guarded, changed⟩
    · exact .inl ⟨same, rfl⟩
    · exact .inr ⟨_, changed, ⟨matched, guarded, rfl⟩, rfl, by simp [TaskOp.claimer?]⟩

theorem exec_absent (op : TaskOp β) (absent : queue.tasks.get id = none) : (op.exec queue).2.tasks.get id = none ∨
      ∃ task, op.Inserts id task ∧ (op.exec queue).2.tasks.get id = some task := by
  have updated (target : String) (filter : Task → Bool) (change : Task → Task) :
      (queue.tasks.updateOne target filter change).get id = none := by
    rw [Collection.get_updateOne]
    split
    next same => simp [← same, absent]
    next => exact absent
  cases op with
  | now => exact .inl absent
  | findOne target => exact .inl absent
  | findFailing time => exact .inl absent
  | extendRetention target => exact .inl absent
  | insert target task =>
    simp only [TaskOp.exec]
    split
    next after fresh =>
      have view := Collection.get_insertOne fresh id
      by_cases same : id = target
      · exact .inr ⟨task, ⟨same.symm, rfl⟩, by simpa [same] using view⟩
      · exact .inl (by simpa [same, absent] using view)
    next => exact .inl absent
  | claimOldest tie worker startedAt leaseUntil =>
    simp only [TaskOp.exec]
    split
    next => exact .inl absent
    next => exact .inl (updated _ _ _)
  | renewLease target worker leaseUntil => exact .inl (updated _ _ _)
  | finish target worker status time error => exact .inl (updated _ _ _)
  | cancelQueued target time => exact .inl (updated _ _ _)
  | flagRunning target => exact .inl (updated _ _ _)
  | requeueExpired time => exact .inl (by simp [TaskOp.exec, Queue.updateMany, absent])
  | failExpired time failedAt => exact .inl (by simp [TaskOp.exec, Queue.updateMany, absent])
  | release target worker => exact .inl (updated _ _ _)

theorem exec_claims (op : TaskOp β) (queue : Queue) : (op.exec queue).2.clock = queue.clock ∧
      ((op.exec queue).2.claims = queue.claims ∨
        ∃ id worker task, queue.tasks.get id = some task ∧
          (op.exec queue).2.claims = (id, worker) :: queue.claims) := by
  cases op with
  | insert target task =>
    simp only [TaskOp.exec]
    split <;> exact ⟨rfl, .inl rfl⟩
  | claimOldest tie worker startedAt leaseUntil =>
    simp only [TaskOp.exec]
    split
    next => exact ⟨rfl, .inl rfl⟩
    next chosen held next =>
      exact ⟨rfl, .inr ⟨chosen, worker, held, (Queue.nextQueued_spec next).1, rfl⟩⟩
  | _ => exact ⟨rfl, .inl rfl⟩

/-! ## The invariant -/

/-- What is true of a stored run at any time. -/
structure Leased (queue : Queue) (id : String) (task : Task) : Prop where
  running : task.status = .running → ∃ worker lease, task.worker = some worker ∧
    task.leaseExpiresAt = some lease ∧ (id, worker) ∈ queue.claims
  idle : task.status ≠ .running → task.leaseExpiresAt = none
  queued : task.status = .queued → task.worker = none
  counted : task.attempts = queue.claimCount id
  once : ¬ isRetryable task.taskType → task.attempts ≤ 1 ∧ (task.status = .queued → task.attempts = 0)

structure QueueInvariant (queue : Queue) : Prop where
  leased : ∀ {id task}, queue.tasks.get id = some task → Leased queue id task
  claimed : ∀ {id worker}, (id, worker) ∈ queue.claims → (queue.tasks.get id).isSome

structure Task.Kept (before after : Task) : Prop where
  sameType : after.taskType = before.taskType
  outcome : before.status.isTerminal → after.status = before.status
  cancellation : before.cancelRequested → after.cancelRequested

theorem Task.Kept.refl (task : Task) : Task.Kept task task := ⟨rfl, fun _ => rfl, id⟩

theorem Task.Kept.trans {first second third : Task} (earlier : Task.Kept first second)
    (later : Task.Kept second third) : Task.Kept first third where
  sameType := later.sameType.trans earlier.sameType
  outcome terminal := by
    have same := earlier.outcome terminal
    exact (later.outcome (same ▸ terminal)).trans same
  cancellation requested := later.cancellation (earlier.cancellation requested)

/-- Time and the record of claims only grow, and no run is lost. -/
structure Queue.Grows (before after : Queue) : Prop where
  clock : before.clock ≤ after.clock
  claims : before.claims ⊆ after.claims
  kept : ∀ {id task}, before.tasks.get id = some task →
    ∃ later, after.tasks.get id = some later ∧ Task.Kept task later

theorem Queue.Grows.refl (queue : Queue) : Queue.Grows queue queue :=
  ⟨Nat.le_refl _, List.Subset.refl _, fun stored => ⟨_, stored, .refl _⟩⟩

theorem Queue.Grows.trans {first second third : Queue} (earlier : Queue.Grows first second)
    (later : Queue.Grows second third) : Queue.Grows first third where
  clock := Nat.le_trans earlier.clock later.clock
  claims := List.Subset.trans earlier.claims later.claims
  kept stored := by
    obtain ⟨middle, present, early⟩ := earlier.kept stored
    obtain ⟨last, held, late⟩ := later.kept present
    exact ⟨last, held, early.trans late⟩

def TaskOp.Lawful {β : Type} (op : TaskOp β) (queue : Queue) : Prop :=
  match op with
  | .insert _ task => ∃ taskType requestedAt, task = Task.fresh taskType requestedAt
  | .finish _ _ status _ _ => status.isTerminal
  | .release id _ => ∀ task, queue.tasks.get id = some task → isRetryable task.taskType
  | .requeueExpired time | .failExpired time _ => time ≤ queue.clock
  | _ => True

theorem Task.heldBy_iff (task : Task) (worker : String) :
    task.heldBy worker ↔ task.worker = some worker ∧ task.status = .running := by
  simp [Task.heldBy]

theorem Task.expired_iff (task : Task) (time : Nat) :
    task.expired time ↔
      task.status = .running ∧ ∃ lease, task.leaseExpiresAt = some lease ∧ lease < time := by
  cases held : task.leaseExpiresAt <;> simp [Task.expired, held]

variable {op : TaskOp β}

theorem TaskOp.Changes.live {task after : Task}
    (changed : op.Changes id task after) : task.status = .queued ∨ task.status = .running := by
  cases op with
  | claimOldest tie worker startedAt leaseUntil => exact .inl changed.1
  | cancelQueued target time => exact .inl changed.2.1
  | flagRunning target => exact .inr changed.2.1
  | renewLease target worker leaseUntil | finish target worker status time error
  | release target worker => exact .inr ((task.heldBy_iff worker).mp changed.2.1).2
  | requeueExpired time | failExpired time failedAt => exact .inr ((task.expired_iff time).mp changed.1).1
  | _ => exact changed.elim

theorem TaskOp.Changes.kept {task after : Task} (changed : op.Changes id task after) : Task.Kept task after := by
  have notOver : ¬ task.status.isTerminal := by
    rcases changed.live with queued | running
    · simp [queued, TaskStatus.isTerminal]
    · simp [running, TaskStatus.isTerminal]
  have fields : after.taskType = task.taskType ∧ (task.cancelRequested → after.cancelRequested) := by
    cases op with
    | claimOldest tie worker startedAt leaseUntil => rw [changed.2]; exact ⟨rfl, fun requested => requested⟩
    | renewLease target worker leaseUntil | finish target worker status time error
    | cancelQueued target time | requeueExpired time | failExpired time failedAt
    | release target worker => rw [changed.2.2]; exact ⟨rfl, fun requested => requested⟩
    | flagRunning target => rw [changed.2.2]; exact ⟨rfl, fun _ => rfl⟩
    | _ => exact changed.elim
  exact ⟨fields.1, fun terminal => absurd terminal notOver, fields.2⟩

variable {queue later : Queue}

theorem Leased.unchanged (leased : Leased queue id task) (grown : queue.claims ⊆ later.claims)
    (same : later.claimCount id = queue.claimCount id) : Leased later id task where
  running held := by
    obtain ⟨worker, lease, recorded, until_, claimed⟩ := leased.running held
    exact ⟨worker, lease, recorded, until_, grown claimed⟩
  idle := leased.idle
  queued := leased.queued
  counted := leased.counted.trans same.symm
  once := leased.once

/-- One lawful request keeps the run it changes `Leased`. -/
theorem Leased.changed {task after : Task} (leased : Leased queue id task) (stored : queue.tasks.get id = some task)
    (lawful : op.Lawful queue) (grown : queue.claims ⊆ later.claims) (changed : op.Changes id task after)
    (count : later.claimCount id = queue.claimCount id + (op.claimer?.elim 0 fun _ => 1))
    (recorded : ∀ worker ∈ op.claimer?, (id, worker) ∈ later.claims) : Leased later id after := by
  obtain ⟨running, idle, queued, counted, once⟩ := leased
  cases op with
  | claimOldest tie worker startedAt leaseUntil =>
    obtain ⟨waiting, rfl⟩ := changed
    refine ⟨fun _ => ⟨worker, leaseUntil, rfl, rfl, recorded worker rfl⟩, ?_, ?_, ?_, ?_⟩
    · intro other
      exact absurd rfl other
    · intro impossible
      cases impossible
    · simpa [Task.claimed, TaskOp.claimer?, counted] using count.symm
    · intro single
      -- A task that is not retried has not been claimed while it is queued.
      have first := (once single).2 waiting
      exact ⟨by simp [Task.claimed, first], fun impossible => by cases impossible⟩
  | renewLease target worker leaseUntil =>
    obtain ⟨_, held, rfl⟩ := changed
    obtain ⟨holder, lease, owner, _, claimed⟩ := running ((task.heldBy_iff worker).mp held).2
    refine ⟨fun _ => ⟨holder, leaseUntil, owner, rfl, grown claimed⟩, ?_, queued, ?_, once⟩
    · intro other
      exact absurd ((task.heldBy_iff worker).mp held).2 other
    · exact counted.trans count.symm
  | finish target worker status time error =>
    obtain ⟨_, held, rfl⟩ := changed
    -- A task that has ended is neither queued nor running, and has no owner.
    have ended : status.isTerminal := lawful
    refine ⟨?_, fun _ => rfl, ?_, counted.trans count.symm, ?_⟩
    · rintro rfl
      cases ended
    · rintro rfl
      cases ended
    · intro single
      refine ⟨(once single).1, ?_⟩
      rintro rfl
      cases ended
  | cancelQueued target time =>
    obtain ⟨_, waiting, rfl⟩ := changed
    refine ⟨?_, fun _ => rfl, ?_, counted.trans count.symm, ?_⟩
    · intro impossible
      cases impossible
    · intro impossible
      cases impossible
    · intro single
      exact ⟨(once single).1, fun impossible => by cases impossible⟩
  | flagRunning target =>
    obtain ⟨_, held, rfl⟩ := changed
    obtain ⟨holder, lease, owner, until_, claimed⟩ := running held
    exact ⟨fun _ => ⟨holder, lease, owner, until_, grown claimed⟩, fun other => absurd held other,
      queued, counted.trans count.symm, once⟩
  | requeueExpired time =>
    obtain ⟨_, retryable, rfl⟩ := changed
    refine ⟨?_, fun _ => rfl, fun _ => rfl, counted.trans count.symm, ?_⟩
    · intro impossible
      cases impossible
    · intro single
      exact absurd retryable single
  | failExpired time failedAt =>
    obtain ⟨_, _, rfl⟩ := changed
    refine ⟨?_, fun _ => rfl, ?_, counted.trans count.symm, ?_⟩
    · intro impossible
      cases impossible
    · intro impossible
      cases impossible
    · intro single
      exact ⟨(once single).1, fun impossible => by cases impossible⟩
  | release target worker =>
    obtain ⟨same, _, rfl⟩ := changed
    have retryable := lawful task (same ▸ stored)
    refine ⟨?_, fun _ => rfl, fun _ => rfl, counted.trans count.symm, ?_⟩
    · intro impossible
      cases impossible
    · intro single
      exact absurd retryable single
  | _ => exact changed.elim

theorem Queue.claimCount_eq_zero (never : ∀ worker, (id, worker) ∉ queue.claims) : queue.claimCount id = 0 := by
  refine List.countP_eq_zero.mpr fun claim member => ?_
  obtain ⟨other, worker⟩ := claim
  rintro same
  simp only [beq_iff_eq] at same
  exact never worker (same ▸ member)

theorem Leased.fresh (never : queue.claimCount id = 0)
    (taskType : String) (requestedAt : Nat) : Leased queue id (Task.fresh taskType requestedAt) where
  running impossible := by cases impossible
  idle _ := rfl
  queued _ := rfl
  counted := never.symm
  once _ := ⟨Nat.zero_le _, fun _ => rfl⟩

theorem exec_claims_subset (op : TaskOp β) (queue : Queue) :
    queue.claims ⊆ (op.exec queue).2.claims := by
  rcases (exec_claims op queue).2 with same | ⟨id, worker, task, _, more⟩
  · exact same ▸ List.Subset.refl _
  · exact more ▸ List.subset_cons_self _ _

theorem exec_grows (op : TaskOp β) (queue : Queue) :
    Queue.Grows queue (op.exec queue).2 where
  clock := Nat.le_of_eq (exec_claims op queue).1.symm
  claims := exec_claims_subset op queue
  kept stored := by
    rcases exec_stored op stored with ⟨same, _⟩ | ⟨after, held, changed, _⟩
    · exact ⟨_, same, .refl _⟩
    · exact ⟨after, held, changed.kept⟩

/-- Every lawful request keeps the invariant. -/
theorem exec_invariant (kept : QueueInvariant queue)
    (lawful : op.Lawful queue) : QueueInvariant (op.exec queue).2 := by
  have grown := exec_claims_subset op queue
  refine ⟨fun {id later} present => ?_, fun {id worker} claimed => ?_⟩
  · cases held : queue.tasks.get id with
    | some task =>
      have leased := kept.leased held
      rcases exec_stored op held with ⟨same, count⟩ | ⟨after, view, changed, count, recorded⟩
      · obtain rfl : task = later := Option.some.inj (same.symm.trans present)
        exact leased.unchanged grown count
      · obtain rfl : after = later := Option.some.inj (view.symm.trans present)
        exact leased.changed held lawful grown changed count recorded
    | none =>
      rcases exec_absent op held with absent | ⟨task, inserted, view⟩
      · rw [absent] at present
        cases present
      · obtain rfl : task = later := Option.some.inj (view.symm.trans present)
        have never : queue.claimCount id = 0 := Queue.claimCount_eq_zero fun worker claimed => by
          simpa [held] using kept.claimed claimed
        cases op with
        | insert target task' =>
          obtain ⟨rfl, rfl⟩ := inserted
          obtain ⟨taskType, requestedAt, rfl⟩ := lawful
          refine Leased.fresh ?_ taskType requestedAt
          rcases (exec_claims (.insert target (Task.fresh taskType requestedAt)) queue).2 with
            same | ⟨other, worker, task, _, more⟩
          · simpa [Queue.claimCount, same] using never
          · simp only [TaskOp.exec] at more
            split at more <;> exact absurd more (by simp)
        | _ => exact inserted.elim
  · have earlier : (queue.tasks.get id).isSome := by
      rcases (exec_claims op queue).2 with same | ⟨other, holder, task, stored, more⟩
      · exact kept.claimed (same ▸ claimed)
      · rw [more] at claimed
        rcases List.mem_cons.mp claimed with new | old
        · obtain ⟨rfl, rfl⟩ := Prod.mk.inj new
          simp [stored]
        · exact kept.claimed old
    obtain ⟨task, stored⟩ := Option.isSome_iff_exists.mp earlier
    obtain ⟨later, present, _⟩ := (exec_grows op queue).kept stored
    simp [present]

/-! ## Every program keeps the rules -/

def taskRules (permit : Permit TaskOp Queue) : Discipline TaskOp Queue where
  permit := permit
  inv := QueueInvariant
  grows := Queue.Grows
  lawful := TaskOp.Lawful
  refl := Queue.Grows.refl
  trans := Queue.Grows.trans

theorem taskRules_sound (permit : Permit TaskOp Queue) : (taskRules permit).Sound :=
  fun delivery op current kept lawful _ =>
    (taskRules permit).keeps_of_exec kept ⟨exec_invariant kept lawful, exec_grows op current⟩ delivery

def Settled (queue : Queue) (id : String) : Prop :=
  ∃ task, queue.tasks.get id = some task ∧ (task.status.isTerminal ∨ task.cancelRequested)

theorem Settled.grows (settled : Settled queue id) (grown : Queue.Grows queue later) : Settled later id := by
  obtain ⟨task, stored, ended⟩ := settled
  obtain ⟨after, present, kept⟩ := grown.kept stored
  refine ⟨after, present, ?_⟩
  rcases ended with terminal | requested
  · exact .inl (kept.outcome terminal ▸ terminal)
  · exact .inr (kept.cancellation requested)

section Programs

variable {permit : Permit TaskOp Queue} {queue : Queue}

abbrev anyway {α : Type} : α → Queue → Prop := fun _ _ => True

theorem submit_safe (id taskType : String) (requestedAt : Nat) :
    Safe (taskRules permit) anyway (submit id (Task.fresh taskType requestedAt)).run queue := by
  refine Safe.ask (taskRules_sound permit) (fun _ => trivial)
    (fun _ _ _ => ⟨taskType, requestedAt, rfl⟩) fun _ _ _ _ _ => ?_
  split <;> exact Safe.ret fun _ _ _ => trivial

theorem claimNext_safe (tie worker : String) :
    Safe (taskRules permit) anyway (claimNext tie worker).run queue := by
  refine Safe.ask (taskRules_sound permit) (fun _ => trivial) (fun _ _ _ => trivial) fun _ _ _ _ _ => ?_
  refine Safe.ask (taskRules_sound permit) (fun _ => trivial) (fun _ _ _ => trivial) fun _ _ _ _ _ => ?_
  exact Safe.step (taskRules_sound permit) (fun _ _ _ => trivial)
    (fun _ _ _ _ _ => Safe.ret fun _ _ _ => trivial) fun _ _ _ => Safe.ret fun _ _ _ => trivial

theorem heartbeat_safe (id worker : String) :
    Safe (taskRules permit) anyway (heartbeat id worker).run queue := by
  refine Safe.ask (taskRules_sound permit) (fun _ => trivial) (fun _ _ _ => trivial) fun _ _ _ _ _ => ?_
  refine Safe.ask (taskRules_sound permit) (fun _ => trivial) (fun _ _ _ => trivial) fun _ _ _ _ _ => ?_
  exact Safe.ret fun _ _ _ => trivial

theorem extendRetention_safe (id : String) :
    Safe (taskRules permit) anyway (extendRetention id).run queue :=
  Safe.step (taskRules_sound permit) (fun _ _ _ => trivial)
    (fun _ _ _ _ _ => Safe.ret fun _ _ _ => trivial) fun _ _ _ => Safe.ret fun _ _ _ => trivial

theorem finishClaimed_safe (id worker : String) {status : TaskStatus} (ended : status.isTerminal)
    (error : Option String) :
    Safe (taskRules permit) anyway (finishClaimed id worker status error).run queue := by
  refine Safe.ask (taskRules_sound permit) (fun _ => trivial) (fun _ _ _ => trivial) fun _ _ _ _ _ => ?_
  refine Safe.ask (taskRules_sound permit) (fun _ => trivial) (fun _ _ _ => ended)
    fun later _ _ _ keeps => ?_
  split
  · exact Safe.bindExcept anyway keeps.1
      ((extendRetention_safe id).weaken fun _ _ _ _ _ _ => trivial) (fun _ _ _ _ => trivial)
      fun _ _ _ _ _ => Safe.ret fun _ _ _ => trivial
  · exact Safe.ret fun _ _ _ => trivial

theorem extendAll_safe (ids : List String) :
    Safe (taskRules permit) anyway (extendAll ids).run queue := by
  induction ids generalizing queue with
  | nil => exact Safe.ret fun _ _ _ => trivial
  | cons id rest ih =>
    refine Safe.step (taskRules_sound permit) (fun _ _ _ => trivial)
      (fun _ _ _ _ _ => ih) fun _ _ _ => ih

theorem requeueExpired_safe : Safe (taskRules permit) anyway requeueExpired.run queue := by
  refine Safe.ask (taskRules_sound permit) (fun _ => trivial) (fun _ _ _ => trivial)
    fun swept _ _ _ _ => ?_
  refine Safe.ask (taskRules_sound permit) (fun _ => trivial) (fun _ _ grown => grown.clock)
    fun _ _ _ _ _ => ?_
  refine Safe.ask (taskRules_sound permit) (fun _ => trivial) (fun _ _ _ => trivial)
    fun checked _ _ _ _ => ?_
  refine Safe.ask (taskRules_sound permit) (fun _ => trivial) (fun _ _ _ => trivial)
    fun listed _ grown _ _ => ?_
  refine Safe.ask (taskRules_sound permit) (fun _ => trivial) (fun _ _ _ => trivial)
    fun timed _ later _ _ => ?_
  refine Safe.ask (taskRules_sound permit) (fun _ => trivial)
    (fun _ _ last => Nat.le_trans grown.clock (Nat.le_trans later.clock last.clock))
    fun _ _ _ _ keeps => ?_
  split
  · exact Safe.bindExcept anyway keeps.1 ((extendAll_safe _).weaken fun _ _ _ _ _ _ => trivial)
      (fun _ _ _ _ => trivial) fun _ _ _ _ _ => Safe.ret fun _ _ _ => trivial
  · exact Safe.ret fun _ _ _ => trivial

theorem release_safe (worker : String) (present : (queue.tasks.get id).isSome)
    (retryable : ∀ task, queue.tasks.get id = some task → isRetryable task.taskType) :
    Safe (taskRules permit) anyway (release id worker).run queue := by
  refine Safe.ask (taskRules_sound permit) (fun _ => trivial) (fun current _ grown => ?_)
    fun _ _ _ _ _ => Safe.ret fun _ _ _ => trivial
  intro later held
  obtain ⟨task, stored⟩ := Option.isSome_iff_exists.mp present
  obtain ⟨after, view, kept⟩ := grown.kept stored
  obtain rfl : after = later := Option.some.inj (view.symm.trans held)
  exact kept.sameType ▸ retryable task stored

def Careful (permit : Permit TaskOp Queue) : Prop :=
  ∀ {id queue}, permit .answered (.flagRunning id) queue →
    ∃ task, queue.tasks.get id = some task ∧ task.status ≠ .queued

theorem matched_eq_one {filter : Task → Bool} {change : Task → Task}
    (matched : (queue.updateOne id filter change).1 = 1) :
    ∃ task, queue.tasks.get id = some task ∧ filter task ∧
      (queue.updateOne id filter change).2.tasks.get id = some (change task) := by
  cases held : queue.tasks.get id with
  | none => simp [Queue.updateOne, Collection.matches?, held] at matched
  | some task =>
    have guarded : filter task := by
      by_contra unmatched
      simp [Queue.updateOne, Collection.matches?, held, unmatched] at matched
    exact ⟨task, rfl, guarded, by simp [Queue.updateOne, held, guarded]⟩

theorem not_matched {filter : Task → Bool} {change : Task → Task}
    (unmatched : (queue.updateOne id filter change).1 ≠ 1) (stored : queue.tasks.get id = some task) :
    filter task = false ∧ (queue.updateOne id filter change).2.tasks.get id = some task := by
  have guarded : filter task = false := by
    by_contra matched
    simp [Queue.updateOne, Collection.matches?, stored, matched] at unmatched
  exact ⟨guarded, by simp [Queue.updateOne, stored, guarded]⟩

def CancelHonored (permit : Permit TaskOp Queue) (id : String)
    (result : Except QueueError (Option TaskStatus)) (queue : Queue) : Prop :=
  ∀ status, result = .ok (some status) → Careful permit → Settled queue id

theorem requestCancel_safe (id : String) :
    Safe (taskRules permit) (CancelHonored permit id) (requestCancel id).run queue := by
  have failed : ∀ current, CancelHonored permit id (.error .mongo) current :=
    fun _ _ impossible => by cases impossible
  refine Safe.ask (taskRules_sound permit) failed (fun _ _ _ => trivial)
    fun timed _ _ _ _ => ?_
  refine Safe.ask (taskRules_sound permit) failed (fun _ _ _ => trivial)
    fun tried _ _ _ _ => ?_
  split
  next canceled =>
    obtain ⟨task, _, _, after⟩ := matched_eq_one canceled
    refine Safe.ret fun later _ grown _ _ _ => ?_
    exact Settled.grows ⟨_, after, .inl rfl⟩ grown
  next =>
    refine Safe.ask (taskRules_sound permit) failed (fun _ _ _ => trivial)
      fun retried _ _ permitted _ => ?_
    split
    next flagged =>
      obtain ⟨task, _, _, after⟩ := matched_eq_one flagged
      refine Safe.ret fun later _ grown _ _ _ => ?_
      exact Settled.grows ⟨_, after, .inr rfl⟩ grown
    next unmatched =>
      -- Neither guard matched: the run was not running, nor, by care, queued.
      have settled : Careful permit → Settled (TaskOp.exec (.flagRunning id) retried).2 id := by
        intro careful
        obtain ⟨held, view, notQueued⟩ := careful permitted
        obtain ⟨notRunning, after⟩ := not_matched unmatched view
        refine ⟨held, after, .inl ?_⟩
        cases status : held.status <;> simp_all [TaskStatus.isTerminal]
      refine Safe.ask (taskRules_sound permit) failed (fun _ _ _ => trivial)
        fun last _ fourth _ _ => ?_
      refine Safe.ret fun later _ grown _ _ careful => ?_
      exact (settled careful).grows (fourth.trans grown)

def Reply.Honored (permit : Permit TaskOp Queue) (reply : Reply) (queue : Queue) : Prop :=
  match reply with
  | .cancelRequested id result => CancelHonored permit id result queue
  | _ => True

theorem request_safe {request : Request} (kept : QueueInvariant queue) (allowed : request.Allowed queue) :
    Safe (taskRules permit) (Reply.Honored permit) request.program queue := by
  have free {α : Type} {program : Prog TaskOp α} {reply : α → Reply}
      (safe : Safe (taskRules permit) anyway program queue)
      (honored : ∀ value current, Reply.Honored permit (reply value) current) :
      Safe (taskRules permit) (Reply.Honored permit) (program >>= fun value => .ret (reply value)) queue :=
    Safe.map (safe.weaken fun value current _ _ => honored value current)
  cases request with
  | submit id task =>
    obtain ⟨taskType, requestedAt, rfl⟩ := allowed
    exact free (submit_safe id taskType requestedAt) fun _ _ => trivial
  | claimNext tie worker => exact free (claimNext_safe tie worker) fun _ _ => trivial
  | heartbeat id worker => exact free (heartbeat_safe id worker) fun _ _ => trivial
  | finishClaimed id worker status error =>
    exact free (finishClaimed_safe id worker allowed.2 error) fun _ _ => trivial
  | requestCancel id => exact Safe.map (requestCancel_safe id)
  | requeueExpired => exact free requeueExpired_safe fun _ _ => trivial
  | release id worker =>
    exact free (release_safe worker (kept.claimed allowed.1) allowed.2) fun _ _ => trivial

end Programs

theorem tick_keeps (kept : QueueInvariant queue) (tick : Queue.Tick queue later) :
    QueueInvariant later ∧ Queue.Grows queue later := by
  obtain ⟨clock, passed, rfl⟩ := tick
  refine ⟨⟨fun stored => ?_, kept.claimed⟩, passed, List.Subset.refl _, fun stored => ⟨_, stored, .refl _⟩⟩
  exact (kept.leased stored).unchanged (List.Subset.refl _) rfl

theorem deployment_disciplined (permit : Permit TaskOp Queue) :
    Pool.Disciplined (taskRules permit) (Reply.Honored permit) Starts Queue.Tick where
  started queue program kept start := by
    obtain ⟨request, allowed, rfl⟩ := start
    exact request_safe kept allowed
  outside _ _ kept tick := tick_keeps kept tick

theorem init_invariant (init : queue.Init) : QueueInvariant queue := by
  obtain ⟨noTasks, noClaims⟩ := init
  exact ⟨fun stored => by simp [noTasks] at stored, fun claimed => by simp [noClaims] at claimed⟩

abbrev Reached (permit : Permit TaskOp Queue) (pool : Deployment) : Prop :=
  Reachable (Pool.Fresh Queue.Init) (TaskStep permit) pool

variable {permit : Permit TaskOp Queue}

theorem reached_safe {pool : Deployment} (reached : Reached permit pool) :
    Pool.AllSafe (taskRules permit) (Reply.Honored permit) pool :=
  Pool.safe (deployment_disciplined permit) (fun _ => init_invariant) reached

theorem reached_grows {pool after : Deployment}
    (reached : Reached permit pool) (run : Relation.ReflTransGen (TaskStep permit) pool after) :
    Queue.Grows pool.store after.store :=
  Pool.run_grows (deployment_disciplined permit) (fun _ => init_invariant) reached run

/-! ## Who may touch a run -/

def TaskOp.actor? {β : Type} : TaskOp β → Option String
  | .claimOldest _ worker _ _ | .renewLease _ worker _ | .finish _ worker _ _ _
  | .release _ worker => some worker
  | _ => none

def TaskOp.holding? {β : Type} : TaskOp β → Option (String × String)
  | .renewLease id worker _ | .finish id worker _ _ _ | .release id worker => some (id, worker)
  | _ => none

def Reply.Declined : Reply → Prop
  | .heartbeat _ (.ok answer) => answer = none
  | .finished _ (.ok done) => done = false
  | _ => True

def TaskOp.Declines {β : Type} (op : TaskOp β) (next : Option β → Prog TaskOp Reply) : Prop :=
  match op, next with
  | .renewLease _ _ _, next => (next (some none)).Returns Reply.Declined ∧ (next none).Returns Reply.Declined
  | .finish _ _ _ _ _, next => (next (some 0)).Returns Reply.Declined ∧ (next none).Returns Reply.Declined
  | .release _ _, next => (next (some 0)).Returns Reply.Declined ∧ (next none).Returns Reply.Declined
  | _, _ => True

theorem requeueExpired_declines : Request.requeueExpired.program.Everywhere TaskOp.Declines := by
  have extends_ (ids : List String) (report : ReapReport) :
      ((do extendAll ids; pure report : QueueProg ReapReport).run >>= fun result =>
        (.ret (.reaped result) : Prog TaskOp Reply)).Everywhere TaskOp.Declines := by
    induction ids with
    | nil => trivial
    | cons id rest ih => exact ⟨trivial, fun _ => ih⟩
  refine ⟨trivial, fun answer => ?_⟩
  rcases answer with _ | swept
  · trivial
  refine ⟨trivial, fun answer => ?_⟩
  rcases answer with _ | requeued
  · trivial
  refine ⟨trivial, fun answer => ?_⟩
  rcases answer with _ | failingAt
  · trivial
  refine ⟨trivial, fun answer => ?_⟩
  rcases answer with _ | ids
  · trivial
  refine ⟨trivial, fun answer => ?_⟩
  rcases answer with _ | failedAt
  · trivial
  refine ⟨trivial, fun answer => ?_⟩
  rcases answer with _ | _ | failed
  · trivial
  · trivial
  · exact extends_ ids ⟨requeued, failed + 1⟩

theorem requestCancel_declines (id : String) : (Request.requestCancel id).program.Everywhere TaskOp.Declines := by
  have second :
      ((do
        let flagged ← ask (.flagRunning id)
        if flagged = 1 then return some .running
        let found ← ask (.findOne id)
        return found.map (·.status) : QueueProg (Option TaskStatus)).run >>= fun result =>
        (.ret (.cancelRequested id result) : Prog TaskOp Reply)).Everywhere TaskOp.Declines := by
    refine ⟨trivial, fun answer => ?_⟩
    rcases answer with _ | _ | _ | more
    · trivial
    · exact ⟨trivial, fun answer => by cases answer <;> trivial⟩
    · trivial
    · exact ⟨trivial, fun answer => by cases answer <;> trivial⟩
  refine ⟨trivial, fun answer => ?_⟩
  rcases answer with _ | timed
  · trivial
  refine ⟨trivial, fun answer => ?_⟩
  rcases answer with _ | _ | _ | more
  · trivial
  · exact second
  · trivial
  · exact second

theorem request_declines (request : Request) : request.program.Everywhere TaskOp.Declines := by
  cases request with
  | submit id task =>
    refine ⟨trivial, fun answer => ?_⟩
    rcases answer with _ | _ | _ <;> trivial
  | claimNext tie worker =>
    refine ⟨trivial, fun answer => ?_⟩
    rcases answer with _ | startedAt
    · trivial
    refine ⟨trivial, fun answer => ?_⟩
    rcases answer with _ | leasedAt
    · trivial
    exact ⟨trivial, fun answer => by cases answer <;> trivial⟩
  | heartbeat id worker =>
    refine ⟨trivial, fun answer => ?_⟩
    rcases answer with _ | time
    · trivial
    exact ⟨⟨rfl, trivial⟩, fun answer => by cases answer <;> trivial⟩
  | finishClaimed id worker status error =>
    refine ⟨trivial, fun answer => ?_⟩
    rcases answer with _ | time
    · trivial
    refine ⟨⟨?_, trivial⟩, fun answer => ?_⟩
    · cases status with
      | failed | canceled => exact fun _ => rfl
      | _ => rfl
    · rcases answer with _ | matched
      · trivial
      · cases status with
        | failed | canceled => exact ⟨trivial, fun _ => trivial⟩
        | _ => trivial
  | requestCancel id => exact requestCancel_declines id
  | requeueExpired => exact requeueExpired_declines
  | release id worker => exact ⟨⟨trivial, trivial⟩, fun answer => by cases answer <;> trivial⟩

theorem reached_declines {pool : Deployment} (reached : Reached permit pool)
    {slot : Nat} {program : Prog TaskOp Reply} (running : pool.threads slot = some program) :
    program.Everywhere TaskOp.Declines := by
  refine Pool.everywhere ?_ reached running
  rintro queue program ⟨request, _, rfl⟩
  exact request_declines request

theorem foreign_unchanged {id worker : String}
    (stored : queue.tasks.get id = some task) (running : task.status = .running)
    (foreign : task.worker ≠ some worker) (acting : op.actor? = some worker) :
    (op.exec queue).2.tasks.get id = some task := by
  rcases exec_stored op stored with ⟨same, _⟩ | ⟨after, _, changed, _⟩
  · exact same
  · exfalso
    cases op with
    | claimOldest tie claimer startedAt leaseUntil =>
      exact absurd (running.symm.trans changed.1) (by decide)
    | renewLease target holder leaseUntil | finish target holder status time error
    | release target holder =>
      obtain rfl : holder = worker := Option.some.inj acting
      exact foreign ((task.heldBy_iff holder).mp changed.2.1).1
    | _ => cases acting

theorem not_held_declined {next : Option β → Prog TaskOp Reply}
    {id worker : String} (stored : queue.tasks.get id = some task)
    (notHeld : ¬ task.heldBy worker) (holding : op.holding? = some (id, worker))
    (declines : op.Declines next) (delivery : Delivery) : (op.exec queue).2.tasks.get id = some task ∧
      (next (delivery.answer op queue)).Returns Reply.Declined := by
  have unmatched : task.heldBy worker = false := by simpa using notHeld
  constructor
  · rcases exec_stored op stored with ⟨same, _⟩ | ⟨after, _, changed, _⟩
    · exact same
    · exfalso
      cases op with
      | renewLease target holder leaseUntil | finish target holder status time error
      | release target holder =>
        obtain ⟨_, rfl⟩ := Prod.mk.inj (Option.some.inj holding)
        exact notHeld changed.2.1
      | _ => cases holding
  · cases op with
    | renewLease target holder leaseUntil =>
      obtain ⟨rfl, rfl⟩ := Prod.mk.inj (Option.some.inj holding)
      cases delivery with
      | answered =>
        simpa [TaskOp.exec, Queue.findOneAndUpdate, stored, unmatched, Option.filter] using declines.1
      | lost | refused => exact declines.2
    | finish target holder status time error =>
      obtain ⟨rfl, rfl⟩ := Prod.mk.inj (Option.some.inj holding)
      cases delivery with
      | answered =>
        simpa [TaskOp.exec, Queue.updateOne, Collection.matches?, stored, unmatched] using declines.1
      | lost | refused => exact declines.2
    | release target holder =>
      obtain ⟨rfl, rfl⟩ := Prod.mk.inj (Option.some.inj holding)
      cases delivery with
      | answered =>
        simpa [TaskOp.exec, Queue.updateOne, Collection.matches?, stored, unmatched] using declines.1
      | lost | refused => exact declines.2
    | _ => cases holding

theorem exec_leaves_running (lawful : op.Lawful queue) (stored : queue.tasks.get id = some task)
    (running : task.status = .running) :
    ∃ after, (op.exec queue).2.tasks.get id = some after ∧
      (after.status = .running ∨
        (∃ lease, task.leaseExpiresAt = some lease ∧ lease < queue.clock) ∨
        op.actor? = task.worker) := by
  rcases exec_stored op stored with ⟨same, _⟩ | ⟨after, view, changed, _⟩
  · exact ⟨task, same, .inl running⟩
  · refine ⟨after, view, ?_⟩
    cases op with
    | renewLease target worker leaseUntil =>
      obtain ⟨_, _, rfl⟩ := changed
      exact .inl running
    | flagRunning target =>
      obtain ⟨_, _, rfl⟩ := changed
      exact .inl running
    | finish target worker status time error | release target worker =>
      exact .inr (.inr ((task.heldBy_iff worker).mp changed.2.1).1.symm)
    | claimOldest tie worker startedAt leaseUntil =>
      exact absurd (running.symm.trans changed.1) (by decide)
    | cancelQueued target time => exact absurd (running.symm.trans changed.2.1) (by decide)
    | requeueExpired time | failExpired time failedAt =>
      obtain ⟨_, lease, held, past⟩ := (task.expired_iff time).mp changed.1
      exact .inr (.inl ⟨lease, held, Nat.lt_of_lt_of_le past lawful⟩)
    | _ => exact changed.elim

/-! ## The lease law -/

/-- What holds of a state of the deployment, of every step out of it and of every
    run from it on. -/
structure LeaseLaw (pool : Deployment) : Prop where
  held : ∀ id task, pool.store.tasks.get id = some task →
    (task.status = .running ↔ task.worker.isSome ∧ task.leaseExpiresAt.isSome) ∧
    (task.status = .queued → task.worker = none ∧ task.leaseExpiresAt = none)
  ended : ∀ after, Relation.ReflTransGen (TaskStep (Permit.all _ _)) pool after →
    ∀ id task, pool.store.tasks.get id = some task → task.status.isTerminal →
      ∃ later, after.store.tasks.get id = some later ∧ later.status = task.status
  leaves : ∀ after, TaskStep (Permit.all _ _) pool after →
    ∀ id task, pool.store.tasks.get id = some task → task.status = .running →
      ∃ later, after.store.tasks.get id = some later ∧
        (later.status = .running ∨
          (∃ lease, task.leaseExpiresAt = some lease ∧ lease < pool.store.clock) ∨
          ∃ (slot : Nat) (β : Type) (op : TaskOp β) (next : Option β → Prog TaskOp Reply)
            (delivery : Delivery), pool.threads slot = some (.call op next) ∧
            after = pool.deliver slot delivery op next ∧ op.actor? = task.worker)
  foreign : ∀ (slot : Nat) (β : Type) (op : TaskOp β) (next : Option β → Prog TaskOp Reply)
    (delivery : Delivery), pool.threads slot = some (.call op next) →
    ∀ id worker task, pool.store.tasks.get id = some task →
      (op.actor? = some worker → task.status = .running → task.worker ≠ some worker →
        (pool.deliver slot delivery op next).store.tasks.get id = some task) ∧
      (op.holding? = some (id, worker) → ¬ task.heldBy worker →
        (pool.deliver slot delivery op next).store.tasks.get id = some task ∧
        (next (delivery.answer op pool.store)).Returns Reply.Declined)
  counted : ∀ id task, pool.store.tasks.get id = some task →
    task.attempts = pool.store.claimCount id ∧ (¬ isRetryable task.taskType → task.attempts ≤ 1)

theorem delivered_or_same (op : TaskOp β) (queue : Queue) (delivery : Delivery) :
    delivery.state op queue = (op.exec queue).2 ∨ delivery.state op queue = queue := by
  cases delivery with
  | answered | lost => exact .inl rfl
  | refused => exact .inr rfl

theorem step_leaves_running {pool after : Deployment} (reached : Reached (Permit.all _ _) pool)
    (taken : TaskStep (Permit.all _ _) pool after)
    (stored : pool.store.tasks.get id = some task) (running : task.status = .running) :
    ∃ later, after.store.tasks.get id = some later ∧
      (later.status = .running ∨
        (∃ lease, task.leaseExpiresAt = some lease ∧ lease < pool.store.clock) ∨
        ∃ (slot : Nat) (β : Type) (op : TaskOp β) (next : Option β → Prog TaskOp Reply)
          (delivery : Delivery), pool.threads slot = some (.call op next) ∧
          after = pool.deliver slot delivery op next ∧ op.actor? = task.worker) := by
  cases taken with
  | spawn _ _ => exact ⟨task, stored, .inl running⟩
  | crash => exact ⟨task, stored, .inl running⟩
  | outside tick =>
    obtain ⟨_, _, rfl⟩ := tick
    exact ⟨task, stored, .inl running⟩
  | @deliver slot β op next delivery calling _ =>
    have lawful : op.Lawful pool.store := (reached_safe reached).lawful calling
    rcases delivered_or_same op pool.store delivery with left | same
    · obtain ⟨later, view, why⟩ := exec_leaves_running lawful stored running
      refine ⟨later, by simpa [left] using view, ?_⟩
      rcases why with still | expired | acting
      · exact .inl still
      · exact .inr (.inl expired)
      · exact .inr (.inr ⟨slot, β, op, next, delivery, calling, rfl, acting⟩)
    · exact ⟨task, by simpa [same] using stored, .inl running⟩

theorem lease_law {pool : Deployment} (reached : Reached (Permit.all _ _) pool) : LeaseLaw pool where
  held id task stored := by
    have leased := (reached_safe reached).kept.leased stored
    refine ⟨⟨fun running => ?_, fun ⟨_, lease⟩ => ?_⟩, fun waiting => ?_⟩
    · obtain ⟨worker, lease, owner, until_, _⟩ := leased.running running
      simp [owner, until_]
    · by_contra notRunning
      simp [leased.idle notRunning] at lease
    · exact ⟨leased.queued waiting, leased.idle (by simp [waiting])⟩
  ended after run id task stored terminal := by
    obtain ⟨later, view, kept⟩ := (reached_grows reached run).kept stored
    exact ⟨later, view, kept.outcome terminal⟩
  leaves after taken id task stored running := step_leaves_running reached taken stored running
  foreign slot β op next delivery calling id worker task stored := by
    have declines := (reached_declines reached calling).1
    refine ⟨fun acting running foreign => ?_, fun holding notHeld => ?_⟩
    · rcases delivered_or_same op pool.store delivery with left | same
      · simpa [left] using foreign_unchanged stored running foreign acting
      · simpa [same] using stored
    · obtain ⟨unchanged, declined⟩ := not_held_declined stored notHeld holding declines delivery
      refine ⟨?_, declined⟩
      rcases delivered_or_same op pool.store delivery with left | same
      · simpa [left] using unchanged
      · simpa [same] using stored
  counted id task stored := by
    have leased := (reached_safe reached).kept.leased stored
    exact ⟨leased.counted, fun single => (leased.once single).1⟩

/-! ## A run, submitted and claimed -/

def idle : Deployment :=
  { store := { clock := 0, tasks := Collection.empty, claims := [] }, threads := fun _ => none }

def requested (pool : Deployment) (slot : Nat) (request : Request) : Deployment :=
  pool.setThread slot (some request.program)

theorem reached_idle (permit : Permit TaskOp Queue) : Reached permit idle :=
  .start ⟨⟨rfl, rfl⟩, fun _ => rfl⟩

theorem reached_requested {pool : Deployment}
    (reached : Reached permit pool) (slot : Nat) (request : Request) (free : pool.threads slot = none)
    (allowed : request.Allowed pool.store) : Reached permit (requested pool slot request) :=
  Pool.reach_spawn reached free ⟨request, allowed, rfl⟩

def submittedOnce : Deployment :=
  (requested idle 0 (.submit "run" (Task.fresh "migrate_snr" 0))).schedule [0]

def claimedOnce : Deployment :=
  (requested submittedOnce 1 (.claimNext "run" "worker")).schedule [1, 1, 1]

theorem reached_claimedOnce : Reached (Permit.all _ _) claimedOnce := by
  have submitted : Reached (Permit.all _ _) submittedOnce :=
    Pool.reach_schedule (reached_requested (reached_idle _) 0
      (.submit "run" (Task.fresh "migrate_snr" 0)) rfl ⟨_, _, rfl⟩) _
  exact Pool.reach_schedule (reached_requested submitted 1 (.claimNext "run" "worker") rfl trivial) _

theorem lease_law_claimedOnce :
    (claimedOnce.store.tasks.get "run").map (·.attempts) = some 1 ∧ LeaseLaw claimedOnce :=
  ⟨rfl, lease_law reached_claimedOnce⟩

end Boom.Tasks
