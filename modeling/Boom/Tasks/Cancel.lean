import Boom.Tasks.Lease

/-! # Cancellation requests

`requestCancel` tries the run as queued and then as running, in two guarded
updates.  A run handed back to the queue between them is missed by both, and the
request then answers with the status it reads, `queued`.  Where every request finds
its run stored, and not queued, on the second attempt, an answer means that the run
is over or flagged, and every later claim and heartbeat reports the flag. -/

namespace Boom.Tasks

open Boom.Foundations

def Permit.noSwitch : Permit TaskOp Queue := fun delivery _ op queue =>
  match op with
  | .flagRunning id => delivery = .answered →
    ∃ task, queue.tasks.get id = some task ∧ task.status ≠ .queued
  | _ => True

theorem noSwitch_careful : Careful Permit.noSwitch :=
  fun permitted => permitted rfl

def TaskOp.toldFlag {β : Type} (op : TaskOp β) (id : String) (answer : β) : Option Bool :=
  match op, answer with
  | .claimOldest _ _ _ _, some (claimed, task) =>
    if claimed = id then some task.cancelRequested else none
  | .renewLease target _ _, some task => if target = id then some task.cancelRequested else none
  | _, _ => none

theorem toldFlag_of_flagged {β : Type} {op : TaskOp β} {queue : Queue} {id : String} {flag : Bool}
    (settled : Settled queue id) (told : op.toldFlag id (op.exec queue).1 = some flag) :
    flag = true := by
  obtain ⟨task, stored, ended⟩ := settled
  have flagged (live : task.status.isTerminal = false) : task.cancelRequested = true := by
    rcases ended with terminal | requested
    · simp [live] at terminal
    · exact requested
  cases op with
  | claimOldest tie worker startedAt leaseUntil =>
    simp only [TaskOp.exec] at told
    split at told
    next => cases told
    next chosen held next =>
      obtain ⟨present, queued⟩ := Queue.nextQueued_spec next
      simp only [Queue.findOneAndUpdate, present, Option.filter, queued, beq_self_eq_true, if_true,
        Option.map_some, TaskOp.toldFlag] at told
      split at told
      next same =>
        subst same
        obtain rfl : held = task := Option.some.inj (present.symm.trans stored)
        exact (Option.some.inj told).symm.trans (flagged (by simp [queued, TaskStatus.isTerminal]))
      next => cases told
  | renewLease target worker leaseUntil =>
    simp only [TaskOp.exec, Queue.findOneAndUpdate] at told
    cases present : queue.tasks.get target with
    | none => simp [present, TaskOp.toldFlag] at told
    | some held =>
      cases guarded : held.heldBy worker with
      | false => simp [present, guarded, Option.filter, TaskOp.toldFlag] at told
      | true =>
        simp only [present, Option.filter, guarded, if_true, Option.map_some, TaskOp.toldFlag] at told
        split at told
        next same =>
          subst same
          obtain rfl : held = task := Option.some.inj (present.symm.trans stored)
          have running := ((held.heldBy_iff worker).mp guarded).2
          exact (Option.some.inj told).symm.trans (flagged (by simp [running, TaskStatus.isTerminal]))
        next => cases told
  | _ => cases told

structure CancelKept (permit : Permit TaskOp Queue) (pool : Deployment) : Prop where
  settled : ∀ slot id status,
    pool.threads slot = some (.ret (.cancelRequested id (.ok (some status)))) →
    ∀ after, Relation.ReflTransGen (TaskStep permit) pool after → Settled after.store id
  told : ∀ slot id status,
    pool.threads slot = some (.ret (.cancelRequested id (.ok (some status)))) →
    ∀ after, Relation.ReflTransGen (TaskStep permit) pool after →
    ∀ (worker : Nat) (β : Type) (op : TaskOp β) (next : Option β → Prog TaskOp Reply) (flag : Bool),
      after.threads worker = some (.call op next) →
      op.toldFlag id (op.exec after.store).1 = some flag → flag = true

theorem settled_of_answered {permit : Permit TaskOp Queue} (careful : Careful permit)
    {pool after : Deployment} (reached : Reached permit pool) {slot : Nat} {id : String} {status : TaskStatus}
    (answered : pool.threads slot = some (.ret (.cancelRequested id (.ok (some status)))))
    (run : Relation.ReflTransGen (TaskStep permit) pool after) : Settled after.store id := by
  have honored : CancelHonored permit id (.ok (some status)) pool.store :=
    (reached_safe reached).returned answered
  exact (honored status rfl careful).grows (reached_grows reached run)

theorem cancel_kept {pool : Deployment} (reached : Reached Permit.noSwitch pool) :
    CancelKept Permit.noSwitch pool where
  settled _ _ _ answered _ run := settled_of_answered noSwitch_careful reached answered run
  told _ _ _ answered _ run _ _ _ _ _ _ told :=
    toldFlag_of_flagged (settled_of_answered noSwitch_careful reached answered run) told

/-! ## The two orders of a cancellation and a hand-back -/

def triedQueued : Deployment :=
  (requested claimedOnce 2 (.requestCancel "run")).schedule [2, 2]

def switched : Deployment :=
  (requested triedQueued 3 (.release "run" "worker")).schedule [3, 2, 2]

theorem reached_switched : Reached (Permit.all _ _) switched := by
  have tried : Reached (Permit.all _ _) triedQueued :=
    Pool.reach_schedule (reached_requested reached_claimedOnce 2 (.requestCancel "run") rfl trivial) _
  refine Pool.reach_schedule (reached_requested tried 3 (.release "run" "worker") rfl ⟨?_, ?_⟩) _
  · exact List.mem_singleton.mpr rfl
  · intro task stored
    have retryable : (triedQueued.store.tasks.get "run").all fun task => isRetryable task.taskType :=
      rfl
    simpa [stored] using retryable

theorem cancel_missed : ¬ ∀ pool, Reached (Permit.all _ _) pool → CancelKept (Permit.all _ _) pool := by
  intro always
  have answered : switched.threads 2 =
      some (.ret (.cancelRequested "run" (.ok (some .queued)))) := rfl
  obtain ⟨task, stored, ended⟩ :=
    (always switched reached_switched).settled 2 "run" .queued answered switched .refl
  have missed : (switched.store.tasks.get "run").all
      fun task => !task.status.isTerminal && !task.cancelRequested := rfl
  simp only [stored, Option.all_some, Bool.and_eq_true, Bool.not_eq_true'] at missed
  rcases ended with terminal | flagged
  · exact absurd (missed.1.symm.trans terminal) (by decide)
  · exact absurd (missed.2.symm.trans flagged) (by decide)

def flaggedOnce : Deployment := triedQueued.schedule [2]

theorem reached_flaggedOnce : Reached Permit.noSwitch flaggedOnce := by
  have submitting : Reached Permit.noSwitch _ :=
    reached_requested (reached_idle _) 0 (.submit "run" (Task.fresh "migrate_snr" 0)) rfl ⟨_, _, rfl⟩
  have submitted : Reached Permit.noSwitch submittedOnce :=
    Pool.reach_answered submitting 0 rfl trivial
  have claiming := reached_requested submitted 1 (.claimNext "run" "worker") rfl trivial
  have started := Pool.reach_answered claiming 1 rfl trivial
  have leased := Pool.reach_answered started 1 rfl trivial
  have claimed : Reached Permit.noSwitch claimedOnce := Pool.reach_answered leased 1 rfl trivial
  have canceling := reached_requested claimed 2 (.requestCancel "run") rfl trivial
  have timed := Pool.reach_answered canceling 2 rfl trivial
  have tried : Reached Permit.noSwitch triedQueued := Pool.reach_answered timed 2 rfl trivial
  have flagging : triedQueued.threads 2 = some (.call (.flagRunning "run") _) := rfl
  refine Pool.reach_answered tried 2 flagging ?_
  intro _
  have running : (triedQueued.store.tasks.get "run").any fun task => task.status == .running := rfl
  obtain ⟨task, stored, isRunning⟩ := (Option.any_eq_true _ _).mp running
  exact ⟨task, stored, by simp [beq_iff_eq.mp isRunning]⟩

theorem cancel_kept_flaggedOnce :
    flaggedOnce.threads 2 = some (.ret (.cancelRequested "run" (.ok (some .running)))) ∧
      CancelKept Permit.noSwitch flaggedOnce :=
  ⟨rfl, cancel_kept reached_flaggedOnce⟩

end Boom.Tasks
