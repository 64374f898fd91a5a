import Boom.Tasks.EnrichReprocess

/-! # When a drained queue means done

Every wide candid of the selection is on the list, held by a worker or enriched, from
the moment the list is filled.  The list is only ever popped from, so it is still empty
when the workers are joined, and then nobody holds what is not lost.  The drain loop
does not see what a worker loses after its last liveness check. -/

namespace Boom.Tasks.Reprocess

open Boom.Foundations
open Boom.Enrichment (lpush rpop mem_lpush mem_rpop)

/-! ## Filling the queue -/

def Filling.Holds (filling : Filling) (taken : List Bson) : Prop :=
  ∀ id ∈ taken, ∀ candid, getI64 id = some candid →
    (candid ∈ filling.batch ∨ candid ∈ filling.queue) ∧ (filling.pushed = 0 → candid ∈ filling.batch)

theorem Filling.Holds.push {filling : Filling} {taken : List Bson} (holds : filling.Holds taken) :
    filling.push.Holds taken := by
  intro id member candid wide
  obtain ⟨either, unpushed⟩ := holds id member candid wide
  refine ⟨.inr (mem_lpush.mpr either), fun none => ?_⟩
  simp only [Filling.push] at none
  have inBatch := unpushed (by omega)
  have some_ := List.length_pos_of_mem inBatch
  omega

theorem Filling.Holds.add {filling : Filling} {taken : List Bson} (holds : filling.Holds taken) (id : Bson) :
    (filling.add id).Holds (taken ++ [id]) := by
  cases read : getI64 id with
  | none =>
    have same : filling.add id = filling := by simp [Filling.add, read]
    rw [same]
    intro other member candid wide
    rcases List.mem_append.mp member with before | isLast
    · exact holds other before candid wide
    · rw [List.mem_singleton.mp isLast, read] at wide
      cases wide
  | some own =>
    have grown : ({ filling with batch := filling.batch ++ [own] } : Filling).Holds (taken ++ [id]) := by
      intro other member candid wide
      rcases List.mem_append.mp member with before | isLast
      · obtain ⟨either, unpushed⟩ := holds other before candid wide
        exact ⟨either.imp_left (List.mem_append_left _), fun none => List.mem_append_left _ (unpushed none)⟩
      · rw [List.mem_singleton.mp isLast, read] at wide
        cases wide
        exact ⟨.inl (by simp), fun _ => by simp⟩
    simp only [Filling.add, read]
    split
    next => exact grown.push
    next => exact grown

theorem populate_spec (queue : List Int) (selected : List Bson) {id : Bson} (member : id ∈ selected) {candid : Int}
    (wide : getI64 id = some candid) :
    candid ∈ (populate queue selected).queue ∧ (populate queue selected).pushed ≠ 0 := by
  have folded : ∀ (rest taken : List Bson) (filling : Filling), filling.Holds taken →
      (rest.foldl Filling.add filling).Holds (taken ++ rest) := by
    intro rest
    induction rest with
    | nil => intro taken filling holds; simpa using holds
    | cons head rest ih =>
      intro taken filling holds
      simpa using ih (taken ++ [head]) (filling.add head) (holds.add head)
  have filled := folded selected [] ⟨[], queue, 0⟩ nofun
  rw [List.nil_append] at filled
  unfold populate
  dsimp only
  split
  next empty =>
    obtain ⟨either, unpushed⟩ := filled id member candid wide
    rw [empty] at either unpushed
    exact ⟨either.resolve_left List.not_mem_nil, fun none => List.not_mem_nil (unpushed none)⟩
  next =>
    obtain ⟨either, unpushed⟩ := filled.push id member candid wide
    exact ⟨either.resolve_left List.not_mem_nil, fun none => List.not_mem_nil (unpushed none)⟩

/-! ## The run -/

namespace Run

def seenEmpty : Phase → Prop
  | .sleeping emptyStreak | .polling emptyStreak => 0 < emptyStreak
  | .drained (.ok _) => True
  | .populating | .drained (.error _) | .done _ => False

def Tracked (run : Run) (candid : Int) : Prop :=
  candid ∈ run.queue ∨ (∃ worker ∈ run.workers, candid ∈ worker.stage.held) ∨
    ∃ batch ∈ run.enriched, candid ∈ batch

structure Accounted (selected : List Bson) (run : Run) : Prop where
  tracked : (∀ result, run.phase ≠ .done result) → run.phase ≠ .populating →
    ∀ id ∈ selected, ∀ candid, getI64 id = some candid → run.Tracked candid
  empty : seenEmpty run.phase → run.queue = []
  isOver : ∀ processed, run.phase = .done (.ok processed) →
    ∀ id ∈ selected, ∀ candid, getI64 id = some candid → ∃ batch ∈ run.enriched, candid ∈ batch
  workers : run.phase = .populating → run.workers = []

variable {settings : Settings} {selected : List Bson} {run : Run}

theorem Tracked.mono {after : Run} {candid : Int} (tracked : run.Tracked candid) {index : Nat} {worker : Worker}
    (at_ : run.workers[index]? = some worker) {next : Worker} (workers : after.workers = run.workers.set index next)
    (queue : candid ∈ run.queue → after.Tracked candid) (held : candid ∈ worker.stage.held → after.Tracked candid)
    (enriched : ∀ batch ∈ run.enriched, batch ∈ after.enriched) : after.Tracked candid := by
  rcases tracked with queued | ⟨other, inWorkers, holds⟩ | ⟨batch, done, member⟩
  · exact queue queued
  · obtain ⟨place, found⟩ := List.mem_iff_getElem?.mp inWorkers
    by_cases same : index = place
    · subst same
      rw [at_] at found
      exact held (Option.some.inj found ▸ holds)
    · refine .inr (.inl ⟨other, ?_, holds⟩)
      rw [workers]
      exact List.mem_iff_getElem?.mpr ⟨place, by rw [List.getElem?_set_ne same]; exact found⟩
  · exact .inr (.inr ⟨batch, enriched batch done, member⟩)

theorem held_set {after : Run} {candid : Int} {index : Nat} {worker next : Worker}
    (at_ : run.workers[index]? = some worker) (workers : after.workers = run.workers.set index next)
    (holds : candid ∈ next.stage.held) : after.Tracked candid := by
  obtain ⟨bound, _⟩ := List.getElem?_eq_some_iff.mp at_
  refine .inr (.inl ⟨next, ?_, holds⟩)
  rw [workers]
  exact List.mem_set bound next

theorem accounted_worker {after : Run} (accounted : run.Accounted selected) {index : Nat} {worker next : Worker}
    (at_ : run.workers[index]? = some worker) (phase : after.phase = run.phase)
    (workers : after.workers = run.workers.set index next)
    (queue : ∀ candid ∈ run.queue, after.Tracked candid) (emptied : run.queue = [] → after.queue = [])
    (held : ∀ candid ∈ worker.stage.held, after.Tracked candid)
    (enriched : ∀ batch ∈ run.enriched, batch ∈ after.enriched) : after.Accounted selected := by
  constructor
  · intro going filled id member candid wide
    rw [phase] at filled
    have tracked := accounted.tracked (phase ▸ going) filled id member candid wide
    exact tracked.mono at_ workers (queue candid) (held candid) enriched
  · intro seen
    exact emptied (accounted.empty (phase ▸ seen))
  · intro processed done id member candid wide
    obtain ⟨batch, inEnriched, inBatch⟩ := accounted.isOver processed (phase ▸ done) id member candid wide
    exact ⟨batch, enriched batch inEnriched, inBatch⟩
  · intro populating
    rw [workers, accounted.workers (phase ▸ populating)]
    rfl

theorem accounted_phase (accounted : run.Accounted selected) (phase : Phase)
    (going : ∀ result, run.phase ≠ .done result) (filled : run.phase ≠ .populating)
    (unfinished : ∀ result, phase ≠ .done result) (notAgain : phase ≠ .populating)
    (empty : seenEmpty phase → run.queue = []) : ({ run with phase } : Run).Accounted selected where
  tracked := fun _ _ => accounted.tracked going filled
  empty := empty
  isOver := fun _ done => absurd done (unfinished _)
  workers := fun again => absurd again notAgain

theorem accounted_populate : (run.populated settings selected).Accounted selected := by
  unfold populated
  dsimp only
  split
  next none =>
    refine ⟨fun going => absurd rfl (going _), nofun, ?_, nofun⟩
    intro _ _ id member candid wide
    exact absurd none (populate_spec run.queue selected member wide).2
  next =>
    refine ⟨fun _ _ id member candid wide => ?_, ?_, nofun, nofun⟩
    · exact .inl (populate_spec run.queue selected member wide).1
    · intro seen
      exact absurd seen (Nat.lt_irrefl 0)

theorem accounted_join (accounted : run.Accounted selected) {outcome : Except TaskError Nat}
    (drained : run.phase = .drained outcome) (finished : ∀ worker ∈ run.workers, worker.stage.isFinished = true)
    (attended : Attended run) : ({ run with phase := .done outcome, queue := [] } : Run).Accounted selected := by
  refine ⟨fun going => absurd rfl (going outcome), nofun, ?_, nofun⟩
  rintro processed ⟨⟩ id member candid wide
  have tracked := accounted.tracked (by simp [drained]) (by simp [drained]) id member candid wide
  rcases tracked with queued | ⟨worker, inWorkers, holds⟩ | enriched
  · have empty : run.queue = [] := accounted.empty (by rw [drained]; trivial)
    rw [empty] at queued
    cases queued
  · exfalso
    have gone := finished worker inWorkers
    have lost := attended processed drained worker inWorkers
    cases shape : worker.stage <;> simp [shape, Stage.isFinished, Stage.lost, Stage.held] at gone lost holds
    rw [lost] at holds
    cases holds
  · exact enriched

theorem accounted_step {after : Run} (accounted : run.Accounted selected) (attended : Attended run)
    (step : Step settings selected run after) : after.Accounted selected := by
  cases step with
  | populate populating => exact accounted_populate
  | populateFails error populating => exact ⟨fun going => absurd rfl (going _), nofun, nofun, nofun⟩
  | cancel sleeping =>
    exact accounted_phase accounted _ (by simp [sleeping]) (by simp [sleeping]) nofun nofun nofun
  | @check emptyStreak sleeping =>
    unfold Run.check
    split
    next => exact accounted_phase accounted _ (by simp [sleeping]) (by simp [sleeping]) nofun nofun nofun
    next =>
      refine accounted_phase accounted _ (by simp [sleeping]) (by simp [sleeping]) nofun nofun fun seen => ?_
      exact accounted.empty (by rw [sleeping]; exact seen)
  | length polling =>
    unfold Run.length
    split
    next empty =>
      split
      next => exact accounted_phase accounted _ (by simp [polling]) (by simp [polling]) nofun nofun fun _ => empty
      next => exact accounted_phase accounted _ (by simp [polling]) (by simp [polling]) nofun nofun fun _ => empty
    next =>
      refine accounted_phase accounted _ (by simp [polling]) (by simp [polling]) nofun nofun fun seen => ?_
      exact absurd seen (Nat.lt_irrefl 0)
  | lengthFails polling =>
    exact accounted_phase accounted _ (by simp [polling]) (by simp [polling]) nofun nofun nofun
  | @sendTerm outcome index worker drained at_ =>
    refine accounted_worker accounted at_ rfl rfl (fun _ queued => .inl queued) id ?_ fun _ member => member
    exact fun candid holds => held_set at_ rfl holds
  | join drained finished => exact accounted_join accounted drained finished attended
  | start at_ starting =>
    refine accounted_worker accounted at_ rfl rfl (fun _ queued => .inl queued) id ?_ fun _ member => member
    rw [starting]
    exact nofun
  | startFails at_ starting =>
    refine accounted_worker accounted at_ rfl rfl (fun _ queued => .inl queued) id ?_ fun _ member => member
    rw [starting]
    exact nofun
  | enter at_ looping =>
    refine accounted_worker accounted at_ rfl rfl (fun _ queued => .inl queued) id ?_ fun _ member => member
    rw [looping]
    exact nofun
  | @pop index countdown worker at_ popping =>
    unfold Run.pop
    dsimp only
    split
    next =>
      refine accounted_worker accounted at_ rfl rfl (fun _ queued => .inl queued) id ?_ fun _ member => member
      rw [popping]
      exact nofun
    next =>
      refine accounted_worker accounted at_ rfl rfl ?_ ?_ ?_ fun _ member => member
      · intro candid queued
        -- What leaves the queue is held by the worker that popped it.
        rcases mem_rpop.mp queued with popped | left
        · exact held_set at_ rfl popped
        · exact .inl left
      · intro empty
        simp [empty, Boom.Enrichment.rpop]
      · rw [popping]
        exact nofun
  -- The pop may have taken effect though it failed.
  | @popFails index countdown worker reached at_ popping =>
    cases reached with
    | false =>
      refine accounted_worker accounted at_ rfl rfl (fun _ queued => .inl queued) id ?_ fun _ member => member
      rw [popping]
      exact nofun
    | true =>
      refine accounted_worker accounted at_ rfl rfl ?_ ?_ ?_ fun _ member => member
      · intro candid queued
        rcases mem_rpop.mp queued with popped | left
        · exact held_set at_ rfl popped
        · exact .inl left
      · intro empty
        simp [empty, Boom.Enrichment.rpop]
      · rw [popping]
        exact nofun
  | @process index countdown batch worker at_ processing =>
    refine accounted_worker accounted at_ rfl rfl (fun _ queued => .inl queued) id ?_
      fun _ member => List.mem_append_left _ member
    rw [processing]
    exact fun candid holds => .inr (.inr ⟨batch, by simp, holds⟩)
  -- A batch that fails stays with its worker, as what it has lost.
  | processFails at_ processing =>
    refine accounted_worker accounted at_ rfl rfl (fun _ queued => .inl queued) id ?_ fun _ member => member
    rw [processing]
    exact fun candid holds => held_set at_ rfl holds
  | exit at_ failing =>
    refine accounted_worker accounted at_ rfl rfl (fun _ queued => .inl queued) id ?_ fun _ member => member
    rw [failing]
    exact fun candid holds => held_set at_ rfl holds

/-- A run that ends well has enriched what it queued, if no batch is lost once the queue
    counts as drained and the ids are wide. -/
theorem complete_of_attended (wide : ∀ id ∈ selected, ∀ value, id ≠ .int32 value)
    (reachable : Reachable Starts (AttendedStep settings selected) run) : Complete selected run := by
  have accounted : run.Accounted selected := by
    refine reachable.invariant (fun run => run.Accounted selected) ?_ ?_
    · intro run starts
      refine ⟨fun _ filled => absurd starts.phase filled, ?_, ?_, fun _ => starts.workers⟩
      · rw [starts.phase]
        exact nofun
      · rw [starts.phase]
        exact nofun
    · exact fun _ _ _ accounted step => accounted_step accounted step.2 step.1
  intro processed done id member candid integer
  refine accounted.isOver processed done id member candid ?_
  cases id with
  | int64 value => exact integer
  | int32 value => exact absurd rfl (wide _ member value)
  | _ => cases integer

/-! ### A run to its end -/

def oneWorker : Settings := ⟨1, 1, 1⟩

def oneAlert : List Bson := [.int64 7]

def submitted : Run := ⟨.populating, [], 0, [], []⟩

def popped : Run := ⟨.sleeping 0, [], 1, [⟨.processing [7] 0, false⟩], []⟩

theorem reachable_popped (allowed : Run → Prop)
    (early : ∀ run : Run, (∀ outcome, run.phase ≠ .drained outcome) → allowed run) :
    Reachable Starts (fun run after => Step oneWorker oneAlert run after ∧ allowed run) popped := by
  have start : Reachable Starts (fun run after => Step oneWorker oneAlert run after ∧ allowed run) submitted :=
    .start ⟨rfl, rfl, rfl⟩
  have filled := start.next ⟨.populate rfl, early _ nofun⟩
  have started := filled.next ⟨@Step.start _ _ _ 0 _ rfl rfl, early _ nofun⟩
  have entered := started.next ⟨@Step.enter _ _ _ 0 _ _ rfl rfl, early _ nofun⟩
  have taken := entered.next ⟨@Step.pop _ _ _ 0 _ _ rfl rfl, early _ nofun⟩
  exact taken

theorem reachable_drained {allowed : Run → Prop} (early : ∀ run : Run, (∀ outcome, run.phase ≠ .drained outcome) →
      allowed run) {run : Run}
    (reachable : Reachable Starts (fun run after => Step settings selected run after ∧ allowed run) run)
    (sleeping : run.phase = .sleeping 0) (empty : run.queue = [])
    (going : run.workers.any (·.stage.isFinished) = false) :
    Reachable Starts (fun run after => Step settings selected run after ∧ allowed run)
      { run with phase := .drained (.ok run.queued) } := by
  have first := reachable.next ⟨.check sleeping, early _ (by simp [sleeping])⟩
  have alive : run.check 0 = { run with phase := .polling 0 } := by simp [Run.check, going]
  rw [alive] at first
  have read := first.next ⟨.length rfl, early _ nofun⟩
  have once : Run.length { run with phase := .polling 0 } 0 = { run with phase := .sleeping 1 } := by
    simp [Run.length, empty]
  rw [once] at read
  have second := read.next ⟨.check rfl, early _ nofun⟩
  have still : Run.check { run with phase := .sleeping 1 } 1 = { run with phase := .polling 1 } := by
    simp [Run.check, going]
  rw [still] at second
  have again := second.next ⟨.length rfl, early _ nofun⟩
  have twice : Run.length { run with phase := .polling 1 } 1 = { run with phase := .drained (.ok run.queued) } := by
    simp [Run.length, empty]
  exact twice ▸ again

def finishedWell : Run := ⟨.done (.ok 1), [], 1, [⟨.terminated, true⟩], [[7]]⟩

theorem attended_early (run : Run) (going : ∀ outcome, run.phase ≠ .drained outcome) : Attended run :=
  fun _ drained => absurd drained (going _)

theorem reachable_finishedWell : Reachable Starts (AttendedStep oneWorker oneAlert) finishedWell := by
  have taken := reachable_popped Attended attended_early
  have enriched := taken.next ⟨@Step.process _ _ _ 0 _ _ _ rfl rfl, attended_early _ nofun⟩
  have drained := reachable_drained attended_early enriched rfl rfl rfl
  have told := drained.next ⟨@Step.sendTerm _ _ _ _ 0 _ rfl rfl, fun _ _ => by decide⟩
  have ended := told.next ⟨@Step.enter _ _ _ 0 _ _ rfl rfl, fun _ _ => by decide⟩
  have joined := ended.next ⟨.join rfl (by decide), fun _ _ => by decide⟩
  exact joined

theorem complete_of_attended_finishedWell : Complete oneAlert finishedWell :=
  complete_of_attended (by simp [oneAlert]) reachable_finishedWell

def finishedBadly : Run := ⟨.done (.ok 1), [], 1, [⟨.exited [7], false⟩], []⟩

theorem reachable_finishedBadly : Reachable Starts (Step oneWorker oneAlert) finishedBadly := by
  have taken := reachable_popped (fun _ => True) fun _ _ => trivial
  have drained := reachable_drained (fun _ _ => trivial) taken rfl rfl rfl
  have failed := drained.next ⟨@Step.processFails _ _ _ 0 _ _ _ rfl rfl, trivial⟩
  have gone := failed.next ⟨@Step.exit _ _ _ 0 _ _ rfl rfl, trivial⟩
  have joined := gone.next ⟨.join rfl (by decide), trivial⟩
  exact Reachable.mono (fun _ _ step => step.1) joined

/-- A run returns `Ok` though the alert it queued was never enriched. -/
theorem lost_after_drain :
    ¬ ∀ settings selected run, Reachable Starts (Step settings selected) run → Complete selected run := by
  intro always
  obtain ⟨batch, enriched, _⟩ := always oneWorker oneAlert finishedBadly reachable_finishedBadly 1 rfl
    (.int64 7) (by simp [oneAlert]) 7 rfl
  cases enriched

end Run

end Boom.Tasks.Reprocess
