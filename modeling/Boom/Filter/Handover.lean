import Boom.Filter.Loop

/-! # What transient faults can lose

A pop that took effect and is answered with an error is tried again, and the next one gets
other elements (`pop_loses`).  A push that is tried again only puts the same strings into
the list twice.  A report of a failed delivery is logged, and the worker goes on.

Without faults of the first kind on the enrichment list and of the last kind nothing gets
lost that was pushed there, returned or matched (`nothing_lost`): what a step takes out of one
place it puts into the next (`Passes`). -/

namespace Boom.Filter

open Boom.Foundations Boom.Enrichment
open Boom.Alert (defaultMaxRetries)

variable {α : Type}

def Harmless (turn : Turn α) (pipeline : Pipeline α) : Worker α → Prop
  | .enrichment (.polling _) => turn.delivery = .lost → pipeline.candids = []
  | .filter (.awaiting (_ :: _) _) => turn.delivery = .answered
  | _ => True

/-- Everything that was taken in is somewhere. -/
structure NothingLost (system : Requests (Pipeline α) (Worker α)) : Prop where
  candids : ∀ item ∈ system.store.pushed, item ∈ system.store.candids ∨
    (∃ slot worker, system.slots slot = some worker ∧ item ∈ worker.candids) ∨ item ∈ system.store.enriched
  strings : ∀ slot item, (slot, item) ∈ system.store.returned →
    (∃ worker, system.slots slot = some worker ∧ item ∈ worker.strings) ∨ item ∈ system.store.queued
  alerts : ∀ slot item, (slot, item) ∈ system.store.matched →
    (∃ worker, system.slots slot = some worker ∧ item ∈ worker.alerts) ∨ item ∈ system.store.acknowledged

/-- What a step does with all it finds. -/
structure Passes (slot : Nat) (before : Pipeline α) (worker : Worker α) (after : Pipeline α) (worker' : Worker α) : Prop where
  pushed : after.pushed = before.pushed
  listed : ∀ item ∈ before.candids, item ∈ after.candids ∨ item ∈ worker'.candids
  candids : ∀ item ∈ worker.candids, item ∈ worker'.candids ∨ item ∈ after.enriched
  enriched : before.enriched ⊆ after.enriched
  returned : ∀ other item, (other, item) ∈ after.returned →
    (other, item) ∈ before.returned ∨ other = slot ∧ item ∈ worker'.strings
  strings : ∀ item ∈ worker.strings, item ∈ worker'.strings ∨ item ∈ after.queued
  queued : before.queued ⊆ after.queued
  matched : ∀ other item, (other, item) ∈ after.matched →
    (other, item) ∈ before.matched ∨ other = slot ∧ item ∈ worker'.alerts
  alerts : ∀ item ∈ worker.alerts, item ∈ worker'.alerts ∨ item ∈ after.acknowledged
  acknowledged : before.acknowledged ⊆ after.acknowledged

variable {worker worker' : Worker α}

theorem Passes.quiet {slot : Nat} {before after : Pipeline α} (pushed : after.pushed = before.pushed)
    (enriched : after.enriched = before.enriched) (returned : after.returned = before.returned)
    (queued : after.queued = before.queued) (matched : after.matched = before.matched)
    (acknowledged : after.acknowledged = before.acknowledged)
    (listed : ∀ item ∈ before.candids, item ∈ after.candids ∨ item ∈ worker'.candids)
    (candids : worker.candids ⊆ worker'.candids) (strings : worker.strings ⊆ worker'.strings)
    (alerts : worker.alerts ⊆ worker'.alerts) : Passes slot before worker after worker' where
  pushed := pushed
  listed := listed
  candids := fun _ member => .inl (candids member)
  enriched := by rw [enriched]; exact List.Subset.refl _
  returned := fun _ _ member => .inl (by rwa [returned] at member)
  strings := fun _ member => .inl (strings member)
  queued := by rw [queued]; exact List.Subset.refl _
  matched := fun _ _ member => .inl (by rwa [matched] at member)
  alerts := fun _ member => .inl (alerts member)
  acknowledged := by rw [acknowledged]; exact List.Subset.refl _

theorem Passes.same {slot : Nat} {pipeline : Pipeline α} (candids : worker.candids ⊆ worker'.candids)
    (strings : worker.strings ⊆ worker'.strings) (alerts : worker.alerts ⊆ worker'.alerts) :
    Passes slot pipeline worker pipeline worker' :=
  .quiet rfl rfl rfl rfl rfl rfl (fun _ member => .inl member) candids strings alerts

variable {system : Requests (Pipeline α) (Worker α)}

theorem NothingLost.step (lost : NothingLost system) {slot : Nat}
    {after : Pipeline α} (running : system.slots slot = some worker)
    (passes : Passes slot system.store worker after worker') : NothingLost (system.put slot after worker') where
  candids := by
    intro item member
    rw [Requests.put_store, passes.pushed] at member
    rcases lost.candids item member with listed | ⟨other, held⟩ | enriched
    · rcases passes.listed item listed with still | taken
      · exact .inl still
      · exact .inr (.inl ⟨slot, worker', Requests.put_slots_self _ _ _ _, taken⟩)
    · exact .inr ((Requests.has_put after running (passes.candids item) held).imp (fun held => ⟨other, held⟩) id)
    · exact .inr (.inr (passes.enriched enriched))
  strings := by
    intro other item member
    rcases passes.returned other item member with old | ⟨rfl, taken⟩
    · rcases lost.strings other item old with held | queued
      · exact Requests.has_put after running (passes.strings item) held
      · exact .inr (passes.queued queued)
    · exact .inl ⟨worker', Requests.put_slots_self _ _ _ _, taken⟩
  alerts := by
    intro other item member
    rcases passes.matched other item member with old | ⟨rfl, taken⟩
    · rcases lost.alerts other item old with held | acknowledged
      · exact Requests.has_put after running (passes.alerts item) held
      · exact .inr (passes.acknowledged acknowledged)
    · exact .inl ⟨worker', Requests.put_slots_self _ _ _ _, taken⟩

/-! ## The steps of the loops -/

section Steps

variable {turn : Turn α} {slot batchSize : Nat} {pipeline : Pipeline α}

theorem again_of_suffers {ω : Type} {again : Nat → ω} {giveUp : ω} {retries : Nat}
    (suffers : turn.delivery = .answered ∨ turn.transient = true ∧ 0 < retries) (failed : turn.delivery ≠ .answered) :
    retryTransient again giveUp retries turn.transient = again (retries - 1) := by
  rcases suffers with answered | ⟨transient, left⟩
  · exact absurd answered failed
  · rw [transient, retryTransient_of_left left]

theorem passes_enrichment (worker : EnrichmentWorker) (suffers : (Worker.enrichment worker : Worker α).Suffers turn)
    (harmless : Harmless turn pipeline (.enrichment worker)) :
    Passes slot pipeline (.enrichment worker) (worker.act batchSize turn slot pipeline).1
      (.enrichment (worker.act batchSize turn slot pipeline).2) := by
  cases worker with
  | polling retries =>
    simp only [EnrichmentWorker.act]
    split
    next =>
      refine .quiet rfl rfl rfl rfl rfl rfl ?_ (List.nil_subset _) (List.nil_subset _) (List.nil_subset _)
      intro item listed
      have either : item ∈ (rpop batchSize pipeline.candids).1 ∨ item ∈ (rpop batchSize pipeline.candids).2 := mem_rpop.mp listed
      rcases either with popped | left
      · right
        split
        next empty =>
          rw [List.isEmpty_iff.mp empty] at popped
          cases popped
        next => exact popped
      · exact .inl left
    next lost =>
      -- there was nothing to take
      have empty : pipeline.candids = [] := harmless lost
      refine .quiet rfl rfl rfl rfl rfl rfl ?_ (List.nil_subset _) (List.nil_subset _) (List.nil_subset _)
      intro item listed
      rw [empty] at listed
      cases listed
    next => exact .same (List.nil_subset _) (List.nil_subset _) (List.nil_subset _)
  | enriching batch =>
    simp only [EnrichmentWorker.act]
    split
    next failed => exact absurd failed suffers
    next strings _ =>
      refine ⟨rfl, fun _ listed => .inl listed, ?_, List.subset_append_left _ _, ?_, fun _ member => absurd member List.not_mem_nil,
        List.Subset.refl _, fun _ _ member => .inl member, fun _ member => absurd member List.not_mem_nil, List.Subset.refl _⟩
      · exact fun item member => .inr (List.mem_append_right _ member)
      · intro other item member
        rcases List.mem_append.mp member with old | new
        · exact .inl old
        · obtain ⟨_, isNew, same⟩ := List.mem_map.mp new
          obtain ⟨rfl, rfl⟩ := Prod.mk.inj same
          refine .inr ⟨rfl, ?_⟩
          split
          next empty => simp [List.isEmpty_iff.mp empty] at isNew
          next => exact isNew
  | pushing items retries =>
    have pushed : ∀ worker' : Worker α, Passes slot pipeline (.enrichment (.pushing items retries))
        { pipeline with strings := lpush items pipeline.strings, queued := pipeline.queued ++ items } worker' := fun worker' =>
      ⟨rfl, fun _ listed => .inl listed, fun _ member => absurd member List.not_mem_nil, List.Subset.refl _, fun _ _ member => .inl member,
        fun _ member => .inr (List.mem_append_right _ member), List.subset_append_left _ _, fun _ _ member => .inl member,
        fun _ member => absurd member List.not_mem_nil, List.Subset.refl _⟩
    simp only [EnrichmentWorker.act]
    split
    next => exact pushed _
    next => exact pushed _
    next refused =>
      rw [again_of_suffers suffers (by simp [refused])]
      exact .same (List.nil_subset _) (List.Subset.refl _) (List.nil_subset _)
  | stopped => exact .same (List.nil_subset _) (List.nil_subset _) (List.nil_subset _)

theorem passes_filter (worker : FilterWorker α) (suffers : (Worker.filter worker).Suffers turn)
    (harmless : Harmless turn pipeline (.filter worker)) :
    Passes slot pipeline (.filter worker) (worker.act turn slot pipeline).1 (.filter (worker.act turn slot pipeline).2) := by
  cases worker with
  | polling retries =>
    have taken : ∀ rest worker', Passes slot pipeline (.filter (.polling retries)) { pipeline with strings := rest } worker' :=
      fun rest worker' => .quiet rfl rfl rfl rfl rfl rfl (fun _ listed => .inl listed) (List.nil_subset _) (List.nil_subset _)
        (List.nil_subset _)
    simp only [FilterWorker.act]
    split
    next => exact taken _ _
    next => exact taken _ _
    next => exact .same (List.nil_subset _) (List.nil_subset _) (List.nil_subset _)
  | filtering batch =>
    simp only [FilterWorker.act]
    split
    next failed => exact absurd failed suffers
    next alerts _ =>
      refine ⟨rfl, fun _ listed => .inl listed, fun _ member => absurd member List.not_mem_nil, List.Subset.refl _, fun _ _ member => .inl member,
        fun _ member => absurd member List.not_mem_nil, List.Subset.refl _, ?_, fun _ member => absurd member List.not_mem_nil, List.Subset.refl _⟩
      intro other item member
      rcases List.mem_append.mp member with old | new
      · exact .inl old
      · obtain ⟨_, isNew, same⟩ := List.mem_map.mp new
        obtain ⟨rfl, rfl⟩ := Prod.mk.inj same
        exact .inr ⟨rfl, List.mem_append_left _ isNew⟩
  | sending unsent retries inFlight =>
    cases unsent with
    | nil => exact .same (List.nil_subset _) (List.nil_subset _) (List.Subset.refl _)
    | cons alert unsent =>
      simp only [FilterWorker.act]
      split
      next =>
        apply Passes.same (List.nil_subset _) (List.nil_subset _)
        intro item member
        simp only [Worker.alerts, FilterWorker.alerts, List.mem_append, List.mem_cons, List.not_mem_nil, or_false] at member ⊢
        grind
      next lost =>
        rw [again_of_suffers suffers (by simp [lost])]
        exact .quiet rfl rfl rfl rfl rfl rfl (fun _ listed => .inl listed) (List.nil_subset _) (List.nil_subset _)
          (List.Subset.refl _)
      next refused =>
        rw [again_of_suffers suffers (by simp [refused])]
        exact .same (List.nil_subset _) (List.nil_subset _) (List.Subset.refl _)
  | awaiting inFlight failed =>
    cases inFlight with
    | nil => exact .same (List.nil_subset _) (List.nil_subset _) (List.nil_subset _)
    | cons alert rest =>
      have answered : turn.delivery = .answered := harmless
      simp only [FilterWorker.act, answered]
      refine ⟨rfl, fun _ listed => .inl listed, fun _ member => absurd member List.not_mem_nil, List.Subset.refl _, fun _ _ member => .inl member,
        fun _ member => absurd member List.not_mem_nil, List.Subset.refl _, fun _ _ member => .inl member, ?_, List.subset_append_left _ _⟩
      intro item member
      rcases List.mem_cons.mp member with rfl | later
      · exact .inr (List.mem_append_right _ (List.mem_singleton.mpr rfl))
      · exact .inl later
  | stopped => exact .same (List.nil_subset _) (List.nil_subset _) (List.nil_subset _)

end Steps

/-! ## Runs -/

def PipelineInitial (pipeline : Pipeline α) : Prop :=
  pipeline.pushed ⊆ pipeline.candids ∧ pipeline.returned = [] ∧ pipeline.matched = []

theorem NothingLost.acts {batchSize slot : Nat} (lost : NothingLost system)
    {after : Pipeline α} (running : system.slots slot = some worker)
    (acted : PipelineActs batchSize Harmless slot system.store worker after worker') :
    NothingLost (system.put slot after worker') := by
  cases acted with
  | turn turn suffers harmless =>
    cases worker with
    | enrichment worker => exact lost.step running (passes_enrichment worker suffers harmless)
    | filter worker => exact lost.step running (passes_filter worker suffers harmless)
  | terminate top =>
    refine lost.step running ?_
    unfold Worker.terminates at top
    split at top
    · exact .same (List.nil_subset _) (List.nil_subset _) (List.nil_subset _)
    · exact .same (List.nil_subset _) (List.nil_subset _) (List.nil_subset _)
    · cases top

theorem NothingLost.start (lost : NothingLost system) {slot : Nat}
    (free : system.slots slot = none) (worker : Worker α) : NothingLost (system.put slot system.store worker) where
  candids := by
    intro item member
    rcases lost.candids item member with listed | ⟨other, held, isHeld, has⟩ | enriched
    · exact .inl listed
    · refine .inr (.inl ⟨other, held, ?_, has⟩)
      rw [Requests.put_slots_ne _ (by rintro rfl; rw [free] at isHeld; cases isHeld), isHeld]
    · exact .inr (.inr enriched)
  strings := by
    intro other item member
    refine (lost.strings other item member).imp ?_ id
    rintro ⟨held, isHeld, has⟩
    exact ⟨held, by rw [Requests.put_slots_ne _ (by rintro rfl; rw [free] at isHeld; cases isHeld), isHeld], has⟩
  alerts := by
    intro other item member
    refine (lost.alerts other item member).imp ?_ id
    rintro ⟨held, isHeld, has⟩
    exact ⟨held, by rw [Requests.put_slots_ne _ (by rintro rfl; rw [free] at isHeld; cases isHeld), isHeld], has⟩

theorem NothingLost.push (lost : NothingLost system) {after : Pipeline α}
    (pushed : CandidPushed system.store after) : NothingLost { system with store := after } := by
  cases pushed with
  | push candid =>
    refine ⟨?_, lost.strings, lost.alerts⟩
    intro item member
    rcases List.mem_append.mp member with old | new
    · exact (lost.candids item old).imp (fun listed => mem_lpush.mpr (.inr listed)) id
    · exact .inl (mem_lpush.mpr (.inl new))

/-- No alert is lost between the alert collection and Kafka, in every run whose pops and
    reports are harmless: whatever else fails, and however often it is tried again. -/
theorem nothing_lost (batchSize : Nat) {system : Requests (Pipeline α) (Worker α)}
    (run : Requests.Run (pipelineRules batchSize Harmless) PipelineInitial system) : NothingLost system := by
  refine Reachable.invariant NothingLost ?_ ?_ run
  · rintro system ⟨⟨listed, returned, matched⟩, _⟩
    refine ⟨fun item member => .inl (listed member), fun _ _ member => ?_, fun _ _ member => ?_⟩
    · rw [returned] at member
      cases member
    · rw [matched] at member
      cases member
  · intro system after _ lost taken
    cases taken with
    | start free _ => exact lost.start free _
    | act running acted => exact lost.acts running acted
    | outside pushed => exact lost.push pushed

def turnBy (batchSize : Nat) (choose : Worker α → Turn α) (slot : Nat) (pipeline : Pipeline α) (worker : Worker α) :
    Option (Pipeline α × Worker α) :=
  some (worker.act batchSize (choose worker) slot pipeline)

theorem acts_of_turnBy {batchSize : Nat} {choose : Worker α → Turn α} {may : Turn α → Pipeline α → Worker α → Prop}
    (suffers : ∀ worker : Worker α, worker.Suffers (choose worker)) (allowed : ∀ pipeline worker, may (choose worker) pipeline worker)
    (slot : Nat) (pipeline : Pipeline α) (worker : Worker α) (after : Pipeline α) (worker' : Worker α)
    (turned : turnBy batchSize choose slot pipeline worker = some (after, worker')) :
    (pipelineRules batchSize may).acts slot pipeline worker after worker' := by
  have acted := Option.some.inj turned
  rw [show after = (worker.act batchSize (choose worker) slot pipeline).1 by rw [acted],
    show worker' = (worker.act batchSize (choose worker) slot pipeline).2 by rw [acted]]
  exact .turn (choose worker) (suffers worker) (allowed pipeline worker)

def answered : Turn Nat := ⟨.answered, true, some ["alert"], some [7]⟩

def repeats : Worker Nat → Turn Nat
  | .enrichment (.pushing _ 5) => { answered with delivery := .lost }
  | .filter (.sending (_ :: _) 5 _) => { answered with delivery := .refused }
  | _ => answered

def listOfOne : Requests (Pipeline Nat) (Worker Nat) :=
  let pipeline : Pipeline Nat := ⟨[⟨0, 3⟩], [], [], [⟨0, 3⟩], [], [], [], [], []⟩
  ((⟨pipeline, fun _ => none⟩ : Requests (Pipeline Nat) (Worker Nat)).put 0 pipeline (.enrichment .next)).put 1 pipeline
    (.filter .next)

theorem listOfOne_run (rules : Requests.Rules (Pipeline Nat) (Worker Nat))
    (starts : ∀ slot pipeline, rules.starts slot pipeline (.enrichment .next) ∧ rules.starts slot pipeline (.filter .next)) :
    Requests.Run rules PipelineInitial listOfOne := by
  have nobody : Requests.Run rules PipelineInitial ⟨⟨[⟨0, 3⟩], [], [], [⟨0, 3⟩], [], [], [], [], []⟩, fun _ => none⟩ :=
    Reachable.start ⟨⟨List.Subset.refl _, rfl, rfl⟩, fun _ => rfl⟩
  exact (nobody.start 0 _ rfl (starts _ _).1).start 1 _ rfl (starts _ _).2

def handedOver : Requests (Pipeline Nat) (Worker Nat) :=
  listOfOne.schedule (turnBy 8 repeats) [0, 0, 0, 0, 1, 1, 1, 1, 1, 1, 1, 1]

/-- The string is in the list twice, and the alert is acknowledged all the same. -/
theorem nothing_lost_repeats :
    handedOver.store.queued.map Item.value = ["alert", "alert"] ∧ handedOver.store.acknowledged.map Item.value = [7] ∧
      NothingLost handedOver := by
  have start : Requests.Run (pipelineRules 8 Harmless) PipelineInitial listOfOne :=
    listOfOne_run _ fun _ _ => ⟨.inl rfl, .inr rfl⟩
  have suffers : ∀ worker : Worker Nat, worker.Suffers (repeats worker) := by
    intro worker
    unfold repeats
    split
    · exact .inr ⟨rfl, by decide⟩
    · exact .inr ⟨rfl, by decide⟩
    · unfold Worker.Suffers
      split <;> simp [answered]
  have harmless : ∀ pipeline worker, Harmless (repeats worker) pipeline worker := by
    intro pipeline worker
    unfold repeats
    split
    · trivial
    · trivial
    · unfold Harmless
      split <;> simp [answered]
  have run := start.schedule (acts_of_turnBy suffers harmless) [0, 0, 0, 0, 1, 1, 1, 1, 1, 1, 1, 1]
  exact ⟨by decide +kernel, by decide +kernel, nothing_lost 8 run⟩

def losesPop : Worker Nat → Turn Nat
  | .enrichment (.polling 5) => { answered with delivery := .lost }
  | _ => answered

def popLost : Requests (Pipeline Nat) (Worker Nat) :=
  listOfOne.schedule (turnBy 8 losesPop) [0, 0]

/-- A pop that took effect loses its elements, if its answer is lost. -/
theorem pop_loses : Requests.Run (pipelineRules 8 fun _ _ _ => True) PipelineInitial popLost ∧ ¬ NothingLost popLost := by
  have start : Requests.Run (pipelineRules 8 fun _ _ _ => True) PipelineInitial listOfOne :=
    listOfOne_run _ fun _ _ => ⟨.inl rfl, .inr rfl⟩
  have suffers : ∀ worker : Worker Nat, worker.Suffers (losesPop worker) := by
    intro worker
    unfold losesPop
    split
    · exact .inr ⟨rfl, by decide⟩
    · unfold Worker.Suffers
      split <;> simp [answered]
  refine ⟨start.schedule (acts_of_turnBy suffers fun _ _ => trivial) [0, 0], fun lost => ?_⟩
  have pushed : (⟨0, 3⟩ : Item Int) ∈ popLost.store.pushed := by decide +kernel
  rcases lost.candids _ pushed with listed | ⟨slot, worker, isWorker, holds⟩ | enriched
  · exact absurd listed (by decide +kernel)
  · -- the worker has nothing, and there is no other one that had a turn
    by_cases polls : slot = 0
    · subst polls
      have isPolling : popLost.slots 0 = some (.enrichment .next) := by decide +kernel
      obtain rfl := Option.some.inj (isPolling.symm.trans isWorker)
      cases holds
    · rw [popLost, Requests.schedule_slots_of_notMem _ _ _ (by simp [polls])] at isWorker
      by_cases filters : slot = 1
      · subst filters
        have isFilter : listOfOne.slots 1 = some (.filter .next) := Requests.put_slots_self _ _ _ _
        obtain rfl := Option.some.inj (isFilter.symm.trans isWorker)
        cases holds
      · simp [listOfOne, Requests.put_slots_ne, polls, filters] at isWorker
  · exact absurd enriched (by decide +kernel)

end Boom.Filter
