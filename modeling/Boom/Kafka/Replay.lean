import Boom.Kafka.Delivery

/-! # Reading before positioning

A partition without a committed offset is read from its earliest message until a pass
positions it.  The loop that waits for the first message hands nothing on before a pass went
through.  The main loop does not wait: a partition that a rebalance brings is positioned by
the next periodic check only, and what a poll returns before is pushed. -/

namespace Boom.Kafka

open Boom.Foundations

variable {Member : Type}

def Positioning.uncommitted (fresh : List TopicPartition) : Positioning → List TopicPartition
  | .committed => fresh
  | .resuming _ toResolve | .resolving toResolve => toResolve
  | .seeking rest toCommit => rest.map Prod.fst ++ toCommit.map Prod.fst
  | .committing toCommit => toCommit.map Prod.fst
  | .answering _ | .returned _ => []

def Consumer.Unchecked (state : Group Member) (consumer : Consumer) (partition : TopicPartition) : Prop :=
  state.committed partition = none ∧ partition ∈ consumer.arrived ∧ partition ∉ consumer.sought

namespace Consumer

structure Checked (state : Group Member) (consumer : Consumer) : Prop where
  positioned : ∀ partition ∈ consumer.positioned, state.committed partition ≠ none
  arrived : consumer.loop = .consuming → ∀ partition ∈ consumer.assigned,
    partition ∈ consumer.positioned ∨ partition ∈ consumer.arrived
  pass : ∀ pass, consumer.point = .positioning pass → pass.fresh = consumer.fresh ∧
    ∀ partition ∈ pass.fresh, state.committed partition ≠ none ∨ partition ∈ pass.stage.uncommitted pass.fresh
  received : ∀ partition offset, consumer.point = .received partition offset → consumer.loop = .consuming →
    partition ∈ consumer.assigned ∧ ¬ consumer.Unchecked state partition

variable {state after : Group Member} {consumer : Consumer}

section

variable (checked : consumer.Checked state)
include checked

theorem Checked.mono (committed : ∀ partition, state.committed partition ≠ none → after.committed partition ≠ none) :
    consumer.Checked after where
  positioned := fun partition there => committed partition (checked.positioned partition there)
  arrived := checked.arrived
  pass := fun pass busy => ⟨(checked.pass pass busy).1, fun partition there =>
    ((checked.pass pass busy).2 partition there).imp_left (committed partition)⟩
  received := fun partition offset has consumes => by
    refine ⟨(checked.received partition offset has consumes).1, fun unchecked => ?_⟩
    refine (checked.received partition offset has consumes).2 ⟨?_, unchecked.2⟩
    by_contra known
    exact committed partition known unchecked.1

theorem Checked.goTo (point : Point)
    (noPass : ∀ pass, point ≠ .positioning pass) (noMessage : ∀ partition offset, point ≠ .received partition offset) :
    (consumer.goTo point).Checked state where
  positioned := checked.positioned
  arrived := checked.arrived
  pass := fun pass busy => absurd busy (noPass pass)
  received := fun partition offset has => absurd has (noMessage partition offset)

theorem Checked.seek (partition : TopicPartition) (offset : Nat) : (consumer.seek partition offset).Checked state :=
  ⟨checked.positioned, checked.arrived, checked.pass, checked.received⟩

theorem Checked.reposition (caller : Caller) : (consumer.reposition caller).Checked state where
  positioned := checked.positioned
  arrived := checked.arrived
  pass := by
    intro pass busy
    obtain rfl := Point.positioning.inj busy
    refine ⟨rfl, fun partition there => .inr ?_⟩
    have some : consumer.fresh.isEmpty = false := by
      rw [List.isEmpty_eq_false_iff]
      exact List.ne_nil_of_mem there
    simpa [some, Positioning.uncommitted] using there
  received := fun _ _ has => by cases has

theorem Checked.firstMessage (partition : TopicPartition) (offset : Nat) :
    (consumer.firstMessage partition offset).Checked state := by
  unfold Consumer.firstMessage
  split
  · exact (checked.seek partition offset).reposition .firstMessage
  · exact checked.reposition .firstMessage

theorem Checked.advance {pass : Pass} (busy : consumer.point = .positioning pass)
    {stage : Positioning} (uncommitted : ∀ partition ∈ pass.stage.uncommitted pass.fresh,
      state.committed partition ≠ none ∨ partition ∈ stage.uncommitted pass.fresh) :
    (consumer.advance pass stage).Checked state where
  positioned := checked.positioned
  arrived := checked.arrived
  pass := by
    intro later same
    obtain rfl := Point.positioning.inj same
    obtain ⟨isFresh, each⟩ := checked.pass pass busy
    exact ⟨isFresh, fun partition there => (each partition there).elim .inl (uncommitted partition)⟩
  received := fun _ _ has => by cases has

theorem Checked.positionedBy {pass : Pass}
    (busy : consumer.point = .positioning pass) {toCommit : List (TopicPartition × Nat)}
    (next : pass.stage = .returned toCommit) : (consumer.positionedBy pass).Checked state := by
  obtain ⟨isFresh, each⟩ := checked.pass pass busy
  constructor
  · intro partition there
    rcases List.mem_append.mp there with fresh | known
    · have through := each partition fresh
      rw [next] at through
      exact through.resolve_right fun left => by cases left
    · exact checked.positioned partition known
  · intro _ partition assigned
    left
    show partition ∈ pass.fresh ++ consumer.positioned
    rw [isFresh, Consumer.fresh, List.mem_append, List.mem_filter]
    by_cases known : partition ∈ consumer.positioned
    · exact .inr known
    · exact .inl ⟨assigned, by simpa using known⟩
  · exact fun _ busy => by cases busy
  · exact fun _ _ has => by cases has

theorem Checked.assign (polls : consumer.point = .polling)
    (partition : TopicPartition) (committed : Option Nat) : (consumer.assign partition committed).Checked state where
  positioned := checked.positioned
  arrived := by
    intro consumes other there
    rcases List.mem_cons.mp there with rfl | earlier
    · exact .inr List.mem_cons_self
    · exact (checked.arrived consumes other earlier).imp_right (List.mem_cons_of_mem _)
  pass := by
    intro pass busy
    rw [show (consumer.assign partition committed).point = consumer.point from rfl, polls] at busy
    cases busy
  received := by
    intro other offset has
    rw [show (consumer.assign partition committed).point = consumer.point from rfl, polls] at has
    cases has

theorem Checked.revoke (polls : consumer.point = .polling)
    (partition : TopicPartition) : (consumer.revoke partition).Checked state where
  positioned := checked.positioned
  arrived := fun consumes other there => checked.arrived consumes other (List.mem_of_mem_filter there)
  pass := by
    intro pass busy
    rw [show (consumer.revoke partition).point = consumer.point from rfl, polls] at busy
    cases busy
  received := by
    intro other offset has
    rw [show (consumer.revoke partition).point = consumer.point from rfl, polls] at has
    cases has

theorem Checked.receive {partition : TopicPartition} (assigned : partition ∈ consumer.assigned)
    (permitted : consumer.loop = .consuming → ¬ consumer.Unchecked state partition) :
    (consumer.receive partition).Checked state where
  positioned := checked.positioned
  arrived := checked.arrived
  pass := fun _ busy => by cases busy
  received := by
    intro other offset has consumes
    obtain ⟨rfl, -⟩ := Point.received.inj has
    exact ⟨assigned, permitted consumes⟩

theorem Checked.roll (today : Int) (subscribes : Bool) :
    (consumer.rollSubscriptionIfNeeded today subscribes).Checked state := by
  unfold Consumer.rollSubscriptionIfNeeded
  split
  · exact checked
  · split
    · exact ⟨checked.positioned, checked.arrived, checked.pass, checked.received⟩
    · exact checked

end

end Consumer

namespace Group

def checkedFirst : Permits Member where
  append _ _ _ := True
  receive state consumer partition := consumer.loop = .consuming → ¬ consumer.Unchecked state partition

def Checked (state : Group Member) : Prop :=
  ∀ member consumer, state.consumers member = some consumer → consumer.Checked state

variable {state after : Group Member} {member : Member} {consumer changed : Consumer}

theorem Checked.mono (checked : state.Checked) (consumers : after.consumers = state.consumers)
    (committed : ∀ partition, state.committed partition ≠ none → after.committed partition ≠ none) :
    after.Checked :=
  fun member consumer running => (checked member consumer (consumers ▸ running)).mono committed

variable [DecidableEq Member]

theorem Checked.update (checked : state.Checked)
    (consumers : after.consumers = Function.update state.consumers member (some changed))
    (committed : ∀ partition, state.committed partition ≠ none → after.committed partition ≠ none)
    (mine : changed.Checked after) : after.Checked := by
  intro other consumer running
  rw [consumers] at running
  by_cases same : other = member
  · subst other
    rw [Function.update_self] at running
    cases running
    exact mine
  · rw [Function.update_of_ne same] at running
    exact (checked other consumer running).mono committed

theorem Checked.set (checked : state.Checked) (mine : changed.Checked state) : (state.set member changed).Checked :=
  checked.update rfl (fun _ known => known) (mine.mono fun _ known => known)

omit [DecidableEq Member] in
theorem commit_known {partition other : TopicPartition} {offset : Nat} (known : state.committed other ≠ none) :
    (state.commit partition offset).committed other ≠ none := by
  by_cases same : other = partition
  · subst other
    simp [Group.commit]
  · simpa [Group.commit, same] using known

omit [DecidableEq Member] in
theorem commitAll_known {offsets : List (TopicPartition × Nat)} {other : TopicPartition}
    (known : state.committed other ≠ none ∨ other ∈ offsets.map Prod.fst) :
    (state.commitAll offsets).committed other ≠ none := by
  induction offsets generalizing state with
  | nil => exact known.resolve_right fun there => by cases there
  | cons entry rest ih =>
    refine ih ?_
    rcases known with before | there
    · exact .inl (commit_known before)
    · rcases List.mem_cons.mp there with rfl | later
      · exact .inl (by simp [Group.commit])
      · exact .inr later

theorem Checked.step (checked : state.Checked) (taken : Step checkedFirst state after) : after.Checked := by
  cases taken with
  | append _ => exact checked.mono rfl fun _ known => known
  | midnight => exact checked.mono rfl fun _ known => known
  | spawn _ _ _ =>
    apply checked.set
    constructor
    · exact fun _ there => by cases there
    · exact fun consumes => by cases consumes
    · exact fun _ busy => by cases busy
    · exact fun _ _ has => by cases has
  | @crash member =>
    intro other consumer running
    -- A crash concerns the one consumer only.
    by_cases same : other = member
    · subst other
      simp [Group.crash] at running
    · have runs : state.consumers other = some consumer := by simpa [Group.crash, same] using running
      exact (checked other consumer runs).mono fun _ known => known
  | lose => exact checked.mono rfl fun _ known => known
  | autoCommit _ _ _ => exact checked.mono rfl fun _ known => commit_known known
  | assign running polls _ _ =>
    exact checked.update rfl (fun _ known => known)
      (((checked _ _ running).assign polls _ _).mono fun _ known => known)
  | revoke running polls =>
    exact checked.update rfl (fun _ known => known) (((checked _ _ running).revoke polls _).mono fun _ known => known)
  | roll running _ => exact checked.set ((checked _ _ running).roll _ _)
  | check running _ => exact checked.set ((checked _ _ running).reposition _)
  | receive running _ assigned _ permitted => exact checked.set ((checked _ _ running).receive assigned permitted)
  | firstMessage running _ _ => exact checked.set ((checked _ _ running).firstMessage _ _)
  | @push _ _ partition offset running has consumes =>
    have handed := (checked _ _ running).goTo (.pushed partition offset) (by simp) (by simp)
    exact checked.update rfl (fun _ known => known) (handed.mono fun _ known => known)
  | store running has =>
    have polls := (checked _ _ running).goTo .polling (by simp) (by simp)
    exact checked.set ⟨polls.positioned, polls.arrived, polls.pass, polls.received⟩
  | storeFails running has => exact checked.set ((checked _ _ running).goTo .polling (by simp) (by simp))
  -- Each step of the positioning hands every partition on to the next, or it has a committed offset.
  | askCommitted running busy next =>
    refine checked.set ((checked _ _ running).advance busy fun partition there => ?_)
    rw [next] at there
    cases known : state.committed partition with
    | none => exact .inr (List.mem_filter.mpr ⟨there, by simp [known]⟩)
    | some offset => exact .inl (by simp)
  | resume running busy next =>
    refine checked.set (((checked _ _ running).seek _ _).advance busy fun partition there => .inr ?_)
    rw [next] at there
    exact there
  | @resumed _ _ _ toResolve running busy next =>
    refine checked.set ((checked _ _ running).advance busy fun partition there => .inr ?_)
    rw [next] at there
    cases toResolve with
    | nil => cases there
    | cons first rest => exact there
  | resolve running busy next =>
    refine checked.set ((checked _ _ running).advance busy fun partition there => .inr ?_)
    rw [next] at there
    simpa [Positioning.uncommitted, offsetsForTimes, Function.comp_def] using there
  | fetchWatermarks running busy next =>
    refine checked.set ((checked _ _ running).advance busy fun partition there => .inr ?_)
    rw [next] at there
    exact there
  | @seek _ consumer pass partition offset rest toCommit running busy next =>
    have moved : (consumer.advance pass (.seeking rest (toCommit ++ [(partition, offset)]))).Checked state := by
      refine (checked _ _ running).advance busy fun other there => .inr ?_
      rw [next] at there
      simp only [Positioning.uncommitted, List.map_cons, List.map_append, List.mem_append, List.mem_cons,
        List.map_nil, List.not_mem_nil, or_false] at there ⊢
      rcases there with (same | left) | placed
      · exact .inr (.inr same)
      · exact .inl left
      · exact .inr (.inl placed)
    have marked : (((consumer.advance pass (.seeking rest (toCommit ++ [(partition, offset)]))).seek partition
        offset).markSought partition).Checked state :=
      ⟨moved.positioned, moved.arrived, moved.pass, fun _ _ has => by cases has⟩
    exact checked.update rfl (fun _ known => known) (marked.mono fun _ known => known)
  | @sought _ _ _ toCommit running busy next =>
    refine checked.set ((checked _ _ running).advance busy fun partition there => .inr ?_)
    rw [next] at there
    cases toCommit with
    | nil => cases there
    | cons first rest => exact there
  -- The offsets that were sought are committed before the pass is answered.
  | @commit _ _ _ toCommit running busy next _ =>
    have committed : ∀ partition, state.committed partition ≠ none →
        (state.commitAll toCommit).committed partition ≠ none := fun _ known => commitAll_known (.inl known)
    have done : (state.commitAll toCommit).Checked := checked.mono (commitAll_consumers toCommit) committed
    refine done.set (((checked _ _ running).mono committed).advance busy fun partition there => .inl ?_)
    rw [next] at there
    exact commitAll_known (.inr there)
  | answer running busy next =>
    refine checked.set ((checked _ _ running).advance busy fun partition there => .inr ?_)
    rw [next] at there
    exact there
  | positioned running busy next => exact checked.set ((checked _ _ running).positionedBy busy next)
  | fails running _ _ => exact checked.set ((checked _ _ running).goTo .polling (by simp) (by simp))

theorem Checked.reached (run : Runs checkedFirst state) : state.Checked := by
  refine Reachable.invariant Checked ?_ (fun _ _ _ checked taken => checked.step taken) run
  rintro _ ⟨today, rfl⟩ member consumer running
  cases running

theorem Step.queue {permits : Permits Member} (taken : Step permits state after) :
    after.queue = state.queue ∨ ∃ member consumer partition offset, state.consumers member = some consumer ∧
      consumer.point = .received partition offset ∧ consumer.loop = .consuming ∧
      after.queue = state.queue ++ [(partition, offset)] := by
  cases taken with
  | push running has consumes => exact .inr ⟨_, _, _, _, running, has, consumes, rfl⟩
  | commit _ _ _ _ => exact .inl (commitAll_queue _)
  | _ => exact .inl rfl

end Group

/-- Whatever a step pushes, its partition has a committed offset, or its consumer has sought
    the partition to the time asked for. -/
theorem never_replays [DecidableEq Member] {state after : Group Member}
    (run : Group.Runs Group.checkedFirst state) (taken : Group.Step Group.checkedFirst state after)
    {partition : TopicPartition} {offset : Nat} (pushed : after.queue = state.queue ++ [(partition, offset)])
    (uncommitted : state.committed partition = none) :
    ∃ member consumer, state.consumers member = some consumer ∧ consumer.point = .received partition offset ∧
      partition ∈ consumer.sought := by
  rcases taken.queue with same | ⟨member, consumer, other, index, running, has, consumes, grown⟩
  · rw [same] at pushed
    simp at pushed
  · obtain ⟨rfl, rfl⟩ : other = partition ∧ index = offset := by simpa [grown] using pushed
    have checked := Group.Checked.reached run member consumer running
    obtain ⟨assigned, seen⟩ := checked.received other index has consumes
    refine ⟨member, consumer, running, has, ?_⟩
    -- It was not positioned, so it came with a rebalance.
    have arrived : other ∈ consumer.arrived :=
      (checked.arrived consumes other assigned).resolve_left fun known => checked.positioned other known uncommitted
    by_contra unsought
    exact seen ⟨uncommitted, arrived, unsought⟩

/-! ## A rebalance of the main loop -/

def lateNight : TopicPartition := ("ztf_20260101_programid1", 1)

def rebalanced : Group Nat :=
  ((unresolved.proceeds 6 0).append lateNight (-9)).brings 0 lateNight

theorem rebalanced_run {permits : Permits Nat} (quiet : ∀ state partition timestamp, permits.append state partition timestamp)
    (receives : ∀ state consumer, consumer.loop = .waiting → permits.receive state consumer night) :
    Group.Runs permits rebalanced := by
  have consuming := (unresolved_run (quiet _ _ _) receives).trans (Group.proceeds_run 6 _ 0)
  have appended : Group.Runs permits ((unresolved.proceeds 6 0).append lateNight (-9)) := .next consuming (.append (quiet _ _ _))
  exact .next appended (@Group.Step.assign Nat _ _ _ 0 _ lateNight rfl rfl rfl (by decide))

def soughtOnly : Group Nat :=
  ((((rebalanced.checks 0).proceeds 5 0).givesUp 0).append lateNight 3).polls 0 lateNight

theorem never_replays_soughtOnly :
    (soughtOnly.proceed 0).queue = soughtOnly.queue ++ [(lateNight, 1)] ∧ soughtOnly.committed lateNight = none ∧
      ∃ member consumer, soughtOnly.consumers member = some consumer ∧ consumer.point = .received lateNight 1 ∧
        lateNight ∈ consumer.sought := by
  have brought : Group.Runs Group.checkedFirst rebalanced :=
    rebalanced_run (fun _ _ _ => trivial) fun _ _ waits consumes => by rw [waits] at consumes; cases consumes
  have checking : Group.Runs Group.checkedFirst (rebalanced.checks 0) :=
    .next brought (@Group.Step.check Nat _ _ _ 0 _ rfl rfl)
  have failed : Group.Runs Group.checkedFirst (((rebalanced.checks 0).proceeds 5 0).givesUp 0) :=
    .next (checking.trans (Group.proceeds_run 5 _ 0)) (@Group.Step.fails Nat _ _ _ 0 _ _ rfl rfl fun _ => nofun)
  have appended : Group.Runs Group.checkedFirst
      ((((rebalanced.checks 0).proceeds 5 0).givesUp 0).append lateNight 3) := .next failed (.append trivial)
  have polled : Group.Runs Group.checkedFirst soughtOnly :=
    .next appended (@Group.Step.receive Nat _ _ _ 0 _ lateNight rfl rfl (by decide) (by decide) fun _ unchecked =>
      unchecked.2.2 (by decide))
  have pushed : Group.Step Group.checkedFirst soughtOnly (soughtOnly.proceed 0) :=
    @Group.Step.push Nat _ _ _ 0 _ lateNight 1 rfl rfl rfl
  exact ⟨rfl, rfl, never_replays polled pushed rfl rfl⟩

def unchecked : Group Nat :=
  rebalanced.polls 0 lateNight

/-- The main loop pushes it. -/
theorem old_message_replayed :
    Group.Runs .all unchecked ∧ Group.Step .all unchecked (unchecked.proceed 0) ∧
      (unchecked.proceed 0).queue = unchecked.queue ++ [(lateNight, 0)] ∧ unchecked.committed lateNight = none ∧
      ∀ member consumer, unchecked.consumers member = some consumer → lateNight ∉ consumer.sought := by
  have brought : Group.Runs .all rebalanced := rebalanced_run (fun _ _ _ => trivial) fun _ _ _ => trivial
  refine ⟨.next brought (@Group.Step.receive Nat _ _ _ 0 _ lateNight rfl rfl (by decide) (by decide) trivial), ?_⟩
  refine ⟨@Group.Step.push Nat _ _ _ 0 _ lateNight 0 rfl rfl rfl, rfl, rfl, fun member consumer running => ?_⟩
  cases member with
  | zero =>
    cases running
    decide
  | succ => cases running

end Boom.Kafka
