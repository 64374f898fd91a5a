import Boom.Kafka.Consumer

/-! # No alert is lost

Every message between the start of a partition and its committed offset was pushed, and a
positioned partition starts at or before the first message of the requested time.  Both
need that no such message is appended between two answers of the broker to one pass: that
there is none yet, and where the partition ends. -/

namespace Boom.Kafka

open Boom.Foundations

variable {Member : Type}

/-! ## What holds of a consumer -/

namespace Group

def Pushed (state : Group Member) (partition : TopicPartition) (offset : Nat) : Prop :=
  ∀ index, state.start partition ≤ index → index < offset → (partition, index) ∈ state.queue

def Resolved (state : Group Member) (requested : Int) (partition : TopicPartition) : Option Nat → Prop
  | none => ∀ timestamp ∈ state.log partition, timestamp < requested
  | some offset => state.start partition ≤ offset ∧ Precedes (state.log partition) requested offset

end Group

namespace Positioning

def unplaced (fresh : List TopicPartition) : Positioning → List TopicPartition
  | .committed => fresh
  | .resuming rest toResolve => rest.map Prod.fst ++ toResolve
  | .resolving toResolve => toResolve
  | .seeking rest _ => rest.map Prod.fst
  | .committing _ | .answering _ | .returned _ => []

def pending : Positioning → List TopicPartition
  | .resuming _ toResolve | .resolving toResolve => toResolve
  | .seeking rest _ => rest.map Prod.fst
  | .committed | .committing _ | .answering _ | .returned _ => []

def Sound (state : Group Member) (member : Member) (requested : Int) : Positioning → Prop
  | .committed => True
  | .resuming rest toResolve => toResolve.Nodup ∧
      ∀ entry ∈ rest, state.owner entry.1 = some member → state.Pushed entry.1 entry.2
  | .resolving toResolve => toResolve.Nodup
  | .seeking rest toCommit => (rest.map Prod.fst ++ toCommit.map Prod.fst).Nodup ∧
      (∀ entry ∈ rest, state.owner entry.1 = some member → state.Resolved requested entry.1 entry.2) ∧
      ∀ entry ∈ toCommit, state.owner entry.1 = some member →
        state.start entry.1 = entry.2 ∧ Precedes (state.log entry.1) requested entry.2
  | .committing toCommit => ∀ entry ∈ toCommit, state.owner entry.1 = some member →
      state.start entry.1 = entry.2 ∧ Precedes (state.log entry.1) requested entry.2
  | .answering toCommit | .returned toCommit =>
      ∀ entry ∈ toCommit, Precedes (state.log entry.1) requested entry.2

end Positioning

namespace Consumer

def unplaced (consumer : Consumer) : List TopicPartition :=
  match consumer.point with
  | .positioning pass => pass.stage.unplaced pass.fresh
  | .polling | .received _ _ | .pushed _ _ => consumer.fresh

def pending (consumer : Consumer) : List TopicPartition :=
  match consumer.point with
  | .positioning pass => pass.stage.pending
  | .polling | .received _ _ | .pushed _ _ => []

def Settled (consumer : Consumer) (partition : TopicPartition) : Prop :=
  consumer.loop = .consuming ∨ partition ∉ consumer.unplaced

def PointSound (state : Group Member) (member : Member) (consumer : Consumer) : Prop :=
  match consumer.point with
  | .polling => True
  | .received partition offset => consumer.position partition = offset + 1
  | .pushed partition offset => consumer.loop = .consuming ∧ consumer.position partition = offset + 1 ∧
      (partition, offset) ∈ state.queue
  | .positioning pass => pass.fresh = consumer.fresh ∧
      (∀ partition ∈ pass.stage.unplaced pass.fresh, partition ∈ pass.fresh) ∧
      pass.stage.Sound state member consumer.requested

structure Sound (state : Group Member) (member : Member) (consumer : Consumer) : Prop where
  clock : consumer.plan.positionsAtRolledDay = true → consumer.positionTimestamp ≤ midnight state.today
  distinct : consumer.assigned.Nodup
  assigned : ∀ partition, state.owner partition = some member → partition ∈ consumer.assigned
  /-- What lies before the start of a partition never committed is older than asked for. -/
  unread : ∀ partition, state.owner partition = some member →
    state.committed partition = none ∨ partition ∈ consumer.pending →
    Precedes (state.log partition) consumer.requested (state.start partition)
  stored : ∀ partition offset, state.owner partition = some member → consumer.stored partition = some offset →
    state.Pushed partition offset
  /-- A message below the position is in the list, or in the consumer's hands. -/
  read : ∀ partition index, state.owner partition = some member → consumer.Settled partition →
    state.start partition ≤ index → index < consumer.position partition →
    (partition, index) ∈ state.queue ∨ consumer.point = .received partition index
  point : consumer.PointSound state member

end Consumer

structure Group.Sound (state : Group Member) : Prop where
  consumers : ∀ member consumer, state.consumers member = some consumer → consumer.Sound state member
  owned : ∀ partition member, state.owner partition = some member →
    ∃ consumer, state.consumers member = some consumer
  committed : ∀ partition offset, state.committed partition = some offset → state.Pushed partition offset

/-! ## Steps of the others -/

/-- What the rest of the group may do to a consumer's partitions. -/
structure Group.Frame (state after : Group Member) (member : Member) (consumer : Consumer) : Prop where
  today : state.today ≤ after.today
  queue : ∀ entry ∈ state.queue, entry ∈ after.queue
  owned : ∀ partition, after.owner partition = some member → state.owner partition = some member ∧
    after.start partition = state.start partition ∧
      (after.committed partition = none → state.committed partition = none)
  precedes : ∀ partition time offset, Precedes (state.log partition) time offset →
    Precedes (after.log partition) time offset
  quiet : ∀ pass rest toCommit, consumer.point = .positioning pass → pass.stage = .seeking rest toCommit →
    ∀ partition, (partition, none) ∈ rest → after.owner partition = some member →
      (∀ timestamp ∈ state.log partition, timestamp < consumer.requested) →
      ∀ timestamp ∈ after.log partition, timestamp < consumer.requested

variable {partition : TopicPartition} {offset : Nat}

namespace Group.Frame

variable {state after : Group Member} {member : Member} {consumer : Consumer}

theorem of_log (log : after.log = state.log) (today : after.today = state.today)
    (queue : ∀ entry ∈ state.queue, entry ∈ after.queue)
    (owned : ∀ partition, after.owner partition = some member → state.owner partition = some member ∧
      after.start partition = state.start partition ∧
        (after.committed partition = none → state.committed partition = none)) :
    state.Frame after member consumer where
  today := today.ge
  queue := queue
  owned := owned
  precedes := fun _ _ _ precedes => log ▸ precedes
  quiet := fun _ _ _ _ _ _ _ _ quiet => log ▸ quiet

theorem set [DecidableEq Member] (other : Member) (changed : Consumer) :
    state.Frame (state.set other changed) member consumer :=
  of_log rfl rfl (fun _ there => there) fun _ owns => ⟨owns, rfl, id⟩

section

variable (frame : state.Frame after member consumer)
include frame

theorem pushed (owns : after.owner partition = some member) (pushed : state.Pushed partition offset) :
    after.Pushed partition offset := by
  intro index started before
  rw [(frame.owned partition owns).2.1] at started
  exact frame.queue _ (pushed index started before)

theorem stage {pass : Pass}
    (busy : consumer.point = .positioning pass) (sound : pass.stage.Sound state member consumer.requested) :
    pass.stage.Sound after member consumer.requested := by
  have placed : ∀ entry : TopicPartition × Nat,
      (state.owner entry.1 = some member →
        state.start entry.1 = entry.2 ∧ Precedes (state.log entry.1) consumer.requested entry.2) →
      after.owner entry.1 = some member →
        after.start entry.1 = entry.2 ∧ Precedes (after.log entry.1) consumer.requested entry.2 := by
    intro entry before owns
    obtain ⟨owned, start, -⟩ := frame.owned _ owns
    exact ⟨start ▸ (before owned).1, frame.precedes _ _ _ (before owned).2⟩
  cases at_ : pass.stage with
  | committed => trivial
  | resuming rest toResolve =>
    simp only [at_, Positioning.Sound] at sound ⊢
    exact ⟨sound.1, fun entry there owns =>
      frame.pushed owns (sound.2 entry there (frame.owned _ owns).1)⟩
  | resolving toResolve => simpa only [at_, Positioning.Sound] using sound
  | seeking rest toCommit =>
    simp only [at_, Positioning.Sound] at sound ⊢
    refine ⟨sound.1, ?_, fun entry there => placed entry (sound.2.2 entry there)⟩
    rintro ⟨partition, offset⟩ there owns
    obtain ⟨owned, start, -⟩ := frame.owned _ owns
    have before := sound.2.1 _ there owned
    cases offset with
    | none => exact frame.quiet pass rest toCommit busy at_ partition there owns before
    | some offset => exact ⟨start ▸ before.1, frame.precedes _ _ _ before.2⟩
  | committing toCommit =>
    simp only [at_, Positioning.Sound] at sound ⊢
    exact fun entry there => placed entry (sound entry there)
  | answering toCommit | returned toCommit =>
    simp only [at_, Positioning.Sound] at sound ⊢
    exact fun entry there => frame.precedes _ _ _ (sound entry there)

theorem sound (sound : consumer.Sound state member) :
    consumer.Sound after member where
  clock := fun rolls => (sound.clock rolls).trans (Int.mul_le_mul_of_nonneg_right frame.today (by decide))
  distinct := sound.distinct
  assigned := fun partition owns => sound.assigned partition (frame.owned _ owns).1
  unread := by
    intro partition owns open_
    obtain ⟨owned, start, committed⟩ := frame.owned _ owns
    exact start ▸ frame.precedes _ _ _ (sound.unread partition owned (open_.imp_left committed))
  stored := fun partition offset owns stored =>
    frame.pushed owns (sound.stored partition offset (frame.owned _ owns).1 stored)
  read := by
    intro partition index owns settled started before
    obtain ⟨owned, start, -⟩ := frame.owned _ owns
    exact (sound.read partition index owned settled (start ▸ started) before).imp_left (frame.queue _)
  point := by
    have before := sound.point
    unfold Consumer.PointSound at before ⊢
    cases at_ : consumer.point with
    | polling => trivial
    | received partition offset => simpa only [at_] using before
    | pushed partition offset =>
      simp only [at_] at before ⊢
      exact ⟨before.1, before.2.1, frame.queue _ before.2.2⟩
    | positioning pass =>
      simp only [at_] at before ⊢
      exact ⟨before.1, before.2.1, frame.stage at_ before.2.2⟩

end

end Group.Frame

/-! ## Steps of the consumer itself -/

variable {toCommit : List (TopicPartition × Nat)}

namespace Consumer.Sound

variable {state : Group Member} {member : Member} {consumer : Consumer}

section

variable (sound : consumer.Sound state member)
include sound

theorem goTo (point : Point)
    (settled : ∀ partition, state.owner partition = some member → (consumer.goTo point).Settled partition →
      consumer.Settled partition) (pending : ∀ partition ∈ (consumer.goTo point).pending,
      state.committed partition = none ∨ partition ∈ consumer.pending)
    (held : ∀ partition index, consumer.point = .received partition index → state.owner partition = some member →
      (consumer.goTo point).Settled partition → (partition, index) ∈ state.queue)
    (pointSound : (consumer.goTo point).PointSound state member) : (consumer.goTo point).Sound state member where
  clock := sound.clock
  distinct := sound.distinct
  assigned := sound.assigned
  unread := fun partition owns open_ => sound.unread partition owns (open_.elim .inl (pending partition))
  stored := sound.stored
  read := by
    intro partition index owns isSettled started before
    rcases sound.read partition index owns (settled partition owns isSettled) started before with there | has
    · exact .inl there
    · exact .inl (held partition index has owns isSettled)
  point := pointSound

theorem advance {pass : Pass} (busy : consumer.point = .positioning pass) (stage : Positioning)
    (unplaced : ∀ partition, partition ∈ pass.stage.unplaced pass.fresh ↔ partition ∈ stage.unplaced pass.fresh)
    (pending : ∀ partition ∈ stage.pending, state.committed partition = none ∨ partition ∈ pass.stage.pending)
    (stageSound : stage.Sound state member consumer.requested) :
    (consumer.advance pass stage).Sound state member := by
  have pointSound := sound.point
  simp only [PointSound, busy] at pointSound
  apply sound.goTo
  · intro partition _ settled
    refine settled.imp_right fun placed left => placed ?_
    simp only [Consumer.unplaced, busy] at left
    exact (unplaced partition).mp left
  · intro partition there
    simpa only [Consumer.pending, busy] using pending partition there
  · intro partition index has
    rw [busy] at has
    cases has
  · exact ⟨pointSound.1, fun partition there => pointSound.2.1 partition ((unplaced partition).mpr there), stageSound⟩

theorem place {pass : Pass} (busy : consumer.point = .positioning pass)
    (pushed : state.owner partition = some member → state.Pushed partition offset) (stage : Positioning)
    (unplaced : ∀ other, other ∈ pass.stage.unplaced pass.fresh ↔
      other = partition ∨ other ∈ stage.unplaced pass.fresh)
    (pending : ∀ other ∈ stage.pending, state.committed other = none ∨ other ∈ pass.stage.pending)
    (stageSound : stage.Sound state member consumer.requested) :
    ((consumer.seek partition offset).advance pass stage).Sound state member where
  clock := sound.clock
  distinct := sound.distinct
  assigned := sound.assigned
  unread := by
    intro other owns open_
    refine sound.unread other owns (open_.elim .inl fun there => ?_)
    simpa only [Consumer.pending, busy] using pending other there
  stored := sound.stored
  read := by
    intro other index owns settled started before
    by_cases same : other = partition
    · subst other
      exact .inl (pushed owns index started (by simpa [Consumer.advance, Consumer.goTo, Consumer.seek] using before))
    · have settledBefore : consumer.Settled other := by
        refine settled.imp_right fun placed left => placed ?_
        simp only [Consumer.unplaced, busy] at left
        exact ((unplaced other).mp left).resolve_left same
      have below : index < consumer.position other := by
        simpa [Consumer.advance, Consumer.goTo, Consumer.seek, same] using before
      rcases sound.read other index owns settledBefore started below with there | has
      · exact .inl there
      · rw [busy] at has
        cases has
  point := by
    have pointSound := sound.point
    simp only [PointSound, busy] at pointSound
    exact ⟨pointSound.1, fun other there => pointSound.2.1 other ((unplaced other).mpr (.inr there)), stageSound⟩

theorem poll (outside : consumer.unplaced = consumer.fresh)
    (held : ∀ partition index, consumer.point = .received partition index → state.owner partition = some member →
      consumer.Settled partition → (partition, index) ∈ state.queue) :
    (consumer.goTo .polling).Sound state member := by
  have settled : ∀ partition, (consumer.goTo .polling).Settled partition → consumer.Settled partition :=
    fun partition isSettled => isSettled.imp_right fun placed => by rwa [outside]
  exact sound.goTo .polling (fun partition _ => settled partition) (fun _ there => by cases there)
    (fun partition index has owns isSettled => held partition index has owns (settled partition isSettled)) trivial

end

theorem unplaced_of_polling (polls : consumer.point = .polling) : consumer.unplaced = consumer.fresh := by
  simp only [Consumer.unplaced, polls]

section

variable (sound : consumer.Sound state member)
include sound

theorem reposition (polls : consumer.point = .polling) (caller : Caller) :
    (consumer.reposition caller).Sound state member := by
  apply sound.goTo
  · intro partition _ settled
    refine settled.imp_right fun placed => ?_
    rw [unplaced_of_polling polls]
    intro left
    refine placed ?_
    have some : consumer.fresh.isEmpty = false := by
      rw [List.isEmpty_eq_false_iff]
      exact List.ne_nil_of_mem left
    simpa [Consumer.unplaced, Consumer.goTo, some, Positioning.unplaced] using left
  · intro partition there
    simp only [Consumer.pending, Consumer.goTo] at there
    split at there <;> cases there
  · intro partition index has
    rw [polls] at has
    cases has
  · have idle : ∀ stage, stage = Positioning.returned [] ∨ stage = .committed →
        (consumer.goTo (.positioning ⟨consumer.fresh, caller, stage⟩)).PointSound state member := by
      rintro stage (rfl | rfl)
      · exact ⟨rfl, fun other there => (by cases there), fun entry there => (by cases there)⟩
      · exact ⟨rfl, fun other there => there, trivial⟩
    apply idle
    split
    · exact .inl rfl
    · exact .inr rfl

theorem firstMessage (has : consumer.point = .received partition offset) (waits : consumer.loop = .waiting) :
    (consumer.firstMessage partition offset).Sound state member := by
  have outside : consumer.unplaced = consumer.fresh := by simp only [Consumer.unplaced, has]
  unfold Consumer.firstMessage
  split
  next known =>
    have again : ((consumer.seek partition offset).goTo .polling).Sound state member :=
      { clock := sound.clock
        distinct := sound.distinct
        assigned := sound.assigned
        unread := fun other owns open_ => sound.unread other owns (open_.imp_right fun there => by cases there)
        stored := sound.stored
        read := by
          intro other index owns settled started before
          have settledBefore : consumer.Settled other := settled.imp_right fun placed => by rwa [outside]
          have position : consumer.position partition = offset + 1 := by
            have pointSound := sound.point
            simpa only [PointSound, has] using pointSound
          by_cases same : other = partition
          · subst other
            have below : index < offset := by simpa [Consumer.goTo, Consumer.seek] using before
            rcases sound.read partition index owns settledBefore started (by omega) with there | held
            · exact .inl there
            · rw [has] at held
              cases held
              omega
          · have below : index < consumer.position other := by
              simpa [Consumer.goTo, Consumer.seek, same] using before
            rcases sound.read other index owns settledBefore started below with there | held
            · exact .inl there
            · rw [has] at held
              cases held
              exact absurd rfl same
        point := trivial }
    exact again.reposition rfl .firstMessage
  next unknown =>
    -- Its partition is fresh, so the pass seeks it.
    have dropped : (consumer.goTo .polling).Sound state member := by
      refine sound.poll outside fun other index held owns settled => ?_
      rw [has] at held
      cases held
      rcases settled with consumes | placed
      · rw [waits] at consumes
        cases consumes
      · rw [outside] at placed
        refine absurd ?_ placed
        simpa [Consumer.fresh] using ⟨sound.assigned _ owns, unknown⟩
    exact dropped.reposition rfl .firstMessage

theorem receive (polls : consumer.point = .polling)
    (partition : TopicPartition) : (consumer.receive partition).Sound state member where
  clock := sound.clock
  distinct := sound.distinct
  assigned := sound.assigned
  unread := fun other owns open_ => sound.unread other owns (open_.imp_right fun there => by cases there)
  stored := sound.stored
  read := by
    intro other index owns settled started before
    have settledBefore : consumer.Settled other :=
      settled.imp_right fun placed => by rwa [unplaced_of_polling polls]
    by_cases same : other = partition
    · subst other
      have below : index < consumer.position partition + 1 := by
        simpa [Consumer.receive, Consumer.goTo, Consumer.seek] using before
      rcases Nat.lt_succ_iff_lt_or_eq.mp below with earlier | rfl
      · rcases sound.read partition index owns settledBefore started earlier with there | held
        · exact .inl there
        · rw [polls] at held
          cases held
      · exact .inr rfl
    · have below : index < consumer.position other := by
        simpa [Consumer.receive, Consumer.goTo, Consumer.seek, same] using before
      rcases sound.read other index owns settledBefore started below with there | held
      · exact .inl there
      · rw [polls] at held
        cases held
  point := by simp [PointSound, Consumer.receive, Consumer.goTo, Consumer.seek]

theorem pushed (has : consumer.point = .received partition offset) (consumes : consumer.loop = .consuming)
    (there : (partition, offset) ∈ state.queue) : (consumer.goTo (.pushed partition offset)).Sound state member := by
  have pointSound := sound.point
  simp only [PointSound, has] at pointSound
  apply sound.goTo
  · exact fun other _ _ => .inl consumes
  · exact fun other left => by cases left
  · intro other index held _ _
    rw [has] at held
    cases held
    exact there
  · exact ⟨consumes, pointSound, there⟩

theorem stored_at (has : consumer.point = .pushed partition offset) :
    ((consumer.storeOffset partition offset).goTo .polling).Sound state member where
  clock := sound.clock
  distinct := sound.distinct
  assigned := sound.assigned
  unread := fun other owns open_ => sound.unread other owns (open_.imp_right fun there => by cases there)
  stored := by
    have pointSound := sound.point
    simp only [PointSound, has] at pointSound
    intro other stored owns isStored
    by_cases same : other = partition
    · subst other
      have offsets : offset + 1 = stored := by
        simpa [Consumer.goTo, Consumer.storeOffset] using isStored
      intro index started before
      rcases sound.read partition index owns (.inl pointSound.1) started (by omega) with there | held
      · exact there
      · rw [has] at held
        cases held
    · exact sound.stored other stored owns (by simpa [Consumer.goTo, Consumer.storeOffset, same] using isStored)
  read := by
    intro other index owns settled started before
    have outside : consumer.unplaced = consumer.fresh := by simp only [Consumer.unplaced, has]
    have settledBefore : consumer.Settled other := settled.imp_right fun placed => by rwa [outside]
    rcases sound.read other index owns settledBefore started before with there | held
    · exact .inl there
    · rw [has] at held
      cases held
  point := trivial

theorem unstored (has : consumer.point = .pushed partition offset) : (consumer.goTo .polling).Sound state member := by
  refine sound.poll (by simp only [Consumer.unplaced, has]) fun other index held => ?_
  rw [has] at held
  cases held

theorem roll (polls : consumer.point = .polling) (subscribes : Bool) :
    (consumer.rollSubscriptionIfNeeded state.today subscribes).Sound state member := by
  unfold Consumer.rollSubscriptionIfNeeded
  split
  · exact sound
  next newTimestamp rolls =>
    split
    swap
    · exact sound
    have isToday : newTimestamp = midnight state.today := by
      unfold rolloverTarget at rolls
      split at rolls
      · cases rolls
      · exact (Option.some.inj rolls).symm
    have pointSound : ∀ other : Consumer, other.point = consumer.point → other.PointSound state member := by
      intro other same
      simp only [PointSound, same, polls]
    by_cases follows : consumer.plan.positionsAtRolledDay = true
    · rw [if_pos follows, isToday]
      have later : consumer.requested ≤ midnight state.today * 1000 :=
        Int.mul_le_mul_of_nonneg_right (sound.clock follows) (by decide)
      exact
        { clock := fun _ => le_rfl
          distinct := sound.distinct
          assigned := sound.assigned
          unread := fun partition owns open_ => (sound.unread partition owns open_).later later
          stored := sound.stored
          read := sound.read
          point := pointSound _ rfl }
    · rw [if_neg follows]
      exact ⟨fun rolls => absurd rolls follows, sound.distinct, sound.assigned, sound.unread, sound.stored,
        sound.read, pointSound _ rfl⟩

end

/-! ### Calls of a pass -/

variable {pass : Pass}

theorem stage (sound : consumer.Sound state member) (busy : consumer.point = .positioning pass) :
    pass.fresh = consumer.fresh ∧ (∀ partition ∈ pass.stage.unplaced pass.fresh, partition ∈ pass.fresh) ∧
      pass.stage.Sound state member consumer.requested := by
  have pointSound := sound.point
  simpa only [PointSound, busy] using pointSound

theorem askCommitted (sound : consumer.Sound state member)
    (committed : ∀ partition offset, state.committed partition = some offset → state.Pushed partition offset)
    (busy : consumer.point = .positioning pass) (next : pass.stage = .committed) :
    (consumer.advance pass (state.resume pass.fresh)).Sound state member := by
  have distinct : pass.fresh.Nodup := (sound.stage busy).1 ▸ sound.distinct.filter _
  apply sound.advance busy
  · intro partition
    simp only [next, Group.resume, Positioning.unplaced, List.mem_append, List.mem_map, List.mem_filterMap,
      List.mem_filter, Option.map_eq_some_iff]
    cases known : state.committed partition with
    | none => simp [known]
    | some offset => simp [known]
  · intro partition there
    simp only [Group.resume, Positioning.pending, List.mem_filter, Option.isNone_iff_eq_none] at there
    exact .inl there.2
  · refine ⟨distinct.filter _, fun entry there _ => ?_⟩
    simp only [List.mem_filterMap, Option.map_eq_some_iff] at there
    obtain ⟨partition, _, offset, known, rfl⟩ := there
    exact committed partition offset known

variable {toResolve : List TopicPartition}

section

variable (sound : consumer.Sound state member)
include sound

theorem resume (busy : consumer.point = .positioning pass) {rest : List (TopicPartition × Nat)}
    (next : pass.stage = .resuming ((partition, offset) :: rest) toResolve) :
    ((consumer.seek partition offset).advance pass (.resuming rest toResolve)).Sound state member := by
  have stageSound := (sound.stage busy).2.2
  simp only [next, Positioning.Sound] at stageSound
  apply sound.place busy
  · exact stageSound.2 _ List.mem_cons_self
  · intro other
    simp only [next, Positioning.unplaced, List.map_cons, List.cons_append, List.mem_cons]
  · intro other there
    simp only [next, Positioning.pending] at there ⊢
    exact .inr there
  · exact ⟨stageSound.1, fun entry there => stageSound.2 entry (List.mem_cons_of_mem _ there)⟩

theorem resumed (busy : consumer.point = .positioning pass) (next : pass.stage = .resuming [] toResolve) :
    (consumer.advance pass (if toResolve.isEmpty then .returned [] else .resolving toResolve)).Sound state member := by
  have stageSound := (sound.stage busy).2.2
  simp only [next, Positioning.Sound] at stageSound
  cases toResolve with
  | nil =>
    apply sound.advance busy
    · intro other
      rw [next]
      exact Iff.rfl
    · exact fun other there => by cases there
    · exact fun entry there => by cases there
  | cons first rest =>
    apply sound.advance busy
    · intro other
      rw [next]
      exact Iff.rfl
    · intro other there
      rw [next]
      exact .inr there
    · exact stageSound.1

theorem resolve (busy : consumer.point = .positioning pass) (next : pass.stage = .resolving toResolve) :
    (consumer.advance pass (.seeking (state.offsetsForTimes toResolve consumer.requested) [])).Sound state
      member := by
  have stageSound := (sound.stage busy).2.2
  simp only [next, Positioning.Sound] at stageSound
  have names : (state.offsetsForTimes toResolve consumer.requested).map Prod.fst = toResolve := by
    simp [Group.offsetsForTimes, Function.comp_def]
  apply sound.advance busy
  · intro partition
    simp only [next, Positioning.unplaced, names]
  · intro partition there
    simp only [Positioning.pending, names, next] at there ⊢
    exact .inr there
  · refine ⟨by simpa [names] using stageSound, fun entry there owns => ?_, fun entry there => by cases there⟩
    obtain ⟨partition, isPending, rfl⟩ := List.mem_map.mp there
    have unread := sound.unread partition owns (.inr (by simpa only [Consumer.pending, busy, next, Positioning.pending]))
    cases answer : offsetForTime (state.log partition) consumer.requested with
    | none => exact offsetForTime_eq_none.mp answer
    | some offset => exact ⟨unread.le_offsetForTime answer, .offsetForTime answer⟩

theorem fetchWatermarks (busy : consumer.point = .positioning pass) {rest : List (TopicPartition × Option Nat)}
    (next : pass.stage = .seeking ((partition, none) :: rest) toCommit) : (consumer.advance pass
      (.seeking ((partition, some (state.highWatermark partition)) :: rest) toCommit)).Sound state member := by
  have stageSound := (sound.stage busy).2.2
  simp only [next, Positioning.Sound] at stageSound
  apply sound.advance busy
  · intro other
    simp only [next, Positioning.unplaced, List.map_cons]
  · intro other there
    rw [next]
    exact .inr there
  · refine ⟨stageSound.1, fun entry there owns => ?_, stageSound.2.2⟩
    rcases List.mem_cons.mp there with rfl | later
    · have old := stageSound.2.1 _ List.mem_cons_self owns
      have isPending : partition ∈ consumer.pending := by
        simp only [Consumer.pending, busy, next, Positioning.pending, List.map_cons, List.mem_cons, true_or]
      exact ⟨(sound.unread partition owns (.inr isPending)).inside, .length old⟩
    · exact stageSound.2.1 entry (List.mem_cons_of_mem _ later) owns

theorem sought (busy : consumer.point = .positioning pass) (next : pass.stage = .seeking [] toCommit) :
    (consumer.advance pass (if toCommit.isEmpty then .returned [] else .committing toCommit)).Sound state member := by
  have stageSound := (sound.stage busy).2.2
  simp only [next, Positioning.Sound] at stageSound
  have placed : ∀ other, other ∈ pass.stage.unplaced pass.fresh ↔ other ∈ ([] : List TopicPartition) := by
    intro other
    rw [next]
    exact Iff.rfl
  cases toCommit with
  | nil => exact sound.advance busy _ placed (fun other there => by cases there) fun entry there => by cases there
  | cons first rest => exact sound.advance busy _ placed (fun other there => by cases there) stageSound.2.2

theorem answer (busy : consumer.point = .positioning pass) (next : pass.stage = .answering toCommit) :
    (consumer.advance pass (.returned toCommit)).Sound state member := by
  have stageSound := (sound.stage busy).2.2
  simp only [next, Positioning.Sound] at stageSound
  apply sound.advance busy
  · intro other
    rw [next]
    exact Iff.rfl
  · exact fun other there => by cases there
  · exact stageSound

theorem fails (busy : consumer.point = .positioning pass) : (consumer.goTo .polling).Sound state member := by
  obtain ⟨isFresh, within, -⟩ := sound.stage busy
  apply sound.goTo
  · refine fun partition _ settled => settled.imp_right fun placed left => placed ?_
    simp only [Consumer.unplaced, busy] at left
    show partition ∈ consumer.fresh
    exact isFresh ▸ within partition left
  · exact fun other there => by cases there
  · intro other index held
    rw [busy] at held
    cases held
  · trivial

theorem positionedBy (busy : consumer.point = .positioning pass) (next : pass.stage = .returned toCommit) :
    (consumer.positionedBy pass).Sound state member where
  clock := sound.clock
  distinct := sound.distinct
  assigned := sound.assigned
  unread := fun partition owns open_ => sound.unread partition owns (open_.imp_right fun there => by cases there)
  stored := sound.stored
  read := by
    intro partition index owns _ started before
    have settled : consumer.Settled partition := by
      refine .inr fun left => ?_
      simp only [Consumer.unplaced, busy, next, Positioning.unplaced] at left
      cases left
    rcases sound.read partition index owns settled started before with there | held
    · exact .inl there
    · rw [busy] at held
      cases held
  point := trivial

end

end Consumer.Sound

/-! ## Steps of the group -/

namespace Group

def undisturbed : Permits Member where
  append state partition timestamp := ∀ member consumer pass rest toCommit,
    state.consumers member = some consumer → consumer.point = .positioning pass →
    pass.stage = .seeking rest toCommit → state.owner partition = some member → (partition, none) ∈ rest →
    timestamp < consumer.requested
  receive _ _ _ := True

end Group

namespace Group.Sound

variable {state after : Group Member} {member : Member} {consumer changed : Consumer}

theorem update [DecidableEq Member] (sound : state.Sound) (consumers : after.consumers = Function.update state.consumers member (some changed))
    (mine : changed.Sound after member)
    (others : ∀ other, other ≠ member → ∀ consumer, state.Frame after other consumer)
    (owned : ∀ partition owner, after.owner partition = some owner → owner = member ∨
      state.owner partition = some owner)
    (committed : ∀ partition offset, after.committed partition = some offset → after.Pushed partition offset) :
    after.Sound where
  consumers := by
    intro other consumer running
    rw [consumers] at running
    by_cases same : other = member
    · subst other
      rw [Function.update_self] at running
      cases running
      exact mine
    · rw [Function.update_of_ne same] at running
      exact (others other same consumer).sound (sound.consumers other consumer running)
  owned := by
    intro partition owner owns
    rw [consumers]
    by_cases same : owner = member
    · exact ⟨changed, by rw [same, Function.update_self]⟩
    · rw [Function.update_of_ne same]
      exact sound.owned partition owner ((owned partition owner owns).resolve_left same)
  committed := committed

theorem set [DecidableEq Member] (sound : state.Sound) (mine : changed.Sound state member) : (state.set member changed).Sound :=
  sound.update rfl ((Frame.set member changed).sound mine) (fun _ _ _ => Frame.set member changed)
    (fun _ _ owns => .inr owns) sound.committed

theorem frame (sound : state.Sound) (consumers : after.consumers = state.consumers)
    (each : ∀ member consumer, state.consumers member = some consumer → state.Frame after member consumer)
    (owned : ∀ partition owner, after.owner partition = some owner → state.owner partition = some owner)
    (committed : ∀ partition offset, after.committed partition = some offset → after.Pushed partition offset) :
    after.Sound where
  consumers := fun member consumer running =>
    (each member consumer (consumers ▸ running)).sound (sound.consumers member consumer (consumers ▸ running))
  owned := fun partition owner owns => consumers ▸ sound.owned partition owner (owned partition owner owns)
  committed := committed

theorem empty (today : Int) : (Group.empty Member today).Sound where
  consumers := fun _ _ running => by cases running
  owned := fun _ _ owns => by cases owns
  committed := fun _ _ committed => by cases committed

section

variable (sound : state.Sound)
include sound

theorem midnight : Sound { state with today := state.today + 1 } :=
  sound.frame rfl
    (fun _ _ _ =>
      { today := Int.le_add_one le_rfl
        queue := fun _ there => there
        owned := fun _ owns => ⟨owns, rfl, id⟩
        precedes := fun _ _ _ precedes => precedes
        quiet := fun _ _ _ _ _ _ _ _ quiet => quiet })
    (fun _ _ owns => owns) sound.committed

theorem spawn [DecidableEq Member] (absent : state.consumers member = none) {date : StartDate} {day : Int}
    (resolved : day ≤ state.today) : (state.set member (.new (date.plan day))).Sound := by
  have unowned : ∀ partition, state.owner partition ≠ some member := by
    intro partition owns
    obtain ⟨consumer, running⟩ := sound.owned partition member owns
    rw [absent] at running
    cases running
  apply sound.set
  exact
    { clock := by
        intro rolls
        have isCurrent : date = .current := by simpa [Consumer.new, StartDate.plan] using rolls
        subst isCurrent
        exact Int.mul_le_mul_of_nonneg_right resolved (by decide)
      distinct := List.nodup_nil
      assigned := fun partition owns => absurd owns (unowned partition)
      unread := fun partition owns => absurd owns (unowned partition)
      stored := fun partition _ owns => absurd owns (unowned partition)
      read := fun partition _ owns => absurd owns (unowned partition)
      point := trivial }

theorem crash [DecidableEq Member] (member : Member) : (state.crash member).Sound where
  consumers := by
    intro other consumer running
    by_cases same : other = member
    · subst other
      simp [Group.crash] at running
    · have runs : state.consumers other = some consumer := by simpa [Group.crash, same] using running
      have others : state.Frame (state.crash member) other consumer := by
        refine .of_log rfl rfl (fun _ there => there) fun partition owns => ⟨?_, rfl, id⟩
        simp only [Group.crash] at owns
        split at owns
        · cases owns
        · exact owns
      exact others.sound (sound.consumers other consumer runs)
  owned := by
    intro partition owner owns
    simp only [Group.crash] at owns
    split at owns
    · cases owns
    next others =>
      have survives : owner ≠ member := by
        rintro rfl
        exact others owns
      simpa [Group.crash, survives] using sound.owned partition owner owns
  committed := sound.committed

theorem lose (partition : TopicPartition) : (state.lose partition).Sound := by
  have kept : ∀ other owner, (state.lose partition).owner other = some owner → state.owner other = some owner := by
    intro other owner owns
    by_cases same : other = partition
    · subst other
      simp [Group.lose] at owns
    · simpa [Group.lose, same] using owns
  exact sound.frame rfl
    (fun _ _ _ => .of_log rfl rfl (fun _ there => there) fun other owns => ⟨kept other _ owns, rfl, id⟩) kept
    sound.committed

theorem commitOne (pushed : state.Pushed partition offset) : (state.commit partition offset).Sound := by
  refine sound.frame rfl (fun _ _ _ => .of_log rfl rfl (fun _ there => there) fun other owns =>
    ⟨owns, rfl, fun none => ?_⟩) (fun _ _ owns => owns) fun other committed isCommitted => ?_
  · by_cases same : other = partition
    · subst other
      simp [Group.commit] at none
    · simpa [Group.commit, same] using none
  · by_cases same : other = partition
    · subst other
      have isOffset : offset = committed := by simpa [Group.commit] using isCommitted
      exact isOffset ▸ pushed
    · exact sound.committed other committed (by simpa [Group.commit, same] using isCommitted)

theorem committing {offsets : List (TopicPartition × Nat)}
    (pushed : ∀ entry ∈ offsets, state.Pushed entry.1 entry.2) : (state.commitAll offsets).Sound := by
  induction offsets generalizing state with
  | nil => exact sound
  | cons entry rest ih =>
    exact ih (sound.commitOne (pushed entry List.mem_cons_self)) fun later there =>
      pushed later (List.mem_cons_of_mem _ there)

theorem append {timestamp : Int}
    (permitted : undisturbed.append state partition timestamp) : (state.append partition timestamp).Sound := by
  refine sound.frame rfl (fun member consumer running => ?_) (fun _ _ owns => owns) sound.committed
  exact
    { today := le_rfl
      queue := fun _ there => there
      owned := fun _ owns => ⟨owns, rfl, id⟩
      precedes := by
        intro other time offset precedes
        by_cases same : other = partition
        · subst other
          simpa [Group.append] using precedes.append [timestamp]
        · simpa [Group.append, same] using precedes
      quiet := by
        intro pass rest toCommit busy next other there owns quiet entry member_
        by_cases same : other = partition
        · subst other
          rcases (show entry ∈ state.log partition ∨ entry = timestamp by simpa [Group.append] using member_) with old | rfl
          · exact quiet entry old
          · exact permitted member consumer pass rest toCommit running busy next owns there
        · exact quiet entry (by simpa [Group.append, same] using member_) }

end

variable [DecidableEq Member]

section

variable (sound : state.Sound)
include sound

theorem assign (running : state.consumers member = some consumer)
    (polls : consumer.point = .polling) (unowned : state.owner partition = none)
    (new : partition ∉ consumer.assigned) : (state.assign member consumer partition).Sound := by
  have before := sound.consumers member consumer running
  have owner : ∀ {other}, other ≠ partition → (state.assign member consumer partition).owner other = state.owner other :=
    fun differs => Function.update_of_ne differs _ _
  -- Only a partition that was never committed starts anew.
  have start : ∀ {other}, (state.committed other = none → other ≠ partition) →
      (state.assign member consumer partition).start other = state.start other := by
    intro other differs
    simp only [Group.assign, Group.set]
    split
    next none =>
      by_cases same : other = partition
      · subst other
        exact absurd rfl (differs none)
      · exact Function.update_of_ne same _ _
    next => rfl
  have restarted : state.committed partition = none → (state.assign member consumer partition).start partition = 0 := by
    intro none
    simp [Group.assign, Group.set, none]
  have pushed : ∀ {other index}, (state.committed other = none → other ≠ partition) → state.Pushed other index →
      (state.assign member consumer partition).Pushed other index :=
    fun differs pushed index started below => pushed index (start differs ▸ started) below
  have outside : (consumer.assign partition (state.committed partition)).unplaced =
      (consumer.assign partition (state.committed partition)).fresh := by
    simp [Consumer.unplaced, Consumer.assign, polls]
  apply sound.update rfl
  · exact
      { clock := before.clock
        distinct := List.nodup_cons.mpr ⟨new, before.distinct⟩
        assigned := by
          intro other owns
          by_cases same : other = partition
          · exact same ▸ List.mem_cons_self
          · exact List.mem_cons_of_mem _ (before.assigned other (owner same ▸ owns))
        unread := by
          intro other owns open_
          have none : state.committed other = none := by
            refine open_.resolve_right fun there => ?_
            simp only [Consumer.pending, Consumer.assign, polls] at there
            cases there
          by_cases same : other = partition
          · subst other
            rw [restarted none]
            exact .zero
          · rw [start fun _ => same]
            exact before.unread other (owner same ▸ owns) (.inl none)
        stored := by
          intro other offset owns stored
          by_cases same : other = partition
          · subst other
            simp [Consumer.assign] at stored
          · refine pushed (fun _ => same) (before.stored other offset (owner same ▸ owns) ?_)
            simpa [Consumer.assign, same] using stored
        read := by
          intro other index owns settled started below
          by_cases same : other = partition
          · subst other
            -- The new owner goes on from what is committed, below which all has been pushed.
            cases known : state.committed partition with
            | none => simp [Consumer.assign, known] at below
            | some offset =>
              left
              refine sound.committed partition offset known index ?_ (by simpa [Consumer.assign, known] using below)
              rwa [start fun none => by rw [known] at none; cases none] at started
          · have settledBefore : consumer.Settled other := by
              refine settled.imp_right fun placed left => placed ?_
              rw [outside]
              rw [Consumer.Sound.unplaced_of_polling polls] at left
              simp only [Consumer.fresh, Consumer.assign, List.mem_filter, List.mem_cons] at left ⊢
              exact ⟨.inr left.1, left.2⟩
            have started' := start (fun _ => same) ▸ started
            rcases before.read other index (owner same ▸ owns) settledBefore started'
              (by simpa [Consumer.assign, same] using below) with there | held
            · exact .inl there
            · rw [polls] at held
              cases held
        point := by simp [Consumer.PointSound, Consumer.assign, polls] }
  · intro other differs another
    refine .of_log rfl rfl (fun _ there => there) fun shared owns => ?_
    have apart : shared ≠ partition := by
      rintro rfl
      -- A partition of another member is not the one assigned, which nobody owned.
      have mine : some member = some other := by simpa [Group.assign, Group.set] using owns
      exact differs (Option.some.inj mine).symm
    exact ⟨owner apart ▸ owns, start fun _ => apart, id⟩
  · intro other another owns
    by_cases same : other = partition
    · subst other
      have mine : some member = some another := by simpa [Group.assign, Group.set] using owns
      exact .inl (Option.some.inj mine).symm
    · exact .inr (owner same ▸ owns)
  · intro other offset known
    exact pushed (fun none => by rw [show state.committed other = some offset from known] at none; cases none)
      (sound.committed other offset known)

theorem revoke (running : state.consumers member = some consumer)
    (polls : consumer.point = .polling) (partition : TopicPartition) :
    (state.revoke member consumer partition).Sound := by
  have before := sound.consumers member consumer running
  have kept : ∀ other owner, (state.revoke member consumer partition).owner other = some owner →
      state.owner other = some owner ∧ (owner = member → other ≠ partition) := by
    intro other owner owns
    simp only [Group.revoke, Group.set] at owns
    split at owns
    next mine =>
      by_cases same : other = partition
      · subst other
        simp at owns
      · rw [Function.update_of_ne same] at owns
        exact ⟨owns, fun _ => same⟩
    next others =>
      refine ⟨owns, ?_⟩
      rintro rfl rfl
      exact others owns
  have outside : (consumer.revoke partition).unplaced = (consumer.revoke partition).fresh := by
    simp [Consumer.unplaced, Consumer.revoke, polls]
  apply sound.update rfl
  · exact
      { clock := before.clock
        distinct := before.distinct.filter _
        assigned := by
          intro other owns
          obtain ⟨owned, apart⟩ := kept other member owns
          simpa [Consumer.revoke] using ⟨before.assigned other owned, apart rfl⟩
        unread := by
          intro other owns open_
          refine before.unread other (kept other member owns).1 (open_.imp_right fun there => ?_)
          simp only [Consumer.pending, Consumer.revoke, polls] at there
          cases there
        stored := fun other offset owns => before.stored other offset (kept other member owns).1
        read := by
          intro other index owns settled started below
          obtain ⟨owned, apart⟩ := kept other member owns
          have settledBefore : consumer.Settled other := by
            refine settled.imp_right fun placed left => placed ?_
            rw [outside]
            rw [Consumer.Sound.unplaced_of_polling polls] at left
            simp only [Consumer.fresh, Consumer.revoke, List.mem_filter] at left ⊢
            exact ⟨⟨left.1, by simpa using apart rfl⟩, left.2⟩
          exact before.read other index owned settledBefore started below
        point := by simp [Consumer.PointSound, Consumer.revoke, polls] }
  · intro other _ another
    exact .of_log rfl rfl (fun _ there => there) fun shared owns => ⟨(kept shared other owns).1, rfl, id⟩
  · exact fun other owner owns => .inr (kept other owner owns).1
  · exact sound.committed

theorem push (running : state.consumers member = some consumer) (has : consumer.point = .received partition offset)
    (consumes : consumer.loop = .consuming) :
    ((state.push partition offset).set member (consumer.goTo (.pushed partition offset))).Sound := by
  have frame : ∀ other another, state.Frame (state.push partition offset) other another := fun _ _ =>
    .of_log rfl rfl (fun _ there => List.mem_append_left _ there) fun _ owns => ⟨owns, rfl, id⟩
  have listed : (state.push partition offset).Sound :=
    sound.frame rfl (fun other another _ => frame other another) (fun _ _ owns => owns) fun other committed known =>
      fun index started below => List.mem_append_left _ (sound.committed other committed known index started below)
  have mine := (frame member consumer).sound (sound.consumers member consumer running)
  exact listed.set (mine.pushed has consumes (List.mem_append_right _ (List.mem_singleton.mpr rfl)))

theorem position (running : state.consumers member = some consumer) {pass : Pass}
    (busy : consumer.point = .positioning pass) {rest : List (TopicPartition × Option Nat)}
    (next : pass.stage = .seeking ((partition, some offset) :: rest) toCommit) :
    (state.position member (consumer.advance pass (.seeking rest (toCommit ++ [(partition, offset)]))) partition
      offset).Sound := by
  have before := sound.consumers member consumer running
  obtain ⟨isFresh, within, stageSound⟩ := before.stage busy
  simp only [next, Positioning.Sound, List.map_cons, List.cons_append, List.nodup_cons, List.mem_append, not_or] at stageSound
  obtain ⟨⟨⟨apartRest, apartCommit⟩, distinct⟩, resolved, placed⟩ := stageSound
  let after := state.position member (consumer.advance pass (.seeking rest (toCommit ++ [(partition, offset)])))
    partition offset
  have started : state.owner partition = some member → after.start partition = offset := by
    intro owns
    simp [after, Group.position, Group.set, owns]
  have start : ∀ {other}, (state.owner other = some member → other ≠ partition) →
      after.start other = state.start other := by
    intro other differs
    simp only [after, Group.position, Group.set]
    split
    next owns =>
      by_cases same : other = partition
      · subst other
        exact absurd rfl (differs owns)
      · exact Function.update_of_ne same _ _
    next => rfl
  have resolvedHere := resolved _ List.mem_cons_self
  -- Starts only move forward, so what was pushed up to an offset still is.
  have forward : ∀ other, state.start other ≤ after.start other := by
    intro other
    by_cases mine : state.owner other = some member ∧ other = partition
    · obtain ⟨owns, rfl⟩ := mine
      exact started owns ▸ (resolvedHere owns).1
    · exact (start fun owns same => mine ⟨owns, same⟩).ge
  have pushed : ∀ other index, state.Pushed other index → after.Pushed other index :=
    fun other index pushed at_ begun below => pushed at_ ((forward other).trans begun) below
  show after.Sound
  apply sound.update rfl
  · exact
      { clock := before.clock
        distinct := before.distinct
        assigned := before.assigned
        unread := by
          intro other owns open_
          by_cases same : other = partition
          · subst other
            exact (started owns).symm ▸ (resolvedHere owns).2
          · rw [start fun _ => same]
            refine before.unread other owns (open_.imp_right fun there => ?_)
            simp only [Consumer.pending, busy, next, Positioning.pending, List.map_cons, List.mem_cons]
            exact .inr there
        stored := fun other stored owns isStored => pushed other stored (before.stored other stored owns isStored)
        read := by
          intro other index owns settled begun below
          by_cases same : other = partition
          · subst other
            rw [started owns] at begun
            have : index < offset := by simpa [Consumer.markSought, Consumer.seek] using below
            omega
          · have settledBefore : consumer.Settled other := by
              refine settled.imp_right fun placed left => placed ?_
              simp only [Consumer.unplaced, busy, next, Positioning.unplaced, List.map_cons, List.mem_cons] at left
              exact left.resolve_left same
            have below' : index < consumer.position other := by
              simpa [Consumer.markSought, Consumer.seek, Consumer.advance, Consumer.goTo, same] using below
            rcases before.read other index owns settledBefore (start (fun _ => same) ▸ begun) below' with there | held
            · exact .inl there
            · rw [busy] at held
              cases held
        point := by
          refine ⟨isFresh, fun other there => within other ?_, ?_, fun entry there owns => ?_, fun entry there owns => ?_⟩
          · rw [next]
            exact List.mem_cons_of_mem _ there
          · rw [List.map_append, ← List.append_assoc]
            refine List.nodup_append.mpr ⟨distinct, by simp, ?_⟩
            rintro other there _ last rfl
            obtain rfl : other = partition := by simpa using last
            exact (List.mem_append.mp there).elim apartRest apartCommit
          · have differs : entry.1 ≠ partition := fun same => apartRest (same ▸ List.mem_map_of_mem there)
            have old := resolved entry (List.mem_cons_of_mem _ there) owns
            cases answer : entry.2 with
            | none =>
              rw [answer] at old
              exact old
            | some found =>
              rw [answer] at old
              exact ⟨(start fun _ => differs).symm ▸ old.1, old.2⟩
          · rcases List.mem_append.mp there with earlier | last
            · have differs : entry.1 ≠ partition := fun same => apartCommit (same ▸ List.mem_map_of_mem earlier)
              obtain ⟨isStart, precedes⟩ := placed entry earlier owns
              exact ⟨(start fun _ => differs).trans isStart, precedes⟩
            · obtain rfl := List.mem_singleton.mp last
              exact ⟨started owns, (resolvedHere owns).2⟩ }
  · intro other differs another
    refine .of_log rfl rfl (fun _ there => there) fun shared owns => ⟨owns, start fun mine => ?_, id⟩
    rw [show state.owner shared = some other from owns] at mine
    exact absurd (Option.some.inj mine) differs
  · exact fun other owner owns => .inr owns
  · exact fun other committed known => pushed other committed (sound.committed other committed known)

theorem commit (running : state.consumers member = some consumer) {pass : Pass}
    (busy : consumer.point = .positioning pass) (next : pass.stage = .committing toCommit)
    (owns : ∀ entry ∈ toCommit, state.owner entry.1 = some member) :
    ((state.commitAll toCommit).set member (consumer.advance pass (.answering toCommit))).Sound := by
  have before := sound.consumers member consumer running
  have stageSound := (before.stage busy).2.2
  simp only [next, Positioning.Sound] at stageSound
  have starts : ∀ entry ∈ toCommit, state.Pushed entry.1 entry.2 := by
    intro entry there index started below
    rw [(stageSound entry there (owns entry there)).1] at started
    omega
  have committed := sound.committing starts
  have same : (state.commitAll toCommit).consumers = state.consumers ∧ (state.commitAll toCommit).log = state.log :=
    ⟨commitAll_consumers toCommit, commitAll_log toCommit⟩
  have still := committed.consumers member consumer (same.1 ▸ running)
  refine committed.set (still.advance busy _ (fun other => ?_) (fun other there => by cases there) fun entry there => ?_)
  · rw [next]
    exact Iff.rfl
  · rw [same.2]
    exact (stageSound entry there (owns entry there)).2

theorem step (taken : Step undisturbed state after) : after.Sound := by
  cases taken with
  | append permitted => exact sound.append permitted
  | midnight => exact sound.midnight
  | spawn absent resolved _ => exact sound.spawn absent resolved
  | crash => exact sound.crash _
  | lose => exact sound.lose _
  | autoCommit running stored owns =>
    exact sound.commitOne ((sound.consumers _ _ running).stored _ _ owns stored)
  | assign running polls unowned new => exact sound.assign running polls unowned new
  | revoke running polls => exact sound.revoke running polls _
  | roll running polls => exact sound.set ((sound.consumers _ _ running).roll polls _)
  | check running polls => exact sound.set ((sound.consumers _ _ running).reposition polls _)
  | receive running polls _ _ _ => exact sound.set ((sound.consumers _ _ running).receive polls _)
  | firstMessage running has waits => exact sound.set ((sound.consumers _ _ running).firstMessage has waits)
  | push running has consumes => exact sound.push running has consumes
  | store running has => exact sound.set ((sound.consumers _ _ running).stored_at has)
  | storeFails running has => exact sound.set ((sound.consumers _ _ running).unstored has)
  | askCommitted running busy next =>
    exact sound.set ((sound.consumers _ _ running).askCommitted sound.committed busy next)
  | resume running busy next => exact sound.set ((sound.consumers _ _ running).resume busy next)
  | resumed running busy next => exact sound.set ((sound.consumers _ _ running).resumed busy next)
  | resolve running busy next => exact sound.set ((sound.consumers _ _ running).resolve busy next)
  | fetchWatermarks running busy next => exact sound.set ((sound.consumers _ _ running).fetchWatermarks busy next)
  | seek running busy next => exact sound.position running busy next
  | sought running busy next => exact sound.set ((sound.consumers _ _ running).sought busy next)
  | commit running busy next owns => exact sound.commit running busy next owns
  | answer running busy next => exact sound.set ((sound.consumers _ _ running).answer busy next)
  | positioned running busy next => exact sound.set ((sound.consumers _ _ running).positionedBy busy next)
  | fails running busy _ => exact sound.set ((sound.consumers _ _ running).fails busy)

end

theorem reached (run : Runs undisturbed state) : state.Sound := by
  refine Reachable.invariant Sound ?_ (fun _ _ _ sound taken => sound.step taken) run
  rintro _ ⟨today, rfl⟩
  exact .empty today

end Group.Sound

def Group.StartsInTime (state : Group Member) : Prop :=
  ∀ member consumer pass toCommit, state.consumers member = some consumer →
    consumer.point = .positioning pass → pass.stage = .returned toCommit →
    ∀ partition offset, (partition, offset) ∈ toCommit →
    ∀ index timestamp, (state.log partition)[index]? = some timestamp → consumer.requested ≤ timestamp →
      offset ≤ index

def Group.HandedOn (state : Group Member) : Prop :=
  ∀ partition offset, state.committed partition = some offset →
    ∀ index, state.start partition ≤ index → index < offset → (partition, index) ∈ state.queue

theorem no_alert_lost [DecidableEq Member] {state : Group Member} (run : Group.Runs Group.undisturbed state) :
    state.StartsInTime ∧ state.HandedOn := by
  have sound := Group.Sound.reached run
  refine ⟨?_, sound.committed⟩
  intro member consumer pass toCommit running busy next partition offset there index timestamp has late
  have stageSound := ((sound.consumers member consumer running).stage busy).2.2
  simp only [next, Positioning.Sound] at stageSound
  exact (stageSound _ there).le has late

/-! ## A message between two answers -/

namespace Group

variable [DecidableEq Member]

def proceeds : Nat → Group Member → Member → Group Member
  | 0, state, _ => state
  | count + 1, state, member => (state.proceed member).proceeds count member

theorem proceeds_run {permits : Permits Member} (count : Nat) (state : Group Member) (member : Member) :
    Relation.ReflTransGen (Step permits) state (state.proceeds count member) := by
  induction count generalizing state with
  | zero => exact .refl
  | succ count ih => exact (state.proceed_run member).trans (ih _)

def brings (state : Group Member) (member : Member) (partition : TopicPartition) : Group Member :=
  (state.consumers member).elim state fun consumer => state.assign member consumer partition

def polls (state : Group Member) (member : Member) (partition : TopicPartition) : Group Member :=
  (state.consumers member).elim state fun consumer => state.set member (consumer.receive partition)

def checks (state : Group Member) (member : Member) : Group Member :=
  (state.consumers member).elim state fun consumer => state.set member (consumer.reposition .check)

def givesUp (state : Group Member) (member : Member) : Group Member :=
  (state.consumers member).elim state fun consumer => state.set member (consumer.goTo .polling)

end Group

def night : TopicPartition := ("ztf_20260101_programid1", 0)

def unresolved : Group Nat :=
  (((((Group.empty Nat 0).append night (-5)).set 0 (.new (StartDate.current.plan 0))).brings 0 night).polls 0
    night).proceeds 4 0

theorem unresolved_run {permits : Permits Nat} (quiet : permits.append (Group.empty Nat 0) night (-5))
    (receives : ∀ state consumer, consumer.loop = .waiting → permits.receive state consumer night) :
    Group.Runs permits unresolved := by
  have started : Group.Runs permits
      (((Group.empty Nat 0).append night (-5)).set 0 (.new (StartDate.current.plan 0))) :=
    .next (.next (.start ⟨0, rfl⟩) (.append quiet)) (.spawn rfl le_rfl rfl)
  have assigned := Reachable.next started (@Group.Step.assign Nat _ _ _ 0 _ night rfl rfl rfl List.not_mem_nil)
  have polled := Reachable.next assigned
    (@Group.Step.receive Nat _ _ _ 0 _ night rfl rfl List.mem_cons_self (by decide) (receives _ _ rfl))
  exact polled.trans (Group.proceeds_run 4 _ 0)

def handedOn : Group Nat :=
  ((((unresolved.proceeds 6 0).append night 7).polls 0 night).proceeds 2 0).commit night 2

theorem no_alert_lost_handedOn :
    handedOn.committed night = some 2 ∧ handedOn.start night = 1 ∧ handedOn.StartsInTime ∧ handedOn.HandedOn := by
  have asked : Group.Runs Group.undisturbed unresolved :=
    unresolved_run (fun _ _ _ _ _ running => by cases running) fun _ _ _ => trivial
  have quiet : Group.undisturbed.append (unresolved.proceeds 6 0) night 7 := by
    intro member consumer pass rest toCommit running busy _ owns _
    obtain rfl : 0 = member := Option.some.inj owns
    cases running
    cases busy
  have later := Reachable.next (asked.trans (Group.proceeds_run 6 _ 0)) (.append quiet)
  have polled := Reachable.next later
    (@Group.Step.receive Nat _ _ _ 0 _ night rfl rfl (by decide) (by decide) trivial)
  have committed := Reachable.next (polled.trans (Group.proceeds_run 2 _ 0))
    (@Group.Step.autoCommit Nat _ _ _ 0 _ night 2 rfl rfl rfl)
  exact ⟨rfl, rfl, no_alert_lost committed⟩

def skipped : Group Nat :=
  (unresolved.append night 7).proceeds 5 0

/-- The consumer seeks past it and commits. -/
theorem alert_skipped : Group.Runs .all skipped ∧ ¬ skipped.StartsInTime := by
  have asked : Group.Runs .all unresolved := unresolved_run trivial fun _ _ _ => trivial
  have appended : Group.Runs .all (unresolved.append night 7) := .next asked (.append trivial)
  refine ⟨appended.trans (Group.proceeds_run 5 _ 0), fun inTime => ?_⟩
  have late := inTime 0 _ _ [(night, 2)] rfl rfl rfl night 2 List.mem_cons_self 1 7 rfl (by decide)
  omega

end Boom.Kafka
