import Boom.Foundations.TimedLog
import Boom.Foundations.Transition

/-! # The Kafka consumers of a group

Consumers move the messages of their partitions from the brokers to a Redis list.  A
partition with a committed offset is read from there; one without is read from the
requested time on, once its consumer has positioned it, and from the earliest message
before that.

A replay has a group of its own, stores no offset and never positions a partition, so the
consumers here are the long-running ones. -/

namespace Boom.Kafka

open Boom.Foundations

abbrev TopicPartition := String × Int32

/-! ## Where a consumer starts -/

inductive StartDate where
  | current
  | since (timestamp : Int)
  | pinned (timestamp : Int)
deriving DecidableEq, Repr

structure StartPlan where
  positionTimestamp : Int
  subscriptionTimestamp : Int
  followsClock : Bool
  positionsAtRolledDay : Bool
  replay : Bool
deriving DecidableEq, Repr

def secondsPerDay : Int := 86400

def midnight (day : Int) : Int :=
  day * secondsPerDay

def StartDate.followsClock : StartDate → Bool
  | .current | .since _ => true
  | .pinned _ => false

def StartDate.plan (start : StartDate) (today : Int) : StartPlan where
  positionTimestamp :=
    match start with
    | .current => midnight today
    | .since timestamp | .pinned timestamp => timestamp
  subscriptionTimestamp :=
    match start with
    | .pinned timestamp => timestamp
    | .current | .since _ => midnight today
  followsClock := start.followsClock
  positionsAtRolledDay := start == .current
  replay := start matches .pinned _

def rolloverTarget (followCurrentDate : Bool) (subscribedDate today : Int) : Option Int :=
  if !followCurrentDate || today == subscribedDate then none else some (midnight today)

/-! ## One consumer -/

/-- `position_partitions`, between two of its calls. -/
inductive Positioning where
  | committed
  /-- Seeking the partitions that have a committed offset; the others are to be resolved. -/
  | resuming (rest : List (TopicPartition × Nat)) (toResolve : List TopicPartition)
  | resolving (toResolve : List TopicPartition)
  /-- Seeking to the offsets resolved; `none` where no message is at or after the time. -/
  | seeking (rest : List (TopicPartition × Option Nat)) (toCommit : List (TopicPartition × Nat))
  | committing (toCommit : List (TopicPartition × Nat))
  /-- The commit took effect, and its answer may still be lost. -/
  | answering (toCommit : List (TopicPartition × Nat))
  | returned (toCommit : List (TopicPartition × Nat))

inductive Caller where
  | check
  | firstMessage

structure Pass where
  fresh : List TopicPartition
  caller : Caller
  stage : Positioning

/-- The two poll loops. -/
inductive Loop where
  | waiting
  | consuming
deriving DecidableEq, Repr

inductive Point where
  | polling
  | received (partition : TopicPartition) (offset : Nat)
  | pushed (partition : TopicPartition) (offset : Nat)
  | positioning (pass : Pass)

structure Consumer where
  plan : StartPlan
  subscribedDate : Int
  positionTimestamp : Int
  assigned : List TopicPartition
  /-- Where the next message is fetched from, for an assigned partition. -/
  position : TopicPartition → Nat
  stored : TopicPartition → Option Nat
  positioned : List TopicPartition
  loop : Loop
  point : Point
  /-- History: assigned since the last pass that went through. -/
  arrived : List TopicPartition
  /-- History: sought to the requested time since it was assigned. -/
  sought : List TopicPartition

namespace Consumer

def new (plan : StartPlan) : Consumer where
  plan := plan
  subscribedDate := plan.subscriptionTimestamp / secondsPerDay
  positionTimestamp := plan.positionTimestamp
  assigned := []
  position := fun _ => 0
  stored := fun _ => none
  positioned := []
  loop := .waiting
  point := .polling
  arrived := []
  sought := []

def requested (consumer : Consumer) : Int :=
  consumer.positionTimestamp * 1000

def rollSubscriptionIfNeeded (consumer : Consumer) (today : Int) (subscribes : Bool) : Consumer :=
  match rolloverTarget consumer.plan.followsClock consumer.subscribedDate today with
  | none => consumer
  | some newTimestamp =>
    if subscribes then
      { consumer with
        subscribedDate := today
        positionTimestamp :=
          if consumer.plan.positionsAtRolledDay then newTimestamp else consumer.positionTimestamp }
    else consumer

def assign (consumer : Consumer) (partition : TopicPartition) (committed : Option Nat) : Consumer :=
  { consumer with
    assigned := partition :: consumer.assigned
    position := Function.update consumer.position partition (committed.getD 0)
    stored := Function.update consumer.stored partition none
    arrived := partition :: consumer.arrived
    sought := consumer.sought.filter (· ≠ partition) }

def revoke (consumer : Consumer) (partition : TopicPartition) : Consumer :=
  { consumer with assigned := consumer.assigned.filter (· ≠ partition) }

def seek (consumer : Consumer) (partition : TopicPartition) (offset : Nat) : Consumer :=
  { consumer with position := Function.update consumer.position partition offset }

def goTo (consumer : Consumer) (point : Point) : Consumer :=
  { consumer with point }

def receive (consumer : Consumer) (partition : TopicPartition) : Consumer :=
  (consumer.seek partition (consumer.position partition + 1)).goTo
    (.received partition (consumer.position partition))

def storeOffset (consumer : Consumer) (partition : TopicPartition) (offset : Nat) : Consumer :=
  { consumer with stored := Function.update consumer.stored partition (some (offset + 1)) }

def fresh (consumer : Consumer) : List TopicPartition :=
  consumer.assigned.filter (· ∉ consumer.positioned)

def reposition (consumer : Consumer) (caller : Caller) : Consumer :=
  consumer.goTo (.positioning
    { fresh := consumer.fresh
      caller := caller
      stage := if consumer.fresh.isEmpty then .returned [] else .committed })

def firstMessage (consumer : Consumer) (partition : TopicPartition) (offset : Nat) : Consumer :=
  (if partition ∈ consumer.positioned then consumer.seek partition offset else consumer).reposition .firstMessage

def advance (consumer : Consumer) (pass : Pass) (stage : Positioning) : Consumer :=
  consumer.goTo (.positioning { pass with stage })

def markSought (consumer : Consumer) (partition : TopicPartition) : Consumer :=
  { consumer with sought := partition :: consumer.sought }

def positionedBy (consumer : Consumer) (pass : Pass) : Consumer :=
  { consumer with
    positioned := pass.fresh ++ consumer.positioned
    loop :=
      match pass.caller with
      | .check => consumer.loop
      | .firstMessage => .consuming
    point := .polling
    arrived := [] }

end Consumer

/-! ## The group -/

variable {Member : Type}

structure Group (Member : Type) where
  /-- The timestamps of a partition's messages, in milliseconds. -/
  log : TopicPartition → List Int
  committed : TopicPartition → Option Nat
  /-- Whose commits the broker takes for a partition. -/
  owner : TopicPartition → Option Member
  /-- The Redis list, each payload under the message it came in. -/
  queue : List (TopicPartition × Nat)
  consumers : Member → Option Consumer
  today : Int
  /-- History: where reading a partition started, by the reset policy or a positioning. -/
  start : TopicPartition → Nat

/-- What a run may contain. -/
structure Permits (Member : Type) where
  append : Group Member → TopicPartition → Int → Prop
  receive : Group Member → Consumer → TopicPartition → Prop

def Permits.all : Permits Member :=
  ⟨fun _ _ _ => True, fun _ _ _ => True⟩

namespace Group

def empty (Member : Type) (today : Int) : Group Member where
  log := fun _ => []
  committed := fun _ => none
  owner := fun _ => none
  queue := []
  consumers := fun _ => none
  today := today
  start := fun _ => 0

variable [DecidableEq Member]

def set (state : Group Member) (member : Member) (consumer : Consumer) : Group Member :=
  { state with consumers := Function.update state.consumers member (some consumer) }

def append (state : Group Member) (partition : TopicPartition) (timestamp : Int) : Group Member :=
  { state with log := Function.update state.log partition (state.log partition ++ [timestamp]) }

def lose (state : Group Member) (partition : TopicPartition) : Group Member :=
  { state with owner := Function.update state.owner partition none }

def crash (state : Group Member) (member : Member) : Group Member :=
  { state with
    owner := fun partition => if state.owner partition = some member then none else state.owner partition
    consumers := Function.update state.consumers member none }

def assign (state : Group Member) (member : Member) (consumer : Consumer) (partition : TopicPartition) :
    Group Member :=
  { state with
    owner := Function.update state.owner partition (some member)
    start :=
      if state.committed partition = none then Function.update state.start partition 0 else state.start }.set member
    (consumer.assign partition (state.committed partition))

def revoke (state : Group Member) (member : Member) (consumer : Consumer) (partition : TopicPartition) :
    Group Member :=
  { state with
    owner :=
      if state.owner partition = some member then Function.update state.owner partition none
      else state.owner }.set member (consumer.revoke partition)

def commit (state : Group Member) (partition : TopicPartition) (offset : Nat) : Group Member :=
  { state with committed := Function.update state.committed partition (some offset) }

def commitAll (state : Group Member) (offsets : List (TopicPartition × Nat)) : Group Member :=
  offsets.foldl (fun group entry => group.commit entry.1 entry.2) state

def push (state : Group Member) (partition : TopicPartition) (offset : Nat) : Group Member :=
  { state with queue := state.queue ++ [(partition, offset)] }

def position (state : Group Member) (member : Member) (consumer : Consumer) (partition : TopicPartition)
    (offset : Nat) : Group Member :=
  { state with
    start :=
      if state.owner partition = some member then Function.update state.start partition offset
      else state.start }.set member ((consumer.seek partition offset).markSought partition)

def resume (state : Group Member) (fresh : List TopicPartition) : Positioning :=
  .resuming (fresh.filterMap fun partition => (state.committed partition).map (partition, ·))
    (fresh.filter fun partition => (state.committed partition).isNone)

def offsetsForTimes (state : Group Member) (toResolve : List TopicPartition) (timestamp : Int) :
    List (TopicPartition × Option Nat) :=
  toResolve.map fun partition => (partition, offsetForTime (state.log partition) timestamp)

def highWatermark (state : Group Member) (partition : TopicPartition) : Nat :=
  (state.log partition).length

/-- Rebalances reach a consumer while it polls, and a call of a pass may fail at any
    point, its effect made or not. -/
inductive Step (permits : Permits Member) : Group Member → Group Member → Prop where
  | append {state partition timestamp} (permitted : permits.append state partition timestamp) :
      Step permits state (state.append partition timestamp)
  | midnight {state} : Step permits state { state with today := state.today + 1 }
  | spawn {state member} {date : StartDate} {day : Int} (absent : state.consumers member = none)
      (resolved : day ≤ state.today) (runs : (date.plan day).replay = false) :
      Step permits state (state.set member (.new (date.plan day)))
  | crash {state member} : Step permits state (state.crash member)
  | lose {state partition} : Step permits state (state.lose partition)
  | autoCommit {state member consumer partition offset} (running : state.consumers member = some consumer)
      (stored : consumer.stored partition = some offset) (owns : state.owner partition = some member) :
      Step permits state (state.commit partition offset)
  | assign {state member consumer partition} (running : state.consumers member = some consumer)
      (polls : consumer.point = .polling) (unowned : state.owner partition = none)
      (new : partition ∉ consumer.assigned) : Step permits state (state.assign member consumer partition)
  | revoke {state member consumer partition} (running : state.consumers member = some consumer)
      (polls : consumer.point = .polling) : Step permits state (state.revoke member consumer partition)
  | roll {state member consumer subscribes} (running : state.consumers member = some consumer)
      (polls : consumer.point = .polling) :
      Step permits state (state.set member (consumer.rollSubscriptionIfNeeded state.today subscribes))
  | check {state member consumer} (running : state.consumers member = some consumer)
      (polls : consumer.point = .polling) : Step permits state (state.set member (consumer.reposition .check))
  | receive {state member consumer partition} (running : state.consumers member = some consumer)
      (polls : consumer.point = .polling) (assigned : partition ∈ consumer.assigned)
      (available : consumer.position partition < (state.log partition).length)
      (permitted : permits.receive state consumer partition) :
      Step permits state (state.set member (consumer.receive partition))
  | firstMessage {state member consumer partition offset} (running : state.consumers member = some consumer)
      (has : consumer.point = .received partition offset) (waits : consumer.loop = .waiting) :
      Step permits state (state.set member (consumer.firstMessage partition offset))
  | push {state member consumer partition offset} (running : state.consumers member = some consumer)
      (has : consumer.point = .received partition offset) (consumes : consumer.loop = .consuming) :
      Step permits state ((state.push partition offset).set member (consumer.goTo (.pushed partition offset)))
  | store {state member consumer partition offset} (running : state.consumers member = some consumer)
      (has : consumer.point = .pushed partition offset) :
      Step permits state (state.set member ((consumer.storeOffset partition offset).goTo .polling))
  | storeFails {state member consumer partition offset} (running : state.consumers member = some consumer)
      (has : consumer.point = .pushed partition offset) :
      Step permits state (state.set member (consumer.goTo .polling))
  | askCommitted {state member consumer pass} (running : state.consumers member = some consumer)
      (busy : consumer.point = .positioning pass) (next : pass.stage = .committed) :
      Step permits state (state.set member (consumer.advance pass (state.resume pass.fresh)))
  | resume {state member consumer pass partition offset rest toResolve}
      (running : state.consumers member = some consumer) (busy : consumer.point = .positioning pass)
      (next : pass.stage = .resuming ((partition, offset) :: rest) toResolve) :
      Step permits state
        (state.set member ((consumer.seek partition offset).advance pass (.resuming rest toResolve)))
  | resumed {state member consumer pass toResolve} (running : state.consumers member = some consumer)
      (busy : consumer.point = .positioning pass) (next : pass.stage = .resuming [] toResolve) :
      Step permits state (state.set member
        (consumer.advance pass (if toResolve.isEmpty then .returned [] else .resolving toResolve)))
  | resolve {state member consumer pass toResolve} (running : state.consumers member = some consumer)
      (busy : consumer.point = .positioning pass) (next : pass.stage = .resolving toResolve) :
      Step permits state (state.set member
        (consumer.advance pass (.seeking (state.offsetsForTimes toResolve consumer.requested) [])))
  | fetchWatermarks {state member consumer pass partition rest toCommit}
      (running : state.consumers member = some consumer) (busy : consumer.point = .positioning pass)
      (next : pass.stage = .seeking ((partition, none) :: rest) toCommit) :
      Step permits state (state.set member
        (consumer.advance pass (.seeking ((partition, some (state.highWatermark partition)) :: rest) toCommit)))
  | seek {state member consumer pass partition offset rest toCommit}
      (running : state.consumers member = some consumer) (busy : consumer.point = .positioning pass)
      (next : pass.stage = .seeking ((partition, some offset) :: rest) toCommit) :
      Step permits state (state.position member
        (consumer.advance pass (.seeking rest (toCommit ++ [(partition, offset)]))) partition offset)
  | sought {state member consumer pass toCommit} (running : state.consumers member = some consumer)
      (busy : consumer.point = .positioning pass) (next : pass.stage = .seeking [] toCommit) :
      Step permits state (state.set member
        (consumer.advance pass (if toCommit.isEmpty then .returned [] else .committing toCommit)))
  | commit {state member consumer pass toCommit} (running : state.consumers member = some consumer)
      (busy : consumer.point = .positioning pass) (next : pass.stage = .committing toCommit)
      (owns : ∀ entry ∈ toCommit, state.owner entry.1 = some member) :
      Step permits state
        ((state.commitAll toCommit).set member (consumer.advance pass (.answering toCommit)))
  | answer {state member consumer pass toCommit} (running : state.consumers member = some consumer)
      (busy : consumer.point = .positioning pass) (next : pass.stage = .answering toCommit) :
      Step permits state (state.set member (consumer.advance pass (.returned toCommit)))
  | positioned {state member consumer pass toCommit} (running : state.consumers member = some consumer)
      (busy : consumer.point = .positioning pass) (next : pass.stage = .returned toCommit) :
      Step permits state (state.set member (consumer.positionedBy pass))
  | fails {state member consumer pass} (running : state.consumers member = some consumer)
      (busy : consumer.point = .positioning pass) (open_ : ∀ toCommit, pass.stage ≠ .returned toCommit) :
      Step permits state (state.set member (consumer.goTo .polling))

variable (offsets : List (TopicPartition × Nat))

omit [DecidableEq Member] in
@[simp] theorem commitAll_consumers {state : Group Member} :
    (state.commitAll offsets).consumers = state.consumers := by
  induction offsets generalizing state with
  | nil => rfl
  | cons entry rest ih => exact ih

omit [DecidableEq Member] in
@[simp] theorem commitAll_log {state : Group Member} : (state.commitAll offsets).log = state.log := by
  induction offsets generalizing state with
  | nil => rfl
  | cons entry rest ih => exact ih

omit [DecidableEq Member] in
@[simp] theorem commitAll_queue {state : Group Member} : (state.commitAll offsets).queue = state.queue := by
  induction offsets generalizing state with
  | nil => rfl
  | cons entry rest ih => exact ih

/-- What a consumer does next when every call is answered; between polls there is no choice. -/
def proceed (state : Group Member) (member : Member) : Group Member :=
  match state.consumers member with
  | none => state
  | some consumer =>
    match consumer.point with
    | .polling => state
    | .received partition offset =>
      match consumer.loop with
      | .waiting => state.set member (consumer.firstMessage partition offset)
      | .consuming => (state.push partition offset).set member (consumer.goTo (.pushed partition offset))
    | .pushed partition offset => state.set member ((consumer.storeOffset partition offset).goTo .polling)
    | .positioning pass =>
      match pass.stage with
      | .committed => state.set member (consumer.advance pass (state.resume pass.fresh))
      | .resuming ((partition, offset) :: rest) toResolve =>
        state.set member ((consumer.seek partition offset).advance pass (.resuming rest toResolve))
      | .resuming [] toResolve =>
        state.set member
          (consumer.advance pass (if toResolve.isEmpty then .returned [] else .resolving toResolve))
      | .resolving toResolve =>
        state.set member
          (consumer.advance pass (.seeking (state.offsetsForTimes toResolve consumer.requested) []))
      | .seeking ((partition, none) :: rest) toCommit =>
        state.set member
          (consumer.advance pass (.seeking ((partition, some (state.highWatermark partition)) :: rest) toCommit))
      | .seeking ((partition, some offset) :: rest) toCommit =>
        state.position member
          (consumer.advance pass (.seeking rest (toCommit ++ [(partition, offset)]))) partition offset
      | .seeking [] toCommit =>
        state.set member
          (consumer.advance pass (if toCommit.isEmpty then .returned [] else .committing toCommit))
      | .committing toCommit =>
        if toCommit.all fun entry => state.owner entry.1 = some member then
          (state.commitAll toCommit).set member (consumer.advance pass (.answering toCommit))
        else state
      | .answering toCommit => state.set member (consumer.advance pass (.returned toCommit))
      | .returned _ => state.set member (consumer.positionedBy pass)

theorem proceed_run {permits : Permits Member} (state : Group Member) (member : Member) :
    Relation.ReflTransGen (Step permits) state (state.proceed member) := by
  unfold proceed
  split
  · exact .refl
  next consumer running =>
    split
    · exact .refl
    next has =>
      split
      next waits => exact .single (.firstMessage running has waits)
      next consumes => exact .single (.push running has consumes)
    next has => exact .single (.store running has)
    next pass busy =>
      split
      next next => exact .single (.askCommitted running busy next)
      next next => exact .single (.resume running busy next)
      next next => exact .single (.resumed running busy next)
      next next => exact .single (.resolve running busy next)
      next next => exact .single (.fetchWatermarks running busy next)
      next next => exact .single (.seek running busy next)
      next next => exact .single (.sought running busy next)
      next next =>
        split
        next owns => exact .single (.commit running busy next (by simpa using owns))
        next => exact .refl
      next next => exact .single (.answer running busy next)
      next next => exact .single (.positioned running busy next)

abbrev Runs (permits : Permits Member) : Group Member → Prop :=
  Reachable (fun state => ∃ today, state = empty Member today) (Step permits)

end Group

end Boom.Kafka
