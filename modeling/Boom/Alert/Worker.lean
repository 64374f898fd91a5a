import Boom.Alert.AuxUpdates

/-! # Alert workers and their queues

A worker moves a packet from the input list to the temp list, processes it, and then
acts on the outcome: an alert it added is pushed onto the output list, for
enrichment, and only then removed from the temp list; one that was there already is
just removed.  What dead workers left in the temp list is moved back to the input
list before new ones start.

A packet processed a second time finds its alert there and is not pushed.  So an
alert is pushed by the worker that inserted it or by none: the push is lost where
that worker stops in between, and nowhere else. -/

namespace Boom.Alert

open Boom.Foundations

/-! ## The model -/

abbrev Packet := List UInt8

def defaultMaxRetries : Nat := 5

/-- Where a worker is in its loop. -/
inductive Worker where
  | stopped
  | idle
  | processing (bytes : Packet) (program : Prog ZtfOp (Except AlertError ProcessAlertStatus))
  | pushing (bytes : Packet) (candid : Int) (retries : Nat)
  | removing (bytes : Packet) (retries : Nat)

structure Ingestion where
  db : ZtfDb
  input : List Packet
  temp : List Packet
  received : List Packet
  output : List Int
  workers : Nat → Worker

namespace Worker

def hands : Worker → Option Packet
  | .processing bytes _ | .pushing bytes _ _ | .removing bytes _ => some bytes
  | .stopped | .idle => none

def owes : Worker → Option Int
  | .processing _ (.ret (.ok (.added candid))) => some candid
  | .pushing _ candid _ => some candid
  | _ => none

def retry (again : Nat → Worker) (retries : Nat) (transient : Bool) : Worker :=
  match retries with
  | retries + 1 => if transient then again retries else .stopped
  | 0 => .stopped

def after (done : Worker) (again : Nat → Worker) (retries : Nat) (transient : Bool) :
    Delivery → Worker
  | .answered => done
  | .lost | .refused => retry again retries transient

end Worker

def handleProcessResult (bytes : Packet) : Except AlertError ProcessAlertStatus → Worker
  | .ok (.added candid) => .pushing bytes candid defaultMaxRetries
  | .ok (.exists _) => .removing bytes defaultMaxRetries
  | .error _ => .idle

def rpoplpush (source destination : List Packet) : Option (Packet × List Packet × List Packet) :=
  source.getLast?.map fun bytes => (bytes, source.dropLast, bytes :: destination)

def recoverTempQueue : Nat → List Packet × List Packet → List Packet × List Packet
  | 0, queues => queues
  | moves + 1, (temp, input) =>
    match rpoplpush temp input with
    | some (_, temp, input) => recoverTempQueue moves (temp, input)
    | none => (temp, input)

inductive Action where
  | arrive (bytes : Packet)
  | start (worker : Nat)
  | terminate (worker : Nat)
  | crash (worker : Nat)
  | retrieve (worker : Nat) (delivery : Delivery) (now : F64)
  | query (worker : Nat) (delivery : Delivery)
  | handle (worker : Nat)
  | push (worker : Nat) (delivery : Delivery) (transient : Bool)
  | remove (worker : Nat) (delivery : Delivery) (transient : Bool)
  | recover (moves : Nat)
  | outside (nearby : Neighbour → F64 → F64 → Option (Option String))

namespace Ingestion

def setWorker (state : Ingestion) (slot : Nat) (worker : Worker) : Ingestion :=
  { state with workers := Function.update state.workers slot worker }

def retrieveAvroBytes (decode : Packet → Except AlertError ZtfRawAvroAlert) (state : Ingestion)
    (slot : Nat) (now : F64) : Delivery → Ingestion
  | .refused => state
  | .lost =>
    match rpoplpush state.input state.temp with
    | some (_, input, temp) => { state with input := input, temp := temp }
    | none => state
  | .answered =>
    match rpoplpush state.input state.temp with
    | some (bytes, input, temp) =>
      { state with
        input := input
        temp := temp
        workers := Function.update state.workers slot <|
          if bytes.isEmpty then .idle else .processing bytes (processAlert (decode bytes) now).run }
    | none => state

/-- What an action leaves, where it can be taken. -/
def take (decode : Packet → Except AlertError ZtfRawAvroAlert) (state : Ingestion) :
    Action → Option Ingestion
  | .arrive bytes =>
    some { state with input := state.input ++ [bytes], received := bytes :: state.received }
  | .start slot =>
    match state.workers slot with
    | .stopped => some (state.setWorker slot .idle)
    | _ => none
  | .terminate slot =>
    match state.workers slot with
    | .idle => some (state.setWorker slot .stopped)
    | _ => none
  | .crash slot => some (state.setWorker slot .stopped)
  | .retrieve slot delivery now =>
    match state.workers slot with
    | .idle => some (state.retrieveAvroBytes decode slot now delivery)
    | _ => none
  | .query slot delivery =>
    match state.workers slot with
    | .processing bytes (.call op next) =>
      some { state with
        db := delivery.state op state.db
        workers := Function.update state.workers slot
          (.processing bytes (next (delivery.answer op state.db))) }
    | _ => none
  | .handle slot =>
    match state.workers slot with
    | .processing bytes (.ret result) => some (state.setWorker slot (handleProcessResult bytes result))
    | _ => none
  | .push slot delivery transient =>
    match state.workers slot with
    | .pushing bytes candid retries =>
      some { state with
        output := if delivery = .refused then state.output else candid :: state.output
        workers := Function.update state.workers slot <|
          Worker.after (.removing bytes defaultMaxRetries) (.pushing bytes candid) retries transient
            delivery }
    | _ => none
  | .remove slot delivery transient =>
    match state.workers slot with
    | .removing bytes retries =>
      some { state with
        temp := if delivery = .refused then state.temp else state.temp.erase bytes
        workers := Function.update state.workers slot <|
          Worker.after .idle (.removing bytes) retries transient delivery }
    | _ => none
  | .recover moves =>
    let (temp, input) := recoverTempQueue moves (state.temp, state.input)
    some { state with temp := temp, input := input }
  | .outside nearby => some { state with db := { state.db with nearby := nearby } }

def Enabled (state : Ingestion) : Action → Prop
  | .recover _ => ∀ slot, state.workers slot = .stopped
  | _ => True

def Step (decode : Packet → Except AlertError ZtfRawAvroAlert) (permit : Ingestion → Action → Prop)
    (state after : Ingestion) : Prop :=
  ∃ action, state.Enabled action ∧ permit state action ∧ state.take decode action = some after

def Quiet (state : Ingestion) : Prop :=
  (∀ slot, state.workers slot = .stopped) ∧
    ∀ candid, (state.db.alerts.get candid).isSome → candid ∈ state.output

end Ingestion

/-! ## The alert is inserted last -/

def ZtfOp.insertsNone {β : Type} : ZtfOp β → Prop
  | .insertAlert _ => False
  | _ => True

def ZtfOp.EndsWith {β : Type} (op : ZtfOp β)
    (next : Option β → Prog ZtfOp (Except AlertError ProcessAlertStatus)) : Prop :=
  match β, op, next with
  | _, .insertAlert alert, next => next (some true) = .ret (.ok (.added alert.candid))
  | _, _, _ => True

theorem ZtfOp.EndsWith.of_insertsNone {β : Type} {op : ZtfOp β} (none : op.insertsNone)
    (next : Option β → Prog ZtfOp (Except AlertError ProcessAlertStatus)) : op.EndsWith next := by
  cases op with
  | insertAlert alert => exact none.elim
  | _ => trivial

theorem getMatches_calls (catalog : Neighbour) (ra dec : F64) :
    (getMatches catalog ra dec).run.Calls ZtfOp.insertsNone := by
  unfold getMatches
  split
  next =>
    refine ⟨trivial, fun answer => ?_⟩
    match answer with
    | none => trivial
    | some none => trivial
    | some (some none) => trivial
    | some (some (some objectId)) => trivial
  next => trivial

theorem updateAuxFallback_calls (objectId : String) (packet : Lightcurves) (aliases : Option ZtfAliases) (now : F64) :
    (updateAuxFallback objectId packet aliases now).run.Calls ZtfOp.insertsNone := by
  unfold updateAuxFallback
  refine Prog.Calls.bindExcept ⟨trivial, fun _ => trivial⟩ fun matched => ?_
  split <;> trivial

theorem updateAux_calls (objectId : String) (packet : Lightcurves) (aliases : Option ZtfAliases)
    (now : F64) (existing : AlertAuxForUpdate) :
    (updateAux objectId packet aliases now existing).run.Calls ZtfOp.insertsNone := by
  unfold updateAux updateAuxInner
  refine Prog.Calls.tryCatch ?_ fun _ => updateAuxFallback_calls objectId packet aliases now
  refine Prog.Calls.bindExcept trivial fun push => ?_
  refine Prog.Calls.bindExcept ⟨trivial, fun _ => trivial⟩ fun matched => ?_
  split <;> trivial

theorem auxStep_calls (objectId : String) (ra dec : F64) (packet : Lightcurves)
    (aliases : Option ZtfAliases) (now : F64) :
    (auxStep objectId ra dec packet aliases now).run.Calls ZtfOp.insertsNone := by
  unfold auxStep getExistingAux
  refine Prog.Calls.bindExcept ?_ fun existing => ?_
  · refine Prog.Calls.bindExcept ⟨trivial, fun _ => trivial⟩ fun found => ?_
    split <;> trivial
  · cases existing with
    | some existing => exact updateAux_calls objectId packet aliases now existing
    | none =>
      refine Prog.Calls.bindExcept ⟨trivial, fun _ => trivial⟩ fun _ => ?_
      refine Prog.Calls.tryCatch ?_ fun error => ?_
      · refine Prog.Calls.bindExcept ⟨trivial, fun _ => trivial⟩ fun inserted => ?_
        split <;> trivial
      · cases error with
        | alertAuxExists => exact updateAuxFallback_calls objectId packet aliases now
        | _ => trivial

theorem prepareAlert_calls (alert : ZtfRawAvroAlert) (now : F64) :
    (prepareAlert alert now).run.Calls ZtfOp.insertsNone := by
  unfold prepareAlert getSurveyMatches formatAndInsertCutouts
  refine Prog.Calls.bindExcept ?_ fun aliases => ?_
  · refine Prog.Calls.bindExcept (getMatches_calls _ _ _) fun lsst => ?_
    exact Prog.Calls.bindExcept (getMatches_calls _ _ _) fun decam => trivial
  · refine Prog.Calls.bindExcept (auxStep_calls _ _ _ _ _ _) fun _ => ?_
    exact Prog.Calls.bindExcept ⟨trivial, fun _ => trivial⟩ fun _ => trivial

theorem processAlert_ends (decoded : Except AlertError ZtfRawAvroAlert) (now : F64) :
    (processAlert decoded now).run.Everywhere ZtfOp.EndsWith := by
  have free {β : Type} (op : ZtfOp β)
      (next : Option β → Prog ZtfOp (Except AlertError ProcessAlertStatus)) (none : op.insertsNone) :=
    ZtfOp.EndsWith.of_insertsNone none next
  unfold processAlert ask
  have decodes : (Prog.lift decoded : ZtfProg ZtfRawAvroAlert).run.Calls ZtfOp.insertsNone := trivial
  refine Prog.Everywhere.bindExcept decodes free fun alert => ?_
  refine Prog.Everywhere.bindExcept ⟨trivial, fun _ => trivial⟩ free fun count => ?_
  split
  next => trivial
  next =>
    refine Prog.Everywhere.bindExcept (prepareAlert_calls alert now) free fun _ => ?_
    refine ⟨rfl, fun answer => ?_⟩
    cases answer with
    | none => trivial
    | some inserted => trivial

theorem processAlert_returns (decoded : Except AlertError ZtfRawAvroAlert) (now : F64) :
    (processAlert decoded now).run.Returns fun result => ∀ candid, result = .ok (.added candid) →
      ∃ alert, decoded = .ok alert ∧ alert.candid = candid := by
  cases decoded with
  | error fault =>
    intro candid failed
    cases failed
  | ok alert =>
    have failed (error : AlertError) (candid : Int)
        (impossible : (.error error : Except AlertError ProcessAlertStatus) = .ok (.added candid)) :
        ∃ raw, (.ok alert : Except AlertError ZtfRawAvroAlert) = .ok raw ∧ raw.candid = candid :=
      nomatch impossible
    change ((ask (.countAlerts alert.candid) >>= _ : ZtfProg ProcessAlertStatus)).run.Returns _
    refine Prog.Returns.bindExcept failed fun count => ?_
    split
    next =>
      intro candid impossible
      cases impossible
    next =>
      refine Prog.Returns.bindExcept failed fun _ => ?_
      refine Prog.Returns.bindExcept failed fun inserted => ?_
      intro candid same
      split at same
      next =>
        cases same
        exact ⟨alert, rfl, rfl⟩
      next => cases same

/-! ## What the workers owe -/

variable {state after : Ingestion}

section Owed

variable {decode : Packet → Except AlertError ZtfRawAvroAlert}

def Worker.Traced (decode : Packet → Except AlertError ZtfRawAvroAlert) : Worker → Prop
  | .processing bytes program => program.Everywhere ZtfOp.EndsWith ∧
    program.Returns fun result => ∀ candid, result = .ok (.added candid) →
      ∃ alert, decode bytes = .ok alert ∧ alert.candid = candid
  | .pushing bytes candid _ => ∃ alert, decode bytes = .ok alert ∧ alert.candid = candid
  | _ => True

structure Ingestion.Tracked (decode : Packet → Except AlertError ZtfRawAvroAlert) (state : Ingestion) :
    Prop where
  traced : ∀ slot, (state.workers slot).Traced decode
  pushed : ∀ candid, (state.db.alerts.get candid).isSome →
    candid ∈ state.output ∨ ∃ slot, (state.workers slot).owes = some candid

def Ingestion.KeepsOwed (state : Ingestion) : Action → Prop
  | .crash slot => ∀ candid, (state.workers slot).owes = some candid → candid ∈ state.output
  | .push slot delivery transient => ∀ bytes candid retries,
    state.workers slot = .pushing bytes candid retries → delivery = .refused →
      (retries = 0 ∨ transient = false) → candid ∈ state.output
  | .query slot delivery => delivery = .lost → ∀ bytes alert next,
    state.workers slot = .processing bytes (.call (.insertAlert alert) next) →
      (state.db.alerts.get alert.candid).isSome
  | _ => True

theorem Worker.Traced.hands {worker : Worker} (traced : worker.Traced decode) {candid : Int}
    (owed : worker.owes = some candid) :
    ∃ bytes alert, worker.hands = some bytes ∧ decode bytes = .ok alert ∧ alert.candid = candid := by
  cases worker with
  | stopped => cases owed
  | idle => cases owed
  | removing bytes retries => cases owed
  | pushing bytes pushed retries =>
    obtain rfl : pushed = candid := Option.some.inj owed
    obtain ⟨alert, decoded, own⟩ := traced
    exact ⟨bytes, alert, rfl, decoded, own⟩
  | processing bytes program =>
    cases program with
    | call op next => cases owed
    | ret result =>
      match result with
      | .ok (.added added) =>
        obtain rfl : added = candid := Option.some.inj owed
        obtain ⟨alert, decoded, own⟩ := traced.2 added rfl
        exact ⟨bytes, alert, rfl, decoded, own⟩
      | .ok (.exists _) => cases owed
      | .error _ => cases owed

theorem Ingestion.Tracked.update (tracked : state.Tracked decode) {slot : Nat}
    {worker : Worker} (workers : after.workers = Function.update state.workers slot worker)
    (traced : worker.Traced decode) (output : ∀ candid ∈ state.output, candid ∈ after.output)
    (alerts : ∀ candid, (after.db.alerts.get candid).isSome →
      (state.db.alerts.get candid).isSome ∨ worker.owes = some candid)
    (debt : ∀ candid, (state.workers slot).owes = some candid →
      candid ∈ after.output ∨ worker.owes = some candid) : after.Tracked decode := by
  have self : after.workers slot = worker := by
    rw [workers]
    exact Function.update_self _ _ _
  have other {another : Nat} (different : another ≠ slot) :
      after.workers another = state.workers another := by
    rw [workers]
    exact Function.update_of_ne different _ _
  constructor
  · intro another
    by_cases same : another = slot
    · rw [same, self]
      exact traced
    · rw [other same]
      exact tracked.traced another
  · intro candid there
    rcases alerts candid there with before | owed
    · rcases tracked.pushed candid before with listed | ⟨another, owed⟩
      · exact .inl (output candid listed)
      · by_cases same : another = slot
        · subst same
          exact (debt candid owed).imp_right fun still => ⟨another, by rw [self, still]⟩
        · exact .inr ⟨another, by rw [other same, owed]⟩
    · exact .inr ⟨slot, by rw [self, owed]⟩

theorem alerts_after_query {state : Ingestion} {slot : Nat} {delivery : Delivery}
    (permitted : state.KeepsOwed (.query slot delivery)) {bytes : Packet} {β : Type} {op : ZtfOp β}
    {next : Option β → Prog ZtfOp (Except AlertError ProcessAlertStatus)}
    (running : state.workers slot = .processing bytes (.call op next)) (ends : op.EndsWith next)
    {candid : Int} (there : ((delivery.state op state.db).alerts.get candid).isSome) :
    (state.db.alerts.get candid).isSome ∨
      (Worker.processing bytes (next (delivery.answer op state.db))).owes = some candid := by
  cases delivery with
  | refused => exact .inl there
  | lost =>
    obtain ⟨alert, stored⟩ := Option.isSome_iff_exists.mp there
    rcases exec_alerts_new op stored with before | ⟨own, inserts⟩
    · exact .inl (by simp [before])
    · cases op with
      | insertAlert added =>
        obtain rfl : added = alert := inserts
        exact .inl (own ▸ permitted rfl bytes added next running)
      | _ => exact inserts.elim
  | answered =>
    obtain ⟨alert, stored⟩ := Option.isSome_iff_exists.mp there
    rcases exec_alerts_new op stored with before | ⟨own, inserts⟩
    · exact .inl (by simp [before])
    · cases op with
      | insertAlert added =>
        obtain rfl : added = alert := inserts
        cases held : state.db.alerts.insertOne added.candid added with
        | none =>
          left
          simpa [Store.exec, ZtfOp.exec, held] using there
        | some alerts =>
          right
          have inserted : Delivery.answered.answer (ZtfOp.insertAlert added) state.db = some true := by
            simp [Store.exec, ZtfOp.exec, held]
          rw [inserted, ends, own]
          rfl
      | _ => exact inserts.elim

theorem retry_owes (again : Nat → Worker) {retries : Nat} {transient : Bool} {candid : Int}
    (owed : ∀ retries, (again retries).owes = some candid) (goes : ¬ (retries = 0 ∨ transient = false)) :
    (Worker.retry again retries transient).owes = some candid := by
  cases retries with
  | zero => exact absurd (.inl rfl) goes
  | succ retries =>
    cases transient with
    | false => exact absurd (.inr rfl) goes
    | true => exact owed retries

theorem retry_traced (again : Nat → Worker) (traced : ∀ retries, (again retries).Traced decode)
    (retries : Nat) (transient : Bool) : (Worker.retry again retries transient).Traced decode := by
  cases retries with
  | zero => trivial
  | succ retries =>
    cases transient with
    | false => trivial
    | true => exact traced retries

theorem Ingestion.Tracked.retrieve {state : Ingestion} (tracked : state.Tracked decode) {slot : Nat}
    (idle : state.workers slot = .idle) (now : F64) (delivery : Delivery) :
    (state.retrieveAvroBytes decode slot now delivery).Tracked decode := by
  unfold Ingestion.retrieveAvroBytes
  cases delivery with
  | refused => exact tracked
  | lost =>
    cases rpoplpush state.input state.temp with
    | none => exact tracked
    | some moved => exact ⟨tracked.traced, tracked.pushed⟩
  | answered =>
    cases rpoplpush state.input state.temp with
    | none => exact tracked
    | some moved =>
      refine tracked.update rfl ?_ (fun _ listed => listed) (fun _ there => .inl there) ?_
      · split
        next => trivial
        next => exact ⟨processAlert_ends _ now, processAlert_returns _ now⟩
      · intro candid owed
        rw [idle] at owed
        cases owed

theorem Ingestion.Tracked.step (tracked : state.Tracked decode)
    (taken : Ingestion.Step decode Ingestion.KeepsOwed state after) : after.Tracked decode := by
  obtain ⟨action, _, permitted, took⟩ := taken
  cases action with
  | arrive bytes =>
    cases took
    exact ⟨tracked.traced, tracked.pushed⟩
  | recover moves =>
    cases took
    exact ⟨tracked.traced, tracked.pushed⟩
  | outside nearby =>
    cases took
    exact ⟨tracked.traced, tracked.pushed⟩
  | crash slot =>
    cases took
    -- What a worker owes when it crashes is the action's condition.
    exact tracked.update rfl trivial (fun _ listed => listed) (fun _ there => .inl there)
      fun candid owed => .inl (permitted candid owed)
  | start slot =>
    simp only [Ingestion.take] at took
    split at took
    next stopped =>
      cases took
      refine tracked.update rfl trivial (fun _ listed => listed) (fun _ there => .inl there) ?_
      intro candid owed
      rw [stopped] at owed
      cases owed
    next => cases took
  | terminate slot =>
    simp only [Ingestion.take] at took
    split at took
    next idle =>
      cases took
      refine tracked.update rfl trivial (fun _ listed => listed) (fun _ there => .inl there) ?_
      intro candid owed
      rw [idle] at owed
      cases owed
    next => cases took
  | retrieve slot delivery now =>
    simp only [Ingestion.take] at took
    split at took
    next idle =>
      cases took
      exact tracked.retrieve idle now delivery
    next => cases took
  | query slot delivery =>
    simp only [Ingestion.take] at took
    split at took
    next bytes β op next running =>
      cases took
      have traced := tracked.traced slot
      rw [running] at traced
      -- An alert that a query stores is owed by the worker that goes on with the answer.
      refine tracked.update rfl ⟨traced.1.2 _, traced.2 _⟩ (fun _ listed => listed)
        (fun candid there => alerts_after_query permitted running traced.1.1 there) ?_
      intro candid owed
      rw [running] at owed
      cases owed
    next => cases took
  | handle slot =>
    simp only [Ingestion.take] at took
    split at took
    next bytes result running =>
      cases took
      have traced := tracked.traced slot
      rw [running] at traced
      match result, running, traced with
      -- Only an alert that was added is owed to the queue, not one that exists.
      | .ok (.added candid), running, traced =>
        refine tracked.update rfl (traced.2 candid rfl) (fun _ listed => listed)
          (fun _ there => .inl there) ?_
        intro other owed
        rw [running] at owed
        exact .inr owed
      | .ok (.exists candid), running, _ =>
        refine tracked.update rfl trivial (fun _ listed => listed) (fun _ there => .inl there) ?_
        intro other owed
        rw [running] at owed
        cases owed
      | .error fault, running, _ =>
        refine tracked.update rfl trivial (fun _ listed => listed) (fun _ there => .inl there) ?_
        intro other owed
        rw [running] at owed
        cases owed
    next => cases took
  | push slot delivery transient =>
    simp only [Ingestion.take] at took
    split at took
    next bytes candid retries running =>
      cases took
      have traced := tracked.traced slot
      rw [running] at traced
      have debt (other : Int) (owed : (state.workers slot).owes = some other) : candid = other := by
        rw [running] at owed
        exact Option.some.inj owed
      cases delivery with
      | answered =>
        refine tracked.update rfl trivial (fun _ listed => List.mem_cons_of_mem _ listed)
          (fun _ there => .inl there) ?_
        intro other owed
        exact .inl (debt other owed ▸ List.mem_cons_self)
      | lost =>
        refine tracked.update rfl (retry_traced (.pushing bytes candid) (fun _ => traced) retries transient)
          (fun _ listed => List.mem_cons_of_mem _ listed) (fun _ there => .inl there) ?_
        intro other owed
        exact .inl (debt other owed ▸ List.mem_cons_self)
      | refused =>
        refine tracked.update rfl (retry_traced (.pushing bytes candid) (fun _ => traced) retries transient)
          (fun _ listed => listed) (fun _ there => .inl there) ?_
        intro other owed
        obtain rfl := debt other owed
        -- The push is given up, which the condition is about, or tried again.
        by_cases gives : retries = 0 ∨ transient = false
        · exact .inl (permitted bytes candid retries running rfl gives)
        · exact .inr (retry_owes (.pushing bytes candid) (fun _ => rfl) gives)
    next => cases took
  | remove slot delivery transient =>
    simp only [Ingestion.take] at took
    split at took
    next bytes retries running =>
      cases took
      refine tracked.update rfl ?_ (fun _ listed => listed) (fun _ there => .inl there) ?_
      · cases delivery with
        | answered => trivial
        | lost => exact retry_traced (.removing bytes) (fun _ => trivial) retries transient
        | refused => exact retry_traced (.removing bytes) (fun _ => trivial) retries transient
      · intro candid owed
        rw [running] at owed
        cases owed
    next => cases took

end Owed

/-! ## Every run -/

abbrev IngestionReached (decode : Packet → Except AlertError ZtfRawAvroAlert)
    (permit : Ingestion → Action → Prop) : Ingestion → Prop :=
  Reachable Ingestion.Quiet (Ingestion.Step decode permit)

def NeverDropped (decode : Packet → Except AlertError ZtfRawAvroAlert) (state : Ingestion) : Prop :=
  ∀ bytes ∈ state.received, ∀ alert, decode bytes = .ok alert →
    (state.db.alerts.get alert.candid).isSome →
    (∀ copy other, decode copy = .ok other → other.candid = alert.candid →
      copy ∉ state.input ∧ copy ∉ state.temp ∧ ∀ slot, (state.workers slot).hands ≠ some copy) →
    alert.candid ∈ state.output

theorem ingested_alerts_pushed (decode : Packet → Except AlertError ZtfRawAvroAlert) {state : Ingestion}
    (reached : IngestionReached decode Ingestion.KeepsOwed state) : NeverDropped decode state := by
  have tracked : state.Tracked decode := by
    refine Reachable.invariant (Ingestion.Tracked decode) ?_ ?_ reached
    · rintro first ⟨stopped, pushed⟩
      exact ⟨fun slot => by rw [stopped slot]; trivial, fun candid there => .inl (pushed candid there)⟩
    · intro before after _ tracked taken
      exact tracked.step taken
  intro bytes _ alert _ there gone
  rcases tracked.pushed alert.candid there with listed | ⟨slot, owed⟩
  · exact listed
  · obtain ⟨copy, other, held, decoded, own⟩ := (tracked.traced slot).hands owed
    exact absurd held ((gone copy other decoded own).2.2 slot)

/-! ## A crash between the insert and the push -/

def Action.smooth : Action → Bool
  | .crash _ | .recover _ | .query _ .lost | .push _ .refused _ => false
  | _ => true

theorem Action.smooth.enabled {action : Action} (smooth : action.smooth = true) (state : Ingestion) :
    state.Enabled action := by
  cases action with
  | recover moves => cases smooth
  | _ => trivial

theorem Action.smooth.keepsOwed {action : Action} (smooth : action.smooth = true) (state : Ingestion) :
    state.KeepsOwed action := by
  cases action with
  | crash slot => cases smooth
  | query slot delivery =>
    rintro rfl
    cases smooth
  | push slot delivery transient =>
    rintro bytes candid retries _ rfl
    cases smooth
  | _ => trivial

def Action.slot? : Action → Option Nat
  | .start slot | .terminate slot | .crash slot | .retrieve slot _ _ | .query slot _ | .handle slot
  | .push slot _ _ | .remove slot _ _ => some slot
  | .arrive _ | .recover _ | .outside _ => none

variable {decode : Packet → Except AlertError ZtfRawAvroAlert}

theorem take_other {action : Action} (took : state.take decode action = some after) {other : Nat}
    (elsewhere : action.slot? ≠ some other) : after.workers other = state.workers other := by
  have apart {slot : Nat} (own : action.slot? = some slot) : other ≠ slot := by
    rintro rfl
    exact elsewhere own
  cases action with
  | arrive bytes =>
    cases took
    rfl
  | recover moves =>
    cases took
    rfl
  | outside nearby =>
    cases took
    rfl
  | crash slot =>
    cases took
    exact Function.update_of_ne (apart rfl) _ _
  | retrieve slot delivery now =>
    simp only [Ingestion.take] at took
    split at took
    next =>
      cases took
      unfold Ingestion.retrieveAvroBytes
      cases delivery with
      | refused => rfl
      | lost => cases rpoplpush state.input state.temp <;> rfl
      | answered =>
        cases rpoplpush state.input state.temp with
        | some moved => exact Function.update_of_ne (apart rfl) _ _
        | none => rfl
    next => cases took
  | _ =>
    simp only [Ingestion.take] at took
    split at took
    next =>
      cases took
      exact Function.update_of_ne (apart rfl) _ _
    next => cases took

def Ingestion.run (decode : Packet → Except AlertError ZtfRawAvroAlert) (state : Ingestion)
    (actions : List Action) : Option Ingestion :=
  actions.foldlM (Ingestion.take decode) state

theorem reach_run {permit : Ingestion → Action → Prop}
    (permitted : ∀ state action, action.smooth = true → permit state action)
    (reached : IngestionReached decode permit state) {actions : List Action}
    (smooth : actions.all Action.smooth = true) (ran : state.run decode actions = some after) :
    IngestionReached decode permit after := by
  induction actions generalizing state with
  | nil =>
    cases ran
    exact reached
  | cons action rest ih =>
    simp only [List.all_cons, Bool.and_eq_true] at smooth
    obtain ⟨next, took, ran⟩ := Option.bind_eq_some_iff.mp ran
    refine ih (.next reached ⟨action, ?_, permitted state action smooth.1, took⟩) smooth.2 ran
    exact Action.smooth.enabled smooth.1 state

theorem run_other {actions : List Action} (ran : state.run decode actions = some after) {other : Nat}
    (elsewhere : ∀ action ∈ actions, action.slot? ≠ some other) :
    after.workers other = state.workers other := by
  induction actions generalizing state with
  | nil =>
    cases ran
    rfl
  | cons action rest ih =>
    obtain ⟨next, took, ran⟩ := Option.bind_eq_some_iff.mp ran
    rw [ih ran fun later listed => elsewhere later (List.mem_cons_of_mem _ listed)]
    exact take_other took (elsewhere action List.mem_cons_self)

def noIngestion : Ingestion where
  db := { alerts := .empty, aux := .empty, cutouts := .empty, nearby := fun _ _ _ => none }
  input := []
  temp := []
  received := []
  output := []
  workers _ := .stopped

theorem quiet_noIngestion : noIngestion.Quiet :=
  ⟨fun _ => rfl, fun _ there => nomatch there⟩

def decodeSecond (_ : Packet) : Except AlertError ZtfRawAvroAlert := .ok secondAlert

def insertSecond : List Action :=
  [.arrive [1], .start 0, .retrieve 0 .answered ⟨0⟩, .query 0 .answered, .query 0 .answered,
    .query 0 .answered, .query 0 .answered, .query 0 .answered, .query 0 .answered]

def removeSecond : List Action :=
  [.start 0, .retrieve 0 .answered ⟨0⟩, .query 0 .answered, .handle 0, .remove 0 .answered true]

def insertedSecond : Ingestion := (noIngestion.run decodeSecond insertSecond).getD noIngestion

def recoveredSecond : Ingestion :=
  { insertedSecond.setWorker 0 .stopped with input := [[1]], temp := [] }

def droppedSecond : Ingestion := (recoveredSecond.run decodeSecond removeSecond).getD noIngestion

theorem run_insertSecond : noIngestion.run decodeSecond insertSecond = some insertedSecond := by rfl

theorem run_removeSecond : recoveredSecond.run decodeSecond removeSecond = some droppedSecond := by rfl

theorem stopped_insertedSecond {slot : Nat} (other : slot ≠ 0) :
    insertedSecond.workers slot = .stopped := by
  rw [run_other run_insertSecond (by simpa [insertSecond, Action.slot?] using Ne.symm other)]
  rfl

theorem stopped_recoveredSecond (slot : Nat) : recoveredSecond.workers slot = .stopped := by
  by_cases first : slot = 0
  · subst first
    rfl
  · simpa [recoveredSecond, Ingestion.setWorker, Function.update_of_ne first] using
      stopped_insertedSecond first

theorem hands_droppedSecond (slot : Nat) : (droppedSecond.workers slot).hands = none := by
  by_cases first : slot = 0
  · subst first
    rfl
  · rw [run_other run_removeSecond (by simpa [removeSecond, Action.slot?] using Ne.symm first),
      stopped_recoveredSecond]
    rfl

theorem reached_insertedSecond {permit : Ingestion → Action → Prop}
    (permitted : ∀ state action, action.smooth = true → permit state action) :
    IngestionReached decodeSecond permit insertedSecond :=
  reach_run permitted (.start quiet_noIngestion) (by decide) run_insertSecond

theorem ingested_alert_dropped : ¬ ∀ decode state,
    IngestionReached decode (fun _ _ => True) state → NeverDropped decode state := by
  intro always
  have inserted : IngestionReached decodeSecond (fun _ _ => True) insertedSecond :=
    reached_insertedSecond fun _ _ _ => trivial
  have crashed := Reachable.next inserted ⟨.crash 0, trivial, trivial, rfl⟩
  have recovered : IngestionReached decodeSecond (fun _ _ => True) recoveredSecond :=
    .next crashed ⟨.recover 1, stopped_recoveredSecond, trivial, rfl⟩
  have dropped := reach_run (fun _ _ _ => trivial) recovered (by decide) run_removeSecond
  have pushed : (2 : Int) ∈ ([] : List Int) := by
    refine always decodeSecond droppedSecond dropped [1] (List.mem_singleton.mpr rfl) secondAlert rfl
      rfl ?_
    intro copy other _ _
    refine ⟨List.not_mem_nil, List.not_mem_nil, fun slot => ?_⟩
    rw [hands_droppedSecond slot]
    exact nofun
  cases pushed

def pushSecond : List Action := [.handle 0, .push 0 .answered true, .remove 0 .answered true]

def pushedSecond : Ingestion := (insertedSecond.run decodeSecond pushSecond).getD noIngestion

theorem run_pushSecond : insertedSecond.run decodeSecond pushSecond = some pushedSecond := by rfl

theorem ingested_alerts_pushed_second :
    pushedSecond.output = [2] ∧ NeverDropped decodeSecond pushedSecond := by
  have keeps (state : Ingestion) (action : Action) (smooth : action.smooth = true) :
      state.KeepsOwed action := Action.smooth.keepsOwed smooth state
  have pushed := reach_run keeps (reached_insertedSecond keeps) (by decide) run_pushSecond
  exact ⟨rfl, ingested_alerts_pushed decodeSecond pushed⟩

end Boom.Alert
