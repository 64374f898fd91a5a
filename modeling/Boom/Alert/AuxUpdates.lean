import Boom.Alert.IngestRules

/-! # Concurrent updates of an object

Any number of workers take their step over an object at once.  Short of a version
that wraps around, the light curves stay sorted, no point is lost and a worker that
succeeded finds its packet stored once.  A version that wraps around comes back, and
a push prepared against the first object with it is applied to the second. -/

namespace Boom.Alert

open Boom.Foundations

/-! ## Every run -/

structure AuxReply where
  alert : ZtfRawAvroAlert
  result : Except AlertError Unit

def AuxReply.program (alert : ZtfRawAvroAlert) (aliases : Option ZtfAliases) (now : F64) :
    Prog ZtfOp AuxReply :=
  (auxStep alert.objectId alert.candidate.ra alert.candidate.dec (packetLightcurves alert)
    aliases now).run >>= fun result => .ret ⟨alert, result⟩

def AuxStarts (_ : ZtfDb) (program : Prog ZtfOp AuxReply) : Prop :=
  ∃ alert aliases now, program = AuxReply.program alert aliases now

def CatalogsMove (before after : ZtfDb) : Prop :=
  ∃ nearby, after = { before with nearby := nearby }

abbrev AuxWorkers := Pool ZtfOp ZtfDb AuxReply

abbrev AuxWorkersStep (permit : Permit ZtfOp ZtfDb) : AuxWorkers → AuxWorkers → Prop :=
  Pool.Step permit AuxStarts CatalogsMove

abbrev AuxReached (permit : Permit ZtfOp ZtfDb) : AuxWorkers → Prop :=
  Reachable (Pool.Fresh SortedObjects) (AuxWorkersStep permit)

structure Lightcurves.HoldsOnce (stored packet : Lightcurves) : Prop where
  prvCandidates : ∀ point ∈ packet.prvCandidates, occurrences stored.prvCandidates (time point) = 1
  prvNondetections :
    ∀ point ∈ packet.prvNondetections, occurrences stored.prvNondetections (time point) = 1
  fpHists : ∀ point ∈ packet.fpHists, occurrences stored.fpHists (time point) = 1

structure LosesNothing (permit : Permit ZtfOp ZtfDb) (workers : AuxWorkers) : Prop where
  sorted : SortedObjects workers.store
  stored : ∀ slot reply, workers.threads slot = some (.ret reply) → reply.result = .ok () →
    ∃ object, workers.store.aux.get reply.alert.objectId = some object ∧
      object.HoldsOnce (packetLightcurves reply.alert)
  kept : ∀ after, Relation.ReflTransGen (AuxWorkersStep permit) workers after →
    ∀ objectId object, workers.store.aux.get objectId = some object →
      ∃ later, after.store.aux.get objectId = some later ∧ object.Within later.toLightcurves

theorem Lightcurves.Covers.holdsOnce {stored packet : Lightcurves} (covers : stored.Covers packet)
    (sorted : stored.Sorted) (sorted' : packet.Sorted) : stored.HoldsOnce packet where
  prvCandidates point member := by
    obtain ⟨held, present, same⟩ := covers.prvCandidates point member
    exact sorted.prvCandidates.occurrences_eq_one (sorted'.prvCandidates.finite point member) present same
  prvNondetections point member := by
    obtain ⟨held, present, same⟩ := covers.prvNondetections point member
    exact sorted.prvNondetections.occurrences_eq_one
      (sorted'.prvNondetections.finite point member) present same
  fpHists point member := by
    obtain ⟨held, present, same⟩ := covers.fpHists point member
    exact sorted.fpHists.occurrences_eq_one (sorted'.fpHists.finite point member) present same

theorem packetLightcurves_sorted (alert : ZtfRawAvroAlert) : (packetLightcurves alert).Sorted :=
  ⟨sanitizeTimeseries_increasing _, sanitizeTimeseries_increasing _, sanitizeTimeseries_increasing _⟩

theorem CatalogsMove.keeps {watched : Prop} {before after : ZtfDb} (sound : before.Sound watched)
    (moved : CatalogsMove before after) : after.Sound watched ∧ before.Grows after := by
  obtain ⟨nearby, rfl⟩ := moved
  have grows : before.Grows { before with nearby := nearby } :=
    ⟨fun _ object stored => ⟨object, stored, .refl object⟩, fun _ there => there,
      fun _ _ there => there⟩
  refine ⟨⟨sound.sorted, fun watches candid alert there => ?_⟩, grows⟩
  obtain ⟨named, refers⟩ := sound.refers watches candid alert there
  exact ⟨named, refers.grown grows⟩

def AuxReply.Stored (reply : AuxReply) (db : ZtfDb) : Prop :=
  reply.result = .ok () → db.Holds reply.alert.objectId (packetLightcurves reply.alert)

theorem auxWorkers_disciplined :
    Pool.Disciplined (ingestRules False) AuxReply.Stored AuxStarts CatalogsMove where
  started db program sound starts := by
    obtain ⟨alert, aliases, now, rfl⟩ := starts
    refine Safe.bind _ sound (auxStep_safe (packetLightcurves_sorted alert) _ _ _ aliases now sound) ?_
    intro result current _ _ holds
    apply Safe.ret
    intro later _ grown success
    exact (holds success).grown grown
  outside _ _ sound moved := moved.keeps sound

theorem aux_updates_lose_nothing {workers : AuxWorkers} (reached : AuxReached Permit.noWrap workers) :
    LosesNothing Permit.noWrap workers := by
  have initially (db : ZtfDb) (sorted : SortedObjects db) : (ingestRules False).inv db :=
    ⟨sorted, False.elim⟩
  have safe := Pool.safe auxWorkers_disciplined initially reached
  refine ⟨safe.kept.sorted, fun slot reply finished success => ?_, fun after run objectId object stored => ?_⟩
  · obtain ⟨object, stored, covers⟩ := safe.returned finished success
    have sorted := safe.kept.sorted _ _ stored
    exact ⟨object, stored, covers.holdsOnce sorted (packetLightcurves_sorted _)⟩
  · have grows : workers.store.Grows after.store :=
      Pool.run_grows auxWorkers_disciplined initially reached run
    obtain ⟨later, stored', grown⟩ := grows.aux objectId object stored
    exact ⟨later, stored', grown.within⟩

/-! ## A version that comes back -/

theorem updateAux_run (objectId : String) {packet : Lightcurves} (aliases : Option ZtfAliases)
    (now : F64) {existing : AlertAuxForUpdate} {push : AuxPush} (prepared : preparePush packet existing = .ok push) :
    ∃ pushed, (updateAux objectId packet aliases now existing).run =
        .call (.pushAux objectId existing.version push aliases now) pushed ∧
      pushed (some 1) = .ret (.ok ()) := by
  unfold updateAux updateAuxInner
  rw [Prog.run_tryCatch, prepared]
  exact ⟨_, rfl, rfl⟩

theorem auxStep_run (objectId : String) (ra dec : F64) (packet : Lightcurves)
    (aliases : Option ZtfAliases) (now : F64) {object : ZtfObject} (inside : object.version.all inI32 = true) :
    ∃ read, (auxStep objectId ra dec packet aliases now).run = .call (.findAux objectId) read ∧
      read (some (some object)) = (updateAux objectId packet aliases now object.forUpdate).run := by
  refine ⟨_, rfl, ?_⟩
  have known : ((some object).any fun object => object.version.any fun version => !inI32 version) =
      false := by
    cases version : object.version with
    | none => simp [version]
    | some number => simpa [version] using inside
  simp only [Prog.bind, Option.elim, ExceptT.bindCont, known]
  rfl

section Pushes

variable {α : Type} {permit : Permit ZtfOp ZtfDb} {starts : ZtfDb → Prog ZtfOp α → Prop}
  {environment : ZtfDb → ZtfDb → Prop} {init : ZtfDb → Prop}

theorem reach_prepared {workers : Pool ZtfOp ZtfDb α}
    (reached : Reachable (Pool.Fresh init) (Pool.Step permit starts environment) workers)
    {slot : Nat} {objectId : String} {ra dec : F64} {packet : Lightcurves}
    {aliases : Option ZtfAliases} {now : F64} {rest : Except AlertError Unit → Prog ZtfOp α}
    (running : workers.threads slot =
      some ((auxStep objectId ra dec packet aliases now).run >>= rest))
    (permitted : permit .answered (.findAux objectId) workers.store) {object : ZtfObject}
    {push : AuxPush} (stored : workers.store.aux.get objectId = some object)
    (inside : object.version.all inI32 = true) (prepared : preparePush packet object.forUpdate = .ok push) :
    ∃ after pushed, Reachable (Pool.Fresh init) (Pool.Step permit starts environment) after ∧
      after.store = workers.store ∧
      after.threads = Function.update workers.threads slot
        (some (.call (.pushAux objectId object.version push aliases now) pushed)) ∧
      pushed (some 1) = rest (.ok ()) := by
  obtain ⟨read, first, found⟩ := auxStep_run objectId ra dec packet aliases now inside
  obtain ⟨pushed, second, done⟩ := updateAux_run objectId aliases now prepared
  rw [first, Prog.call_bind] at running
  refine ⟨_, fun answer => pushed answer >>= rest, .next reached (.deliver .answered running permitted),
    rfl, ?_, by simp [done]⟩
  have answered : Delivery.answered.answer (ZtfOp.findAux objectId) workers.store = some (some object) :=
    congrArg some stored
  simp only [Pool.deliver, answered, found, second]
  rfl

theorem reach_matched {workers : Pool ZtfOp ZtfDb α}
    (reached : Reachable (Pool.Fresh init) (Pool.Step permit starts environment) workers)
    {slot : Nat} {objectId : String} {push : AuxPush} {current : Option Int}
    {aliases : Option ZtfAliases} {now : F64} {pushed : Option Nat → Prog ZtfOp α} (running : workers.threads slot =
      some (.call (.pushAux objectId current push aliases now) pushed))
    (permitted : permit .answered (.pushAux objectId current push aliases now) workers.store)
    {object : ZtfObject} (stored : workers.store.aux.get objectId = some object)
    (guarded : object.version = current) :
    ∃ after, Reachable (Pool.Fresh init) (Pool.Step permit starts environment) after ∧
      after.store.aux.get objectId = some (object.pushed push current aliases now) ∧
      after.store.alerts = workers.store.alerts ∧
      after.threads = Function.update workers.threads slot (some (pushed (some 1))) := by
  refine ⟨_, .next reached (.deliver .answered running permitted), ?_, rfl, ?_⟩
  · simp [Store.exec, ZtfOp.exec, stored, guarded]
  · simp [Pool.deliver, Store.exec, ZtfOp.exec, Collection.matches?, stored, guarded]

end Pushes

variable (version : Int)

theorem inI32_wrapI32 : inI32 (wrapI32 version) = true := by
  unfold inI32 wrapI32
  have lower : -(0x100000000 : Nat) / 2 ≤ version.bmod 0x100000000 := Int.le_bmod (by decide)
  have upper : version.bmod 0x100000000 < ((0x100000000 : Nat) + 1) / 2 := Int.bmod_lt (by decide)
  simp only [Bool.and_eq_true, decide_eq_true_eq]
  omega

theorem wrapI32_succ : wrapI32 (wrapI32 version + 1) = wrapI32 (version + 1) :=
  Int.bmod_add_bmod

def timeOne : F64 := ⟨0x3ff0000000000000⟩
def timeTwo : F64 := ⟨0x4000000000000000⟩

def secondAlert : ZtfRawAvroAlert where
  candid := 2
  objectId := "object"
  candidate := { jd := timeTwo, ra := ⟨0⟩, dec := ⟨0x4054000000000000⟩, magpsf := 0 }
  prvCandidates := none
  fpHists := none

def noAliases : Option ZtfAliases := some { lsst := [], decam := [] }

def objectAt (times : List F64) (version : Int) : ZtfObject where
  prvCandidates := times.map fun jd => { jd := jd, magpsf := some 0 }
  prvNondetections := []
  fpHists := []
  aliases := noAliases
  createdAt := ⟨0⟩
  updatedAt := ⟨0⟩
  version := some version

def pushOf (times : List F64) : AuxPush where
  prvCandidates := (times.map fun jd => { jd := jd, magpsf := some 0 }, false)
  prvNondetections := ([], false)
  fpHists := ([], false)

theorem prepared_first :
    preparePush (packetLightcurves secondAlert) (objectAt [timeOne] version).forUpdate =
      .ok (pushOf [timeTwo]) := by rfl

theorem prepared_again :
    preparePush (packetLightcurves secondAlert) (objectAt [timeOne, timeTwo] version).forUpdate =
      .ok (pushOf []) := by rfl

theorem pushed_again : (objectAt [timeOne, timeTwo] version).pushed (pushOf []) (some version) noAliases ⟨0⟩ =
      objectAt [timeOne, timeTwo] (wrapI32 (version + 1)) := by
  simp [ZtfObject.pushed, pushUpdate, objectAt, pushOf]

def observed : ZtfDb where
  alerts := .empty
  aux := ⟨[("object", objectAt [timeOne] 1)], by decide⟩
  cutouts := .empty
  nearby _ _ _ := none

theorem sortedObjects_observed : SortedObjects observed := by
  intro objectId object stored
  have listed : (objectId, object) ∈ observed.aux.entries := Collection.mem_entries_iff.mpr stored
  obtain ⟨rfl, rfl⟩ := Prod.mk.inj (List.mem_singleton.mp listed)
  refine ⟨⟨?_, ?_⟩, .nil, .nil⟩
  · intro point member
    rw [List.mem_singleton.mp member]
    decide
  · exact List.pairwise_singleton _ _

section Wrap

variable {α : Type} {permit : Permit ZtfOp ZtfDb} {starts : ZtfDb → Prog ZtfOp α → Prop}
  {environment : ZtfDb → ZtfDb → Prop} {init : ZtfDb → Prop}
  {rest : Except AlertError Unit → Prog ZtfOp α}

def Begins (reach : Pool ZtfOp ZtfDb α → Prop) (rest : Except AlertError Unit → Prog ZtfOp α) : Prop :=
  ∀ (workers : Pool ZtfOp ZtfDb α) (slot : Nat), reach workers → workers.threads slot = none →
    workers.store.alerts.get 2 = none →
    ∃ after, reach after ∧ after.store = workers.store ∧
      after.threads = Function.update workers.threads slot
        (some ((auxStep "object" ⟨0⟩ ⟨0x4054000000000000⟩ (packetLightcurves secondAlert) noAliases
          ⟨0⟩).run >>= rest))

structure Outdated (reach : Pool ZtfOp ZtfDb α → Prop) (rest : Except AlertError Unit → Prog ZtfOp α)
    (version : Int) (workers : Pool ZtfOp ZtfDb α) : Prop where
  reached : reach workers
  stored : workers.store.aux.get "object" = some (objectAt [timeOne, timeTwo] version)
  unseen : workers.store.alerts.get 2 = none
  waiting : ∃ pushed, workers.threads 0 =
      some (.call (.pushAux "object" (some 1) (pushOf [timeTwo]) noAliases ⟨0⟩) pushed) ∧
    pushed (some 1) = rest (.ok ())

theorem reach_second (begins : Begins (Reachable (Pool.Fresh init) (Pool.Step permit starts environment)) rest)
    (initial : init observed) (reads : permit .answered (.findAux "object") observed)
    (pushes : permit .answered (.pushAux "object" (some 1) (pushOf [timeTwo]) noAliases ⟨0⟩) observed) :
    ∃ workers, Outdated (Reachable (Pool.Fresh init) (Pool.Step permit starts environment)) rest 2
        workers ∧ workers.threads 1 = some (rest (.ok ())) := by
  have idle : Reachable (Pool.Fresh init) (Pool.Step permit starts environment)
      { store := observed, threads := fun _ => none } := .start ⟨initial, fun _ => rfl⟩
  obtain ⟨first, reached, store, threads⟩ := begins _ 0 idle rfl rfl
  have running := congrFun threads 0
  rw [Function.update_self] at running
  obtain ⟨one, pushed, reached, store', threads', later⟩ :=
    reach_prepared reached running (store ▸ reads) (by rw [store]; rfl) rfl (prepared_first 1)
  have same : one.store = observed := store'.trans store
  have free : one.threads 1 = none := by
    rw [threads', threads]
    rfl
  obtain ⟨second, reached, store, threads''⟩ := begins one 1 reached free (by rw [same]; rfl)
  have running := congrFun threads'' 1
  rw [Function.update_self] at running
  rw [same] at store
  obtain ⟨two, pushed', reached, store', thirdThreads, done⟩ :=
    reach_prepared reached running (store ▸ reads) (by rw [store]; rfl) rfl (prepared_first 1)
  have same : two.store = observed := store'.trans store
  have pushing := congrFun thirdThreads 1
  rw [Function.update_self] at pushing
  have held : two.store.aux.get "object" = some (objectAt [timeOne] 1) := by
    rw [same]
    rfl
  obtain ⟨last, reached, stored, alerts, lastThreads⟩ :=
    reach_matched reached pushing (same ▸ pushes) held rfl
  refine ⟨last, ⟨reached, stored, ?_, pushed, ?_, later⟩, ?_⟩
  · rw [alerts, same]
    rfl
  · rw [lastThreads, thirdThreads, threads'', threads', threads]
    rfl
  · rw [lastThreads, done, Function.update_self]

section

variable (begins : Begins (Reachable (Pool.Fresh init) (Pool.Step (Permit.all _ _) starts environment)) rest)
include begins

theorem Outdated.again {version : Int} {workers : Pool ZtfOp ZtfDb α}
    (outdated : Outdated (Reachable (Pool.Fresh init) (Pool.Step (Permit.all _ _) starts environment))
      rest version workers) (inside : inI32 version = true) :
    ∃ after, Outdated (Reachable (Pool.Fresh init) (Pool.Step (Permit.all _ _) starts environment))
      rest (wrapI32 (version + 1)) after := by
  -- Whoever ran in the second slot has crashed.
  obtain ⟨first, reached, store, threads⟩ := begins (workers.setThread 1 none) 1
    (.next outdated.reached .crash) (Pool.setThread_threads_self _ _ _) outdated.unseen
  have running := congrFun threads 1
  rw [Function.update_self] at running
  obtain ⟨reading, pushed, reached, store', threads', _⟩ := reach_prepared reached running trivial
    (by rw [store]; exact outdated.stored) (by simpa [objectAt] using inside) (prepared_again version)
  have same : reading.store = workers.store := store'.trans store
  have pushing := congrFun threads' 1
  rw [Function.update_self] at pushing
  obtain ⟨after, reached, stored, alerts, threads''⟩ := reach_matched reached pushing trivial
    (by rw [same]; exact outdated.stored) rfl
  obtain ⟨pushed, waiting, later⟩ := outdated.waiting
  refine ⟨after, reached, stored.trans (congrArg some (pushed_again version)), ?_, pushed, ?_, later⟩
  · rw [alerts, same]
    exact outdated.unseen
  · rw [threads'', threads', threads]
    simpa [Pool.setThread] using waiting

theorem Outdated.wind {version : Int} {workers : Pool ZtfOp ZtfDb α}
    (outdated : Outdated (Reachable (Pool.Fresh init) (Pool.Step (Permit.all _ _) starts environment))
      rest version workers) (inside : inI32 version = true) (updates : Nat) :
    ∃ after, Outdated (Reachable (Pool.Fresh init) (Pool.Step (Permit.all _ _) starts environment))
      rest (wrapI32 (version + updates)) after := by
  induction updates with
  | zero =>
    have same : wrapI32 version = version := by
      simp only [inI32, Bool.and_eq_true, decide_eq_true_eq] at inside
      unfold wrapI32
      apply Int.bmod_eq_of_le <;> omega
    exact ⟨workers, by simpa [same] using outdated⟩
  | succ updates ih =>
    obtain ⟨after, outdated'⟩ := ih
    obtain ⟨last, outdated''⟩ := outdated'.again begins (inI32_wrapI32 _)
    rw [wrapI32_succ] at outdated''
    have counted : version + ((updates + 1 : Nat) : Int) = version + updates + 1 := by omega
    exact ⟨last, counted ▸ outdated''⟩

theorem reach_twice (initial : init observed) :
    ∃ workers, Reachable (Pool.Fresh init) (Pool.Step (Permit.all _ _) starts environment) workers ∧
      workers.store.aux.get "object" = some (objectAt [timeOne, timeTwo, timeTwo] 2) ∧
      workers.store.alerts.get 2 = none ∧ workers.threads 0 = some (rest (.ok ())) := by
  obtain ⟨workers, outdated, _⟩ := reach_second begins initial trivial trivial
  obtain ⟨wrapped, outdated'⟩ := outdated.wind begins (by decide) 0xffffffff
  have version : wrapI32 (2 + ((0xffffffff : Nat) : Int)) = 1 := by decide
  rw [version] at outdated'
  obtain ⟨pushed, waiting, later⟩ := outdated'.waiting
  obtain ⟨after, reached, stored, alerts, threads⟩ := reach_matched outdated'.reached waiting trivial
    outdated'.stored rfl
  refine ⟨after, reached, stored, alerts ▸ outdated'.unseen, ?_⟩
  rw [threads, later]
  exact Function.update_self _ _ _

end

end Wrap

theorem auxWorkers_begin (permit : Permit ZtfOp ZtfDb) :
    Begins (AuxReached permit) fun result => .ret ⟨secondAlert, result⟩ := by
  intro workers slot reached free _
  exact ⟨_, Pool.reach_spawn reached free ⟨secondAlert, noAliases, ⟨0⟩, rfl⟩, rfl, rfl⟩

theorem aux_updates_lose_nothing_second : ∃ workers,
    workers.threads 1 = some (.ret ⟨secondAlert, .ok ()⟩) ∧
      LosesNothing Permit.noWrap workers := by
  obtain ⟨workers, outdated, done⟩ := reach_second (auxWorkers_begin Permit.noWrap)
    sortedObjects_observed trivial fun _ greatest => absurd greatest (by decide)
  exact ⟨workers, done, aux_updates_lose_nothing outdated.reached⟩

theorem aux_update_lost :
    ¬ ∀ workers, AuxReached (Permit.all _ _) workers → LosesNothing (Permit.all _ _) workers := by
  intro always
  obtain ⟨workers, reached, stored, _, _⟩ :=
    reach_twice (auxWorkers_begin (Permit.all _ _)) sortedObjects_observed
  have sorted := ((always workers reached).sorted "object" _ stored).prvCandidates.sorted
  revert sorted
  decide

end Boom.Alert
