import Boom.Alert.AuxUpdates

/-! # An alert is visible once what it refers to is there

`processAlert` inserts the alert last.  By then the object holds the candidate's
time and the cutouts are stored, and neither is ever taken back: whatever the other
workers do, wherever any of them crashes, and however often a packet is processed,
every alert in the database has what it refers to. -/

namespace Boom.Alert

open Boom.Foundations

section ProcessAlert

variable {watched : Prop}

theorem getMatches_safe (catalog : Neighbour) (ra dec : F64) (db : ZtfDb) :
    Safe (ingestRules watched) (fun _ _ => True) (getMatches catalog ra dec).run db := by
  unfold getMatches
  split
  next =>
    refine Safe.step (ingestRules_sound watched) ?_ ?_ ?_
    · intro current _ _
      trivial
    · intro current _ _ _ _
      split <;> exact Safe.ret fun _ _ _ => trivial
    · intro current _ _
      exact Safe.ret fun _ _ _ => trivial
  next => exact Safe.ret fun _ _ _ => trivial

theorem getSurveyMatches_safe (ra dec : F64) {db : ZtfDb} (sound : db.Sound watched) :
    Safe (ingestRules watched) (fun _ _ => True) (getSurveyMatches ra dec).run db := by
  have each (catalog : Neighbour) (current : ZtfDb) : Safe (ingestRules watched)
      (fun result _ => ∀ value, result = .ok value → True) (getMatches catalog ra dec).run current :=
    (getMatches_safe catalog ra dec current).weaken fun _ _ _ _ _ _ => trivial
  unfold getSurveyMatches
  refine Safe.bindExcept (fun _ _ => True) sound (each .lsst db) (fun _ _ _ _ => trivial) ?_
  intro lsst current kept _ _
  refine Safe.bindExcept (fun _ _ => True) kept (each .decam current) (fun _ _ _ _ => trivial) ?_
  intro decam later _ _ _
  exact Safe.ret fun _ _ _ => trivial

theorem formatAndInsertCutouts_safe (candid : Int) (db : ZtfDb) :
    Safe (ingestRules watched)
      (fun result current => result = .ok () → (current.cutouts.get candid).isSome)
      (formatAndInsertCutouts candid).run db := by
  unfold formatAndInsertCutouts
  refine Safe.ask (ingestRules_sound watched) ?_ ?_ ?_
  · intro current failed
    cases failed
  · intro current _ _
    trivial
  · intro current _ _ _ _
    apply Safe.ret
    intro later _ grown _
    apply grown.cutouts
    -- Free or taken, the key is in use afterwards.
    cases free : current.cutouts.insertOne candid () with
    | none =>
      have taken : current.cutouts.get candid ≠ none := fun absent => by
        rw [Collection.insertOne_of_get_none absent] at free
        cases free
      simpa [Store.exec, ZtfOp.exec, free] using Option.isSome_iff_ne_none.mpr taken
    | some cutouts => simp [Store.exec, ZtfOp.exec, free, Collection.get_insertOne free]

theorem packetLightcurves_candidate (alert : ZtfRawAvroAlert) (finite : alert.candidate.jd.isFinite = true) :
    ∃ point ∈ (packetLightcurves alert).prvCandidates, epoch point = alert.candidate.jd.rank := by
  have sanitized {detections : List ZtfPrvCandidate} {point : ZtfPrvCandidate}
      (member : point ∈ detections) (dated : epoch point = alert.candidate.jd.rank) :
      ∃ kept ∈ sanitizeTimeseries detections, epoch kept = alert.candidate.jd.rank := by
    have pointFinite : (time point).isFinite = true := (F64.isFinite_congr dated).trans finite
    obtain ⟨kept, present, same⟩ := sanitizeTimeseries_covers member pointFinite
    exact ⟨kept, present, same.trans dated⟩
  simp only [packetLightcurves]
  split
  next seen =>
    obtain ⟨point, member, same⟩ := List.any_eq_true.mp seen
    refine sanitized member ?_
    simp only [F64.eq, Bool.and_eq_true, decide_eq_true_eq] at same
    exact same.2
  next => exact sanitized (List.mem_append_right _ (List.mem_singleton.mpr rfl)) rfl

def ZtfDb.ReadyFor (db : ZtfDb) (alert : ZtfRawAvroAlert) : Prop :=
  db.Holds alert.objectId (packetLightcurves alert) ∧ (db.cutouts.get alert.candid).isSome

theorem ZtfDb.ReadyFor.grown {before after : ZtfDb} {alert : ZtfRawAvroAlert}
    (ready : before.ReadyFor alert) (grows : before.Grows after) : after.ReadyFor alert :=
  ⟨ready.1.grown grows, grows.cutouts _ ready.2⟩

theorem ZtfDb.ReadyFor.refers {db : ZtfDb} {alert : ZtfRawAvroAlert} (ready : db.ReadyFor alert)
    (createdAt updatedAt : F64) :
    db.Refers { candid := alert.candid, objectId := alert.objectId, candidate := alert.candidate
                createdAt := createdAt, updatedAt := updatedAt } := by
  obtain ⟨⟨object, stored, covers⟩, cutouts⟩ := ready
  refine ⟨⟨object, stored, fun finite => ?_⟩, cutouts⟩
  obtain ⟨point, member, dated⟩ := packetLightcurves_candidate alert finite
  obtain ⟨held, present, same⟩ := covers.prvCandidates point member
  exact ⟨held, present, same.trans dated⟩

theorem prepareAlert_safe (alert : ZtfRawAvroAlert) (now : F64) {db : ZtfDb} (sound : db.Sound watched) :
    Safe (ingestRules watched) (fun result current => result = .ok () → current.ReadyFor alert)
      (prepareAlert alert now).run db := by
  unfold prepareAlert
  refine Safe.bindExcept (fun _ _ => True) sound
    ((getSurveyMatches_safe _ _ sound).weaken fun _ _ _ _ _ _ => trivial) ?_ ?_
  · intro error current _ _ failed
    cases failed
  · intro aliases current kept _ _
    refine Safe.bindExcept (fun _ later => later.Holds alert.objectId (packetLightcurves alert)) kept
      ((auxStep_safe (packetLightcurves_sorted alert) _ _ _ _ now kept).weaken ?_) ?_ ?_
    · rintro result later _ holds value rfl
      exact holds rfl
    · intro error later _ _ failed
      cases failed
    · intro value later kept' _ holds
      have inserted : Safe (ingestRules watched) _ (formatAndInsertCutouts alert.candid).run later :=
        formatAndInsertCutouts_safe alert.candid later
      have framed := inserted.frame (fun state => state.Holds alert.objectId (packetLightcurves alert))
        (fun _ _ held grown => held.grown grown) holds
      exact framed.weaken fun result last _ both success => ⟨both.2, both.1 success⟩

theorem processAlert_safe (decoded : Except AlertError ZtfRawAvroAlert) (now : F64) (db : ZtfDb) :
    Safe (ingestRules watched) (fun result current => ∀ candid, result = .ok (.added candid) →
      ∃ alert, decoded = .ok alert ∧ alert.candid = candid ∧ current.ReadyFor alert)
      (processAlert decoded now).run db := by
  unfold processAlert ask
  cases decoded with
  | error fault =>
    apply Safe.ret
    intro _ _ _ candid failed
    cases failed
  | ok alert =>
    refine Safe.ask (ingestRules_sound watched) ?_ ?_ ?_
    · intro current candid failed
      cases failed
    · intro current _ _
      trivial
    · intro current kept _ _ keeps
      split
      next =>
        apply Safe.ret
        intro _ _ _ candid failed
        cases failed
      next =>
        refine Safe.bindExcept (fun _ later => later.ReadyFor alert) keeps.1
          ((prepareAlert_safe alert now keeps.1).weaken ?_) ?_ ?_
        · rintro result later _ ready value rfl
          exact ready rfl
        · intro error later _ _ candid failed
          cases failed
        · intro _ later _ _ ready
          unfold formatAndInsertAlert ask
          refine Safe.ask (ingestRules_sound watched) ?_ ?_ ?_
          · intro last candid failed
            cases failed
          · intro last _ grown _
            exact (ready.grown grown).refers now now
          · intro last _ grown _ keeps'
            apply Safe.ret
            intro final _ grown' candid success
            split at success
            next =>
              cases success
              exact ⟨alert, rfl, rfl, ready.grown
                ((ingestRules watched).trans grown ((ingestRules watched).trans keeps'.2 grown'))⟩
            next => cases success

end ProcessAlert

/-! ## Every run -/

structure AlertReply where
  decoded : Except AlertError ZtfRawAvroAlert
  result : Except AlertError ProcessAlertStatus

def AlertReply.program (decoded : Except AlertError ZtfRawAvroAlert) (now : F64) :
    Prog ZtfOp AlertReply :=
  (processAlert decoded now).run >>= fun result => .ret ⟨decoded, result⟩

def AlertStarts (_ : ZtfDb) (program : Prog ZtfOp AlertReply) : Prop :=
  ∃ decoded now, program = AlertReply.program decoded now

abbrev AlertWorkers := Pool ZtfOp ZtfDb AlertReply

abbrev AlertWorkersReached (permit : Permit ZtfOp ZtfDb) : AlertWorkers → Prop :=
  Reachable (Pool.Fresh (ZtfDb.Sound True)) (Pool.Step permit AlertStarts CatalogsMove)

structure ZtfDb.Complete (db : ZtfDb) (candid : Int) (objectId : String) (jd : F64) : Prop where
  aux : ∃ object, db.aux.get objectId = some object ∧
    (jd.isFinite = true → occurrences object.prvCandidates jd = 1)
  cutouts : (db.cutouts.get candid).isSome

structure OnlyVisibleComplete (workers : AlertWorkers) : Prop where
  visible : ∀ candid alert, workers.store.alerts.get candid = some alert →
    workers.store.Complete candid alert.objectId alert.candidate.jd
  added : ∀ slot reply candid, workers.threads slot = some (.ret reply) →
    reply.result = .ok (.added candid) → ∃ alert, reply.decoded = .ok alert ∧ alert.candid = candid ∧
      workers.store.Complete candid alert.objectId alert.candidate.jd

theorem ZtfDb.Refers.complete {db : ZtfDb} {alert : ZtfAlert} (refers : db.Refers alert)
    (sorted : SortedObjects db) : db.Complete alert.candid alert.objectId alert.candidate.jd := by
  obtain ⟨object, stored, dated⟩ := refers.aux
  refine ⟨⟨object, stored, fun finite => ?_⟩, refers.cutouts⟩
  obtain ⟨point, member, same⟩ := dated finite
  exact (sorted _ _ stored).prvCandidates.occurrences_eq_one finite member same

def AlertReply.Left (reply : AlertReply) (db : ZtfDb) : Prop :=
  ∀ candid, reply.result = .ok (.added candid) →
    ∃ alert, reply.decoded = .ok alert ∧ alert.candid = candid ∧ db.ReadyFor alert

theorem alertWorkers_disciplined :
    Pool.Disciplined (ingestRules True) AlertReply.Left AlertStarts CatalogsMove where
  started db program sound starts := by
    obtain ⟨decoded, now, rfl⟩ := starts
    refine Safe.bind _ sound (processAlert_safe decoded now db) ?_
    intro result current _ _ ready
    apply Safe.ret
    intro later _ grown candid success
    obtain ⟨alert, same, own, readyFor⟩ := ready candid success
    exact ⟨alert, same, own, readyFor.grown grown⟩
  outside _ _ sound moved := moved.keeps sound

theorem visible_alerts_complete {workers : AlertWorkers}
    (reached : AlertWorkersReached Permit.noWrap workers) : OnlyVisibleComplete workers := by
  have initially (db : ZtfDb) (sound : db.Sound True) : (ingestRules True).inv db := sound
  have safe := Pool.safe alertWorkers_disciplined initially reached
  have sorted := safe.kept.sorted
  constructor
  · intro candid alert there
    obtain ⟨rfl, refers⟩ := safe.kept.refers trivial candid alert there
    exact refers.complete sorted
  · intro slot reply candid finished success
    obtain ⟨alert, same, rfl, ready⟩ := safe.returned finished candid success
    exact ⟨alert, same, rfl, (ready.refers ⟨0⟩ ⟨0⟩).complete sorted⟩

/-! ## The version that comes back, seen from an alert -/

def storedAlert : ZtfAlert where
  candid := 2
  objectId := "object"
  candidate := secondAlert.candidate
  createdAt := ⟨0⟩
  updatedAt := ⟨0⟩

def afterAux (result : Except AlertError Unit) : Prog ZtfOp AlertReply :=
  (match result with
    | .ok _ => (formatAndInsertCutouts 2 >>= fun _ => formatAndInsertAlert storedAlert).run
    | .error fault => .ret (.error fault)) >>= fun result => .ret ⟨.ok secondAlert, result⟩

theorem program_secondAlert : ∃ counted,
    AlertReply.program (.ok secondAlert) ⟨0⟩ = .call (.countAlerts 2) counted ∧
    counted (some 0) = (auxStep "object" ⟨0⟩ ⟨0x4054000000000000⟩ (packetLightcurves secondAlert)
      noAliases ⟨0⟩).run >>= afterAux := by
  refine ⟨_, rfl, ?_⟩
  have unmatched : getSurveyMatches ⟨0⟩ ⟨0x4054000000000000⟩ = pure { lsst := [], decam := [] } := by rfl
  change (prepareAlert secondAlert ⟨0⟩ >>= fun _ => formatAndInsertAlert storedAlert).run >>= _ = _
  unfold prepareAlert
  change ((getSurveyMatches ⟨0⟩ ⟨0x4054000000000000⟩ >>= _) >>= _).run >>= _ = _
  rw [unmatched]
  simp only [Prog.run_bind, Prog.bind_assoc, Prog.run_pure, Prog.ret_bind]
  refine congrArg _ (funext fun result => ?_)
  cases result with
  | ok value =>
    unfold afterAux
    simp only [Prog.run_bind, Prog.bind_assoc]
    rfl
  | error fault => rfl

theorem alertWorkers_begin (permit : Permit ZtfOp ZtfDb) (counts : ∀ db, permit .answered (.countAlerts 2) db) :
    Begins (AlertWorkersReached permit) afterAux := by
  intro workers slot reached free unseen
  obtain ⟨counted, program, fresh⟩ := program_secondAlert
  have spawned := Pool.reach_spawn reached free ⟨.ok secondAlert, ⟨0⟩, rfl⟩
  rw [program] at spawned
  refine ⟨_, .next spawned (.deliver .answered (Pool.setThread_threads_self _ _ _) (counts _)), rfl, ?_⟩
  have answered : Delivery.answered.answer (ZtfOp.countAlerts 2) workers.store = some 0 := by
    simp [Store.exec, ZtfOp.exec, unseen]
  simp only [Pool.deliver, answered, fresh, Pool.setThread, Function.update_idem]

theorem observed_sound : observed.Sound True :=
  ⟨sortedObjects_observed, fun _ _ _ there => nomatch there⟩

theorem exec_insertAlert {db : ZtfDb} {alert : ZtfAlert} (absent : db.alerts.get alert.candid = none) :
    ∃ alerts, (ZtfOp.insertAlert alert).exec db = (true, { db with alerts := alerts }) ∧
      alerts.get alert.candid = some alert := by
  have inserted := Collection.insertOne_of_get_none absent alert
  refine ⟨db.alerts.insertFresh alert.candid alert (Collection.get_eq_none_iff.mp absent), ?_, ?_⟩
  · simp only [ZtfOp.exec, inserted]
  · simp [Collection.get_insertFresh]

theorem reach_inserted {permit : Permit ZtfOp ZtfDb} {workers : AlertWorkers}
    (reached : AlertWorkersReached permit workers) {slot : Nat}
    (running : workers.threads slot = some (afterAux (.ok ()))) (unseen : workers.store.alerts.get 2 = none)
    (cutouts : ∀ db, permit .answered (.insertCutouts 2) db)
    (inserts : ∀ db, permit .answered (.insertAlert storedAlert) db) :
    ∃ after, AlertWorkersReached permit after ∧ after.store.alerts.get 2 = some storedAlert ∧
      after.store.aux = workers.store.aux ∧
      after.threads slot = some (.ret ⟨.ok secondAlert, .ok (.added 2)⟩) := by
  have first : afterAux (.ok ()) = .call (.insertCutouts 2) _ := rfl
  rw [first] at running
  obtain ⟨alertsKept, auxKept⟩ : (Store.exec (ZtfOp.insertCutouts 2) workers.store).2.alerts =
      workers.store.alerts ∧
      (Store.exec (ZtfOp.insertCutouts 2) workers.store).2.aux = workers.store.aux := by
    simp only [Store.exec, ZtfOp.exec]
    split <;> exact ⟨rfl, rfl⟩
  have absent : (Store.exec (ZtfOp.insertCutouts 2) workers.store).2.alerts.get storedAlert.candid =
      none := by
    rw [alertsKept]
    exact unseen
  obtain ⟨alerts, executed, visible⟩ := exec_insertAlert absent
  refine ⟨_, .next (.next reached (.deliver .answered running (cutouts _)))
    (.deliver .answered (Pool.deliver_threads_self _ _ _ _ _) (inserts _)), ?_, ?_, ?_⟩
  · exact (congrArg (fun result => result.2.alerts.get 2) executed).trans visible
  · exact (congrArg (fun result => result.2.aux) executed).trans auxKept
  · rw [Pool.deliver_threads_self]
    exact congrArg (fun result => some (Prog.ret (AlertReply.mk (.ok secondAlert)
      (.ok (if result.1 then .added 2 else .exists 2))))) executed

theorem visible_alerts_complete_second : ∃ workers : AlertWorkers,
    workers.store.alerts.get 2 = some storedAlert ∧
      workers.threads 1 = some (.ret ⟨.ok secondAlert, .ok (.added 2)⟩) ∧
      OnlyVisibleComplete workers := by
  obtain ⟨workers, outdated, running⟩ := reach_second
    (alertWorkers_begin Permit.noWrap fun _ => trivial) observed_sound trivial
    fun _ greatest => absurd greatest (by decide)
  obtain ⟨after, reached, visible, _, done⟩ := reach_inserted outdated.reached running outdated.unseen
    (fun _ => trivial) (fun _ => trivial)
  exact ⟨after, visible, done, visible_alerts_complete reached⟩

theorem visible_alert_doubled :
    ¬ ∀ workers, AlertWorkersReached (Permit.all _ _) workers → OnlyVisibleComplete workers := by
  intro always
  obtain ⟨workers, reached, stored, unseen, running⟩ :=
    reach_twice (alertWorkers_begin (Permit.all _ _) fun _ => trivial) observed_sound
  obtain ⟨after, reached', visible, aux, _⟩ := reach_inserted reached running unseen
    (fun _ => trivial) (fun _ => trivial)
  obtain ⟨object, stored', once⟩ := ((always after reached').visible 2 storedAlert visible).aux
  rw [aux] at stored'
  obtain rfl : objectAt [timeOne, timeTwo, timeTwo] 2 = object :=
    Option.some.inj (stored.symm.trans stored')
  exact absurd (once (by decide)) (by decide)

end Boom.Alert
