import Boom.Alert.Ztf

/-! # The rules of ingestion

A push is prepared against what was read and applied some time later.  The version
it is guarded by says that nothing was written in between: every update raises the
version, so an object that still has it still has the points that were read. -/

namespace Boom.Alert

open Boom.Foundations

/-! ## Objects -/

structure Lightcurves.Sorted (curves : Lightcurves) : Prop where
  prvCandidates : Increasing curves.prvCandidates
  prvNondetections : Increasing curves.prvNondetections
  fpHists : Increasing curves.fpHists

structure Lightcurves.Within (fewer more : Lightcurves) : Prop where
  prvCandidates : ∀ point ∈ fewer.prvCandidates, point ∈ more.prvCandidates
  prvNondetections : ∀ point ∈ fewer.prvNondetections, point ∈ more.prvNondetections
  fpHists : ∀ point ∈ fewer.fpHists, point ∈ more.fpHists

/-- Every epoch of the packet is stored. -/
structure Lightcurves.Covers (stored packet : Lightcurves) : Prop where
  prvCandidates : ∀ point ∈ packet.prvCandidates, ∃ held ∈ stored.prvCandidates, epoch held = epoch point
  prvNondetections :
    ∀ point ∈ packet.prvNondetections, ∃ held ∈ stored.prvNondetections, epoch held = epoch point
  fpHists : ∀ point ∈ packet.fpHists, ∃ held ∈ stored.fpHists, epoch held = epoch point

structure Lightcurves.Merged (stored packet result : Lightcurves) : Prop where
  prvCandidates : Alert.Merged stored.prvCandidates packet.prvCandidates result.prvCandidates
  prvNondetections :
    Alert.Merged stored.prvNondetections packet.prvNondetections result.prvNondetections
  fpHists : Alert.Merged stored.fpHists packet.fpHists result.fpHists

theorem Lightcurves.Within.refl (curves : Lightcurves) : curves.Within curves :=
  ⟨fun _ member => member, fun _ member => member, fun _ member => member⟩

theorem Lightcurves.Within.trans {first second third : Lightcurves} (within : first.Within second)
    (within' : second.Within third) : first.Within third where
  prvCandidates point member := within'.prvCandidates point (within.prvCandidates point member)
  prvNondetections point member :=
    within'.prvNondetections point (within.prvNondetections point member)
  fpHists point member := within'.fpHists point (within.fpHists point member)

theorem Lightcurves.Covers.refl (curves : Lightcurves) : curves.Covers curves :=
  ⟨fun point member => ⟨point, member, rfl⟩, fun point member => ⟨point, member, rfl⟩,
    fun point member => ⟨point, member, rfl⟩⟩

theorem Lightcurves.Covers.grown {stored later packet : Lightcurves} (covers : stored.Covers packet)
    (within : stored.Within later) : later.Covers packet where
  prvCandidates point member := by
    obtain ⟨held, present, same⟩ := covers.prvCandidates point member
    exact ⟨held, within.prvCandidates held present, same⟩
  prvNondetections point member := by
    obtain ⟨held, present, same⟩ := covers.prvNondetections point member
    exact ⟨held, within.prvNondetections held present, same⟩
  fpHists point member := by
    obtain ⟨held, present, same⟩ := covers.fpHists point member
    exact ⟨held, within.fpHists held present, same⟩

namespace Lightcurves.Merged

variable {stored packet result : Lightcurves}

section

variable (merged : stored.Merged packet result)
include merged

theorem sorted : result.Sorted :=
  ⟨merged.prvCandidates.increasing, merged.prvNondetections.increasing, merged.fpHists.increasing⟩

theorem within : stored.Within result :=
  ⟨fun _ => merged.prvCandidates.keeps, fun _ => merged.prvNondetections.keeps,
    fun _ => merged.fpHists.keeps⟩

theorem covers : result.Covers packet :=
  ⟨fun _ => merged.prvCandidates.covers, fun _ => merged.prvNondetections.covers,
    fun _ => merged.fpHists.covers⟩

end

end Lightcurves.Merged

def ZtfObject.number (object : ZtfObject) : Int := object.version.getD 0

structure ZtfObject.Grows (before after : ZtfObject) : Prop where
  within : before.Within after.toLightcurves
  versioned : before.number < after.number ∨
    (after.version = before.version ∧ after.toLightcurves = before.toLightcurves)

theorem ZtfObject.Grows.refl (object : ZtfObject) : object.Grows object :=
  ⟨.refl _, .inr ⟨rfl, rfl⟩⟩

theorem ZtfObject.Grows.trans {first second third : ZtfObject} (grows : first.Grows second)
    (grows' : second.Grows third) : first.Grows third := by
  refine ⟨grows.within.trans grows'.within, ?_⟩
  rcases grows.versioned, grows'.versioned with ⟨raised | ⟨same, curves⟩, raised' | ⟨same', curves'⟩⟩
  · exact .inl (Int.lt_trans raised raised')
  · exact .inl (by simpa [number, same'] using raised)
  · exact .inl (by simpa [number, same] using raised')
  · exact .inr ⟨same'.trans same, curves'.trans curves⟩

theorem ZtfObject.Grows.unchanged {before after : ZtfObject} (grows : before.Grows after)
    (same : after.version = before.version) : after.toLightcurves = before.toLightcurves := by
  rcases grows.versioned with raised | ⟨_, curves⟩
  · simp [number, same] at raised
  · exact curves

theorem wrapI32_of_lt {version : Int} (inside : inI32 version = true) (below : version ≠ i32Max) :
    wrapI32 (version + 1) = version + 1 := by
  simp only [inI32, Bool.and_eq_true, decide_eq_true_eq] at inside
  simp only [i32Max] at below
  unfold wrapI32
  rw [Int.bmod_eq_of_le] <;> omega

variable {object : ZtfObject} {packet : Lightcurves}

theorem ZtfObject.grows_pushed {push : AuxPush}
    {current : Option Int} {aliases : Option ZtfAliases} {now : F64} (guarded : object.version = current)
    (inside : current.all inI32 = true) (below : current ≠ some i32Max)
    (merged : object.toLightcurves.Merged packet (object.pushed push current aliases now).toLightcurves) :
    object.Grows (object.pushed push current aliases now) := by
  refine ⟨merged.within, .inl ?_⟩
  have raised : wrapI32 (current.getD 0 + 1) = current.getD 0 + 1 := by
    cases current with
    | none => decide
    | some version => exact wrapI32_of_lt inside (by simpa using below)
  simp only [number, pushed, guarded, Option.getD_some, raised]
  omega

theorem ZtfObject.grows_merged {aliases : Option ZtfAliases} {now : F64}
    (merged : object.toLightcurves.Merged packet (object.merged packet aliases now).toLightcurves) :
    object.Grows (object.merged packet aliases now) := by
  refine ⟨merged.within, .inl ?_⟩
  simp only [number, ZtfObject.merged, Option.getD_some]
  omega

/-! ## The database -/

structure ZtfDb.Grows (before after : ZtfDb) : Prop where
  aux : ∀ objectId object, before.aux.get objectId = some object →
    ∃ later, after.aux.get objectId = some later ∧ object.Grows later
  cutouts : ∀ candid, (before.cutouts.get candid).isSome → (after.cutouts.get candid).isSome
  alerts : ∀ candid alert, before.alerts.get candid = some alert → after.alerts.get candid = some alert

theorem ZtfDb.Grows.refl (db : ZtfDb) : db.Grows db :=
  ⟨fun _ object stored => ⟨object, stored, .refl object⟩, fun _ there => there, fun _ _ there => there⟩

theorem ZtfDb.Grows.trans {first second third : ZtfDb} (grows : first.Grows second)
    (grows' : second.Grows third) : first.Grows third where
  aux objectId object stored := by
    obtain ⟨later, stored', grown⟩ := grows.aux objectId object stored
    obtain ⟨last, stored'', grown'⟩ := grows'.aux objectId later stored'
    exact ⟨last, stored'', grown.trans grown'⟩
  cutouts candid there := grows'.cutouts candid (grows.cutouts candid there)
  alerts candid alert there := grows'.alerts candid alert (grows.alerts candid alert there)

def ZtfDb.Holds (db : ZtfDb) (objectId : String) (packet : Lightcurves) : Prop :=
  ∃ object, db.aux.get objectId = some object ∧ object.Covers packet

variable {objectId : String}

theorem ZtfDb.Holds.grown {before after : ZtfDb} (holds : before.Holds objectId packet) (grows : before.Grows after) :
    after.Holds objectId packet := by
  obtain ⟨object, stored, covers⟩ := holds
  obtain ⟨later, stored', grown⟩ := grows.aux objectId object stored
  exact ⟨later, stored', covers.grown grown.within⟩

structure ZtfDb.Refers (db : ZtfDb) (alert : ZtfAlert) : Prop where
  aux : ∃ object, db.aux.get alert.objectId = some object ∧
    (alert.candidate.jd.isFinite = true →
      ∃ point ∈ object.prvCandidates, epoch point = alert.candidate.jd.rank)
  cutouts : (db.cutouts.get alert.candid).isSome

theorem ZtfDb.Refers.grown {before after : ZtfDb} {alert : ZtfAlert} (refers : before.Refers alert)
    (grows : before.Grows after) : after.Refers alert where
  aux := by
    obtain ⟨object, stored, dated⟩ := refers.aux
    obtain ⟨later, stored', grown⟩ := grows.aux _ object stored
    refine ⟨later, stored', fun finite => ?_⟩
    obtain ⟨point, member, same⟩ := dated finite
    exact ⟨point, grown.within.prvCandidates point member, same⟩
  cutouts := grows.cutouts _ refers.cutouts

def ZtfOp.Changes {β : Type} (op : ZtfOp β) (objectId : String) (object after : ZtfObject) : Prop :=
  match op with
  | .pushAux target current push aliases now =>
    objectId = target ∧ object.version = current ∧ after = object.pushed push current aliases now
  | .mergeAux target packet aliases now =>
    objectId = target ∧ after = object.merged packet aliases now
  | _ => False

variable {β : Type} {db : ZtfDb} (op : ZtfOp β)

theorem exec_aux (stored : db.aux.get objectId = some object) : (op.exec db).2.aux.get objectId = some object ∨
      ∃ after, (op.exec db).2.aux.get objectId = some after ∧ op.Changes objectId object after := by
  cases op with
  | insertAux target inserted =>
    left
    simp only [ZtfOp.exec]
    split
    next after fresh =>
      have distinct : objectId ≠ target := by
        rintro rfl
        rw [Collection.absent_of_insertOne fresh] at stored
        cases stored
      simpa [distinct, stored] using Collection.get_insertOne fresh objectId
    next => exact stored
  | pushAux target current push aliases now =>
    simp only [ZtfOp.exec]
    by_cases same : objectId = target
    · subst same
      by_cases guarded : object.version = current
      · exact .inr ⟨_, by simp [stored, guarded], rfl, guarded, rfl⟩
      · exact .inl (by simp [stored, guarded])
    · exact .inl (by rw [Collection.get_updateOne_ne _ same, stored])
  | mergeAux target packet aliases now =>
    simp only [ZtfOp.exec]
    by_cases same : objectId = target
    · subst same
      exact .inr ⟨_, by simp [stored], rfl, rfl⟩
    · exact .inl (by rw [Collection.get_updateOne_ne _ same, stored])
  | insertCutouts candid =>
    left
    simp only [ZtfOp.exec]
    split <;> exact stored
  | insertAlert alert =>
    left
    simp only [ZtfOp.exec]
    split <;> exact stored
  | _ => exact .inl stored

def ZtfOp.Inserts {β : Type} (op : ZtfOp β) (objectId : String) (object : ZtfObject) : Prop :=
  match op with
  | .insertAux target inserted => target = objectId ∧ inserted = object
  | _ => False

/-- An object appears by its insert only. -/
theorem exec_aux_new (absent : db.aux.get objectId = none) (stored : (op.exec db).2.aux.get objectId = some object) :
    op.Inserts objectId object := by
  have untouched (same : (op.exec db).2.aux.get objectId = db.aux.get objectId) :
      op.Inserts objectId object := by
    rw [same, absent] at stored
    cases stored
  cases op with
  | insertAux target inserted =>
    simp only [ZtfOp.exec] at stored
    split at stored
    next after fresh =>
      rw [Collection.get_insertOne fresh] at stored
      split at stored
      next same => exact ⟨same.symm, Option.some.inj stored⟩
      next =>
        rw [absent] at stored
        cases stored
    next =>
      rw [absent] at stored
      cases stored
  | pushAux target current push aliases now =>
    apply untouched
    simp only [ZtfOp.exec, Collection.get_updateOne]
    split
    next same => simp [← same, absent]
    next => rfl
  | mergeAux target packet aliases now =>
    apply untouched
    simp only [ZtfOp.exec, Collection.get_updateOne]
    split
    next same => simp [← same, absent]
    next => rfl
  | insertCutouts candid =>
    apply untouched
    simp only [ZtfOp.exec]
    split <;> rfl
  | insertAlert alert =>
    apply untouched
    simp only [ZtfOp.exec]
    split <;> rfl
  | _ => exact untouched rfl

theorem exec_cutouts {candid : Int}
    (there : (db.cutouts.get candid).isSome) : ((op.exec db).2.cutouts.get candid).isSome := by
  cases op with
  | insertCutouts added =>
    simp only [ZtfOp.exec]
    split
    next after fresh =>
      rw [Collection.get_insertOne fresh]
      split
      next => rfl
      next => exact there
    next => exact there
  | insertAux target inserted =>
    simp only [ZtfOp.exec]
    split <;> exact there
  | insertAlert alert =>
    simp only [ZtfOp.exec]
    split <;> exact there
  | _ => exact there

theorem exec_alerts {candid : Int} {alert : ZtfAlert}
    (there : db.alerts.get candid = some alert) : (op.exec db).2.alerts.get candid = some alert := by
  cases op with
  | insertAlert added =>
    simp only [ZtfOp.exec]
    split
    next after fresh =>
      have distinct : candid ≠ added.candid := by
        rintro rfl
        rw [Collection.absent_of_insertOne fresh] at there
        cases there
      simpa [distinct, there] using Collection.get_insertOne fresh candid
    next => exact there
  | insertAux target inserted =>
    simp only [ZtfOp.exec]
    split <;> exact there
  | insertCutouts added =>
    simp only [ZtfOp.exec]
    split <;> exact there
  | _ => exact there

def ZtfOp.InsertsAlert {β : Type} (op : ZtfOp β) (alert : ZtfAlert) : Prop :=
  match op with
  | .insertAlert added => added = alert
  | _ => False

theorem exec_alerts_new {candid : Int} {alert : ZtfAlert} (there : (op.exec db).2.alerts.get candid = some alert) :
    db.alerts.get candid = some alert ∨ (candid = alert.candid ∧ op.InsertsAlert alert) := by
  cases op with
  | insertAlert added =>
    simp only [ZtfOp.exec] at there
    split at there
    next after fresh =>
      rw [Collection.get_insertOne fresh] at there
      split at there
      next same =>
        obtain rfl : added = alert := Option.some.inj there
        exact .inr ⟨same, rfl⟩
      next => exact .inl there
    next => exact .inl there
  | insertAux target inserted =>
    simp only [ZtfOp.exec] at there
    split at there <;> exact .inl there
  | insertCutouts added =>
    simp only [ZtfOp.exec] at there
    split at there <;> exact .inl there
  | _ => exact .inl there

theorem ZtfObject.merges_merged
    (sorted : object.toLightcurves.Sorted) (sorted' : packet.Sorted) (aliases : Option ZtfAliases) (now : F64) :
    object.toLightcurves.Merged packet (object.merged packet aliases now).toLightcurves where
  prvCandidates := updateTimeseriesOp_merged sorted.prvCandidates sorted'.prvCandidates
  prvNondetections := updateTimeseriesOp_merged sorted.prvNondetections sorted'.prvNondetections
  fpHists := updateTimeseriesOp_merged sorted.fpHists sorted'.fpHists

/-! ## The rules of ingestion -/

def ZtfOp.Lawful (watched : Prop) {β : Type} (op : ZtfOp β) (db : ZtfDb) : Prop :=
  match op with
  | .insertAux _ object => object.toLightcurves.Sorted
  | .pushAux objectId current push aliases now =>
    current.all inI32 = true ∧ ∀ object, db.aux.get objectId = some object → object.version = current →
      ∃ packet, object.toLightcurves.Merged packet (object.pushed push current aliases now).toLightcurves
  | .mergeAux _ packet _ _ => packet.Sorted
  | .insertAlert alert => watched → db.Refers alert
  | _ => True

def SortedObjects (db : ZtfDb) : Prop :=
  ∀ objectId object, db.aux.get objectId = some object → object.toLightcurves.Sorted

structure ZtfDb.Sound (watched : Prop) (db : ZtfDb) : Prop where
  sorted : SortedObjects db
  refers : watched → ∀ candid alert, db.alerts.get candid = some alert →
    alert.candid = candid ∧ db.Refers alert

def Permit.noWrap : Permit ZtfOp ZtfDb := fun delivery _ op db =>
  match op with
  | .pushAux objectId current _ _ _ => delivery ≠ .refused → current = some i32Max →
    db.aux.matches? objectId (fun object => object.version == current) = false
  | _ => True

def ingestRules (watched : Prop) : Discipline ZtfOp ZtfDb where
  permit := Permit.noWrap
  inv := ZtfDb.Sound watched
  grows := ZtfDb.Grows
  lawful := ZtfOp.Lawful watched
  refl := .refl
  trans := .trans

theorem ZtfOp.Changes.grows {watched : Prop} {op : ZtfOp β}
    {object after : ZtfObject} {delivery : Delivery} (applied : delivery ≠ .refused)
    (permitted : Permit.noWrap delivery op db) (lawful : op.Lawful watched db)
    (sorted : object.toLightcurves.Sorted) (stored : db.aux.get objectId = some object)
    (changes : op.Changes objectId object after) :
    object.Grows after ∧ after.toLightcurves.Sorted := by
  cases op with
  | pushAux target current push aliases now =>
    obtain ⟨rfl, guarded, rfl⟩ := changes
    obtain ⟨inside, prepared⟩ := lawful
    obtain ⟨packet, merged⟩ := prepared object stored guarded
    have below : current ≠ some i32Max := by
      intro greatest
      have blocked := permitted applied greatest
      simp [Collection.matches?, stored, guarded] at blocked
    exact ⟨ZtfObject.grows_pushed guarded inside below merged, merged.sorted⟩
  | mergeAux target packet aliases now =>
    obtain ⟨rfl, rfl⟩ := changes
    have merged := ZtfObject.merges_merged sorted lawful aliases now
    exact ⟨ZtfObject.grows_merged merged, merged.sorted⟩
  | _ => exact changes.elim

theorem exec_keeps {watched : Prop} {op : ZtfOp β} {delivery : Delivery}
    (applied : delivery ≠ .refused) (sound : db.Sound watched)
    (lawful : op.Lawful watched db) (permitted : Permit.noWrap delivery op db) :
    (op.exec db).2.Sound watched ∧ db.Grows (op.exec db).2 := by
  have grown : ∀ objectId object, db.aux.get objectId = some object →
      ∃ later, (op.exec db).2.aux.get objectId = some later ∧ object.Grows later ∧
        later.toLightcurves.Sorted := by
    intro objectId object stored
    have sorted := sound.sorted objectId object stored
    rcases exec_aux op stored with same | ⟨after, stored', changes⟩
    · exact ⟨object, same, .refl object, sorted⟩
    · exact ⟨after, stored', changes.grows applied permitted lawful sorted stored⟩
  have grows : db.Grows (op.exec db).2 := by
    refine ⟨fun objectId object stored => ?_, fun _ there => exec_cutouts op there,
      fun _ _ there => exec_alerts op there⟩
    obtain ⟨later, stored', grown, _⟩ := grown objectId object stored
    exact ⟨later, stored', grown⟩
  refine ⟨⟨fun objectId object stored' => ?_, fun watches candid alert there => ?_⟩, grows⟩
  · cases held : db.aux.get objectId with
    | none =>
      have inserted := exec_aux_new op held stored'
      cases op with
      | insertAux target new =>
        obtain ⟨_, rfl⟩ := inserted
        exact lawful
      | _ => exact inserted.elim
    | some before =>
      obtain ⟨later, stored, _, sorted⟩ := grown objectId before held
      obtain rfl : later = object := Option.some.inj (stored.symm.trans stored')
      exact sorted
  · rcases exec_alerts_new op there with old | ⟨own, inserted⟩
    · obtain ⟨named, refers⟩ := sound.refers watches candid alert old
      exact ⟨named, refers.grown grows⟩
    · cases op with
      | insertAlert added =>
        obtain rfl : added = alert := inserted
        exact ⟨own.symm, (lawful watches).grown grows⟩
      | _ => exact inserted.elim

theorem ingestRules_sound (watched : Prop) : (ingestRules watched).Sound := by
  intro β delivery op db sound lawful permitted
  cases delivery with
  | answered => exact exec_keeps (by decide) sound lawful permitted
  | lost => exact exec_keeps (by decide) sound lawful permitted
  | refused => exact (ingestRules watched).keeps_refused sound

/-! ## The step that writes the object -/

section AuxStep

variable {watched : Prop}

def ZtfDb.Read (db : ZtfDb) (objectId : String) (existing : AlertAuxForUpdate) : Prop :=
  ∃ (object later : ZtfObject), existing = object.forUpdate ∧ object.version.all inI32 = true ∧
    db.aux.get objectId = some later ∧ object.Grows later

variable {existing : AlertAuxForUpdate}

theorem ZtfDb.Read.grown {before after : ZtfDb} (read : before.Read objectId existing) (grows : before.Grows after) :
    after.Read objectId existing := by
  obtain ⟨object, later, described, inside, stored, grown⟩ := read
  obtain ⟨last, stored', grown'⟩ := grows.aux objectId later stored
  exact ⟨object, last, described, inside, stored', grown.trans grown'⟩

theorem getExistingAux_safe (objectId : String) (db : ZtfDb) :
    Safe (ingestRules watched) (fun result current => ∀ value, result = .ok value →
      ∀ existing, value = some existing → current.Read objectId existing)
      (getExistingAux objectId).run db := by
  unfold getExistingAux ask
  refine Safe.ask (ingestRules_sound watched) ?_ ?_ ?_
  · intro current value failed
    cases failed
  · intro current kept grown
    trivial
  · intro current kept grown permitted keeps
    split
    next =>
      apply Safe.ret
      intro later _ _ value failed
      cases failed
    next inside =>
      apply Safe.ret
      intro later _ grown' value same existing described
      cases same
      obtain ⟨object, stored, rfl⟩ := Option.map_eq_some_iff.mp described
      have held : current.aux.get objectId = some object := stored
      have read : current.Read objectId object.forUpdate := by
        refine ⟨object, object, rfl, ?_, held, .refl object⟩
        simp only [stored, Option.any_some] at inside
        cases version : object.version with
        | none => rfl
        | some number => simpa [version] using inside
      exact read.grown grown'

theorem merged_of_preparePush {push : AuxPush}
    (prepared : preparePush packet object.forUpdate = .ok push) (current : Option Int)
    (aliases : Option ZtfAliases) (now : F64) :
    object.toLightcurves.Merged packet (object.pushed push current aliases now).toLightcurves := by
  unfold preparePush at prepared
  cases first : prepareTimeseriesUpdate packet.prvCandidates (jdOnly object.prvCandidates)
      "prv_candidates" with
  | error fault => simp [ZtfObject.forUpdate, first, bind, Except.bind] at prepared
  | ok prvCandidates =>
    cases second : prepareTimeseriesUpdate packet.prvNondetections (jdOnly object.prvNondetections)
        "prv_nondetections" with
    | error fault => simp [ZtfObject.forUpdate, first, second, bind, Except.bind] at prepared
    | ok prvNondetections =>
      cases third : prepareTimeseriesUpdate packet.fpHists (jdOnly object.fpHists) "fp_hists" with
      | error fault => simp [ZtfObject.forUpdate, first, second, third, bind, Except.bind] at prepared
      | ok fpHists =>
        simp only [ZtfObject.forUpdate, first, second, third, bind, Except.bind, pure, Except.pure,
          Except.ok.injEq] at prepared
        subst prepared
        exact ⟨prepareTimeseriesUpdate_merged first, prepareTimeseriesUpdate_merged second,
          prepareTimeseriesUpdate_merged third⟩

theorem ZtfDb.Read.merged (read : db.Read objectId existing) {push : AuxPush}
    (prepared : preparePush packet existing = .ok push) (aliases : Option ZtfAliases) (now : F64)
    (stored : db.aux.get objectId = some object) (guarded : object.version = existing.version) :
    object.toLightcurves.Merged packet
      (object.pushed push existing.version aliases now).toLightcurves := by
  obtain ⟨before, later, rfl, _, stored', grown⟩ := read
  obtain rfl : object = later := Option.some.inj (stored.symm.trans stored')
  have unchanged := grown.unchanged guarded
  have merged := merged_of_preparePush prepared before.version aliases now
  simpa [ZtfObject.pushed, ZtfObject.forUpdate, unchanged] using merged

theorem updateAuxInner_safe (packet : Lightcurves) (aliases : Option ZtfAliases)
    (now : F64) (read : db.Read objectId existing) :
    Safe (ingestRules watched) (fun result current => result = .ok () → current.Holds objectId packet)
      (updateAuxInner objectId packet aliases now existing).run db := by
  unfold updateAuxInner ask
  cases prepared : preparePush packet existing with
  | error fault =>
    apply Safe.ret
    intro current _ _ failed
    cases failed
  | ok push =>
    refine Safe.ask (ingestRules_sound watched) ?_ ?_ ?_
    · intro current failed
      cases failed
    · intro current kept grown
      have read' := read.grown grown
      refine ⟨?_, fun object stored guarded => ⟨packet, read'.merged prepared aliases now stored guarded⟩⟩
      obtain ⟨before, _, rfl, inside, _⟩ := read
      exact inside
    · intro current kept grown permitted keeps
      split
      next =>
        apply Safe.ret
        intro later _ _ failed
        cases failed
      next matched =>
        apply Safe.ret
        intro later _ grown' _
        refine ZtfDb.Holds.grown ?_ grown'
        have hit : current.aux.matches? objectId (fun object => object.version == existing.version) = true := by
          by_contra missed
          exact matched (if_neg missed)
        obtain ⟨object, stored, guarded⟩ := (Option.any_eq_true _ _).mp hit
        have same : object.version = existing.version := by simpa using guarded
        have merged := (read.grown grown).merged prepared aliases now stored same
        refine ⟨object.pushed push existing.version aliases now, ?_, merged.covers⟩
        simp [Store.exec, ZtfOp.exec, stored, same]

theorem updateAuxFallback_safe (sorted : packet.Sorted) (objectId : String)
    (aliases : Option ZtfAliases) (now : F64) (db : ZtfDb) :
    Safe (ingestRules watched) (fun result current => result = .ok () → current.Holds objectId packet)
      (updateAuxFallback objectId packet aliases now).run db := by
  unfold updateAuxFallback ask
  refine Safe.ask (ingestRules_sound watched) ?_ ?_ ?_
  · intro current failed
    cases failed
  · intro current kept grown
    exact sorted
  · intro current kept grown permitted keeps
    split
    next =>
      apply Safe.ret
      intro later _ _ failed
      cases failed
    next matched =>
      apply Safe.ret
      intro later _ grown' _
      refine ZtfDb.Holds.grown ?_ grown'
      have hit : current.aux.matches? objectId (fun _ => true) = true := by
        by_contra missed
        exact matched (if_neg missed)
      obtain ⟨object, stored, _⟩ := (Option.any_eq_true _ _).mp hit
      have merged := ZtfObject.merges_merged (kept.sorted objectId object stored) sorted aliases now
      refine ⟨object.merged packet aliases now, ?_, merged.covers⟩
      simp [Store.exec, ZtfOp.exec, stored]

theorem holds_later {program : ZtfProg Unit} (safe : Safe (ingestRules watched)
      (fun result current => result = .ok () → current.Holds objectId packet) program.run db) :
    Safe (ingestRules watched) (fun result current => ∀ value, result = .ok value →
      ∀ later : ZtfDb, later.Sound watched → current.Grows later →
        (Except.ok (ε := AlertError) value = .ok () → later.Holds objectId packet)) program.run db := by
  refine safe.weaken ?_
  rintro result current _ holds value rfl later _ grown same
  exact (holds same).grown grown

theorem updateAux_safe (sorted : packet.Sorted) (aliases : Option ZtfAliases) (now : F64)
    (sound : db.Sound watched) (read : db.Read objectId existing) :
    Safe (ingestRules watched) (fun result current => result = .ok () → current.Holds objectId packet)
      (updateAux objectId packet aliases now existing).run db := by
  unfold updateAux
  refine Safe.tryCatch sound (holds_later (updateAuxInner_safe packet aliases now read)) ?_
  intro error current _ _
  exact updateAuxFallback_safe sorted objectId aliases now current

theorem insertAux_safe (sorted : object.toLightcurves.Sorted) (db : ZtfDb) :
    Safe (ingestRules watched)
      (fun result current => result = .ok () → current.Holds objectId object.toLightcurves)
      (insertAux objectId object).run db := by
  unfold insertAux ask
  refine Safe.ask (ingestRules_sound watched) ?_ ?_ ?_
  · intro current failed
    cases failed
  · intro current kept grown
    exact sorted
  · intro current kept grown permitted keeps
    cases free : current.aux.insertOne objectId object with
    | none =>
      have refused : (Store.exec (ZtfOp.insertAux objectId object) current).1 = false := by
        simp [Store.exec, ZtfOp.exec, free]
      rw [refused]
      apply Safe.ret
      intro later _ _ failed
      cases failed
    | some aux =>
      have inserted : (Store.exec (ZtfOp.insertAux objectId object) current).1 = true := by
        simp [Store.exec, ZtfOp.exec, free]
      rw [inserted]
      apply Safe.ret
      intro later _ grown' _
      refine ZtfDb.Holds.grown ⟨object, ?_, .refl _⟩ grown'
      simp [Store.exec, ZtfOp.exec, free, Collection.get_insertOne free]

theorem auxStep_safe (sorted : packet.Sorted) (objectId : String) (ra dec : F64)
    (aliases : Option ZtfAliases) (now : F64) (sound : db.Sound watched) :
    Safe (ingestRules watched) (fun result current => result = .ok () → current.Holds objectId packet)
      (auxStep objectId ra dec packet aliases now).run db := by
  unfold auxStep
  refine Safe.bindExcept (fun value current => ∀ existing, value = some existing →
    current.Read objectId existing) sound (getExistingAux_safe objectId db) ?_ ?_
  · intro error current _ _ failed
    cases failed
  · intro value current kept grown found
    cases value with
    | some existing => exact updateAux_safe sorted aliases now kept (found existing rfl)
    | none =>
      refine Safe.ask (ingestRules_sound watched) ?_ ?_ ?_
      · intro later failed
        cases failed
      · intro later _ _
        trivial
      · intro later kept' _ _ keeps
        refine Safe.tryCatch keeps.1 (holds_later (insertAux_safe sorted _)) ?_
        intro error last _ _
        cases error with
        | alertAuxExists => exact updateAuxFallback_safe sorted objectId aliases now last
        | _ =>
          apply Safe.ret
          intro _ _ _ failed
          cases failed

end AuxStep

end Boom.Alert
