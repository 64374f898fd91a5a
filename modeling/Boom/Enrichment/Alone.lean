import Boom.Enrichment.Ztf

/-! # An alert in a batch, and alone

What is written for an alert, and whether it is returned for the filters, against what
its own batch of one would do.  A batch that is read completely treats its alerts row by
row; what still reaches from one alert to another is the window the photometry of moving
objects is read over.  A batch that is not read completely does nothing for anyone. -/

namespace Boom.Enrichment

open Boom.Foundations

variable {ρ κ φ β δ : Type}

/-- The past of an object matters for an alert with a geometry that is close enough to the prediction. -/
structure ZtfSsoAssociation.Scored (numerics : Numerics) (sso : ZtfSsoAssociation) : Prop where
  near : ∃ separation, sso.separationArcsec = some separation ∧ MAX_SEPARATION_ARCSEC.le (numerics.widen separation) = false
  helioDist : sso.helioDist.isSome = true

theorem outburstFor_congr (numerics : Numerics) {sso : ZtfSsoAssociation} {candidate : Candidate}
    {history history' : String → Option (List (F64 × Point))}
    {baselines baselines' : String → Option (Nat → Option PhaseCurve)} (same : ∀ name, sso.designation = some name →
      (sso.Scored numerics → ((history name).map fun points => points.filter fun entry => entry.1.lt candidate.jd).getD [] =
        ((history' name).map fun points => points.filter fun entry => entry.1.lt candidate.jd).getD []) ∧
      baselines name = baselines' name) :
    outburstFor numerics sso candidate history baselines =
      outburstFor numerics sso candidate history' baselines' := by
  unfold outburstFor
  cases isSeparation : sso.separationArcsec with
  | none => rfl
  | some separation =>
    cases far : MAX_SEPARATION_ARCSEC.le (numerics.widen separation) with
    | true => simp [far]
    | false =>
      cases isHelio : sso.helioDist with
      | none => simp
      | some helioDist =>
        cases known : sso.designation with
        | none => cases sso.topoDist <;> cases sso.phaseAngle <;> rfl
        | some name =>
          obtain ⟨points, curves⟩ := same name known
          have scored : sso.Scored numerics := ⟨⟨separation, isSeparation, far⟩, by rw [isHelio]; rfl⟩
          simp only [Option.bind_eq_bind, Option.bind_some, points scored, curves]

namespace ZtfEnrichmentWorker

variable (worker : ZtfEnrichmentWorker ρ κ φ β δ) (database : Database κ)

def readAlerts (candids : List Int) : List (ZtfAlertForEnrichment ρ) :=
  (joinedDocuments database candids).filterMap worker.readAlert

def cutoutOf (candid : Int) : Option κ :=
  (database.cutouts.get candid).bind fun held =>
    if worker.storage.compressed then worker.decompressStamps held else some held

def Readable (candids : List Int) : Prop :=
  ∀ doc ∈ joinedDocuments database candids, (worker.fromDocument doc.2).isSome

def Undamaged (candids : List Int) : Prop :=
  ∀ candid ∈ candids, ∀ held, database.cutouts.get candid = some held →
    worker.storage.compressed = true → (worker.decompressStamps held).isSome

structure Complete (candids : List Int) : Prop where
  readable : worker.Readable database candids
  cutouts : ∀ doc ∈ joinedDocuments database candids, (database.cutouts.get doc.1).isSome
  stamps : worker.Undamaged database candids

/-- The alert is enriched, and scored against the past of the object. -/
structure Scored (alert : ZtfAlertForEnrichment ρ) (name : String) : Prop where
  measured : worker.lightcurve alert ≠ []
  near : ∃ separation, alert.candidate.ssdistnr.filter F32.nonnegative = some separation ∧
    MAX_SEPARATION_ARCSEC.le (worker.numerics.widen separation) = false
  hasOrbit : (orbitOf worker.numerics database name).isSome = true

def SameWindows (candids : List Int) (candid : Int) : Prop :=
  ∀ alert ∈ worker.readAlerts database [candid], ∀ name, alert.candidate.ssnamenr = some name →
    worker.Scored database alert name → SameWindow worker.numerics database (worker.readAlerts database candids)
      (worker.readAlerts database [candid]) name alert.candidate.jd

def ofCandid (candid : Int) :
    Except EnrichmentWorkerError (Enriched φ δ) → List (AlertUpdate φ δ) × List (Int × Int)
  | .error _ => ([], [])
  | .ok enriched => (enriched.updates.filter fun update => update.candid == candid,
      enriched.processed.filter fun entry => entry.2 == candid)

def SameAlone (candids : List Int) (candid : Int) : Prop :=
  ofCandid candid (worker.processAlerts database candids) =
    ofCandid candid (worker.processAlerts database [candid])

/-! ## The alerts of a batch -/

def workItem (context : SsoContext) (held : κ) (alert : ZtfAlertForEnrichment ρ) :
    Option (AlertWork ρ κ φ β) :=
  match worker.getAlertProperties context alert with
  | .ok (properties, allBands, programid, lightcurve) => some {
      candid := alert.candid
      programid := programid
      properties := properties
      allBandsProperties := allBands
      cutouts := held
      alert := alert
      ztfLightcurve := lightcurve }
  | .error _ => none

theorem getAlertProperties_cases (context : SsoContext) (alert : ZtfAlertForEnrichment ρ) :
    (∃ found, worker.getAlertProperties context alert = .ok found) ∨
      worker.getAlertProperties context alert = .error (.emptyLightcurve alert.candid) := by
  simp only [getAlertProperties]
  split
  · exact .inr rfl
  · exact .inl ⟨_, rfl⟩

theorem workItems_eq (context : SsoContext) {cutouts : List (Int × κ)} {alerts : List (ZtfAlertForEnrichment ρ)}
    (distinct : (alerts.map ZtfAlertForEnrichment.candid).Nodup)
    (each : ∀ alert ∈ alerts, (cutouts.lookup alert.candid).isSome) :
    worker.workItems context cutouts alerts = .ok (alerts.filterMap fun alert =>
      (cutouts.lookup alert.candid).bind fun held => worker.workItem context held alert) := by
  induction alerts generalizing cutouts with
  | nil => rfl
  | cons alert rest ih =>
    rw [List.map_cons, List.nodup_cons] at distinct
    obtain ⟨held, found⟩ := Option.isSome_iff_exists.mp (each alert List.mem_cons_self)
    -- the later alerts find their cutouts where they were
    have left {other : ZtfAlertForEnrichment ρ} (member : other ∈ rest) :
        (cutouts.filter fun entry => entry.1 != alert.candid).lookup other.candid =
          cutouts.lookup other.candid := by
      refine lookup_filter_ne fun same => distinct.1 ?_
      exact same ▸ List.mem_map_of_mem member
    have later : worker.workItems context (cutouts.filter fun entry => entry.1 != alert.candid) rest =
        .ok (rest.filterMap fun alert =>
          (cutouts.lookup alert.candid).bind fun held => worker.workItem context held alert) := by
      rw [ih distinct.2 fun other member => by
        rw [left member]
        exact each other (List.mem_cons_of_mem alert member)]
      refine congrArg Except.ok (List.filterMap_congr fun other member => ?_)
      rw [left member]
    rcases worker.getAlertProperties_cases context alert with ⟨⟨p, b, i, l⟩, enriched⟩ | empty
    · simp only [workItems, found, enriched, later, List.filterMap_cons, Option.bind_some, workItem]
      rfl
    · simp only [workItems, found, empty, later, List.filterMap_cons, Option.bind_some, workItem]

variable {alert : ZtfAlertForEnrichment ρ}

theorem workItems_of_missing (context : SsoContext) {cutouts : List (Int × κ)}
    {alerts : List (ZtfAlertForEnrichment ρ)} (member : alert ∈ alerts)
    (missing : cutouts.lookup alert.candid = none) :
    ∃ error, worker.workItems context cutouts alerts = .error error := by
  induction alerts generalizing cutouts with
  | nil => cases member
  | cons first rest ih =>
    cases found : cutouts.lookup first.candid with
    | none => exact ⟨.missingCutouts first.candid, by simp only [workItems, found]⟩
    | some held =>
      rcases List.mem_cons.mp member with rfl | later
      · rw [missing] at found
        cases found
      · have stillMissing : (cutouts.filter fun entry => entry.1 != first.candid).lookup alert.candid = none := by
          rw [List.lookup_eq_none_iff] at missing ⊢
          exact fun entry kept => missing entry (List.mem_filter.mp kept).1
        obtain ⟨error, failed⟩ := ih later stillMissing
        refine ⟨error, ?_⟩
        rcases worker.getAlertProperties_cases context first with ⟨⟨p, b, i, l⟩, enriched⟩ | empty
        · simp only [workItems, found, enriched, failed]
          rfl
        · simp only [workItems, found, empty, failed]

theorem classify_eq (items : List (AlertWork ρ κ φ β)) :
    worker.classify items = .ok (items.map (classifyRow worker.numerics worker.models)) := by
  unfold classify
  split
  · rw [classifyGpuBatch_eq worker.batchSize_pos]
    rfl
  · rw [classifyPerItem_eq]

/-! ## A batch that is read completely -/

theorem nodup_joinedDocuments (candids : List Int) : ((joinedDocuments database candids).map Prod.fst).Nodup := by
  refine nodup_read (database.alerts.unique.sublist (List.filter_sublist.map _)) fun entry made found => ?_
  obtain ⟨fields, _, rfl⟩ := Option.map_eq_some_iff.mp found
  rfl

theorem nodup_readAlerts (candids : List Int) :
    ((worker.readAlerts database candids).map ZtfAlertForEnrichment.candid).Nodup := by
  refine nodup_read (nodup_joinedDocuments database candids) fun entry made found => ?_
  obtain ⟨read, _, rfl⟩ := Option.map_eq_some_iff.mp found
  rfl

variable {candids : List Int}

theorem mem_readAlerts (member : alert ∈ worker.readAlerts database candids) :
    alert.candid ∈ candids ∧ ∃ doc ∈ joinedDocuments database candids, doc.1 = alert.candid := by
  obtain ⟨doc, inBatch, read⟩ := List.mem_filterMap.mp member
  obtain ⟨_, _, rfl⟩ := Option.map_eq_some_iff.mp read
  obtain ⟨stored, selected, joined⟩ := List.mem_filterMap.mp inBatch
  obtain ⟨_, _, rfl⟩ := Option.map_eq_some_iff.mp joined
  exact ⟨List.contains_iff_mem.mp (List.mem_filter.mp selected).2, _, inBatch, rfl⟩

def written (context : SsoContext) (alert : ZtfAlertForEnrichment ρ) : Option (AlertWork ρ κ φ β) :=
  (worker.cutoutOf database alert.candid).bind fun held => worker.workItem context held alert

theorem fetchAlerts_of_readable (readable : worker.Readable database candids) :
    worker.fetchAlerts database candids = .ok (worker.readAlerts database candids) := by
  have each : ∀ doc ∈ joinedDocuments database candids, (worker.readAlert doc).isSome := fun doc member => by
    simpa [readAlert] using readable doc member
  rw [fetchAlerts, gather_spec, if_pos each]
  rfl

theorem retrieveMultipleCutouts_of_undamaged (undamaged : worker.Undamaged database candids) :
    ∃ cutouts, worker.retrieveMultipleCutouts database candids = .ok cutouts ∧
      ∀ candid ∈ candids, cutouts.lookup candid = worker.cutoutOf database candid := by
  simp only [retrieveMultipleCutouts]
  split
  next compressed =>
    have each : ∀ held ∈ database.cutouts.find fun id _ => candids.contains id,
        ((worker.decompressStamps held.2).map fun cutouts => (held.1, cutouts)).isSome := by
      intro held member
      obtain ⟨stored, asked⟩ := Collection.mem_find.mp member
      simpa using undamaged held.1 (List.contains_iff_mem.mp asked) held.2 stored compressed
    rw [gather_spec, if_pos each]
    refine ⟨_, rfl, fun candid member => ?_⟩
    rw [Collection.find, lookup_read database.cutouts.unique (fun id => candids.contains id) worker.decompressStamps,
      if_pos (List.contains_iff_mem.mpr member)]
    simp only [cutoutOf, compressed, if_true]
    rfl
  next plain =>
    refine ⟨_, rfl, fun candid member => ?_⟩
    have read := lookup_read database.cutouts.unique (fun id => candids.contains id) some candid
    rw [if_pos (List.contains_iff_mem.mpr member)] at read
    have kept : (fun entry : Int × κ => (some entry.2).map fun value => (entry.1, value)) = some := rfl
    rw [kept, List.filterMap_some] at read
    rw [Collection.find, read, cutoutOf, Collection.get]
    simp only [plain, if_false, Bool.false_eq_true]

theorem processAlerts_of_complete (complete : worker.Complete database candids) :
    worker.processAlerts database candids =
      let items := (worker.readAlerts database candids).filterMap
        (worker.written database (worker.ssoContext database (worker.readAlerts database candids)))
      .ok {
        updates := items.map fun item => ⟨item.candid, item.properties,
          classifyRow worker.numerics worker.models item⟩
        processed := items.map fun item => (item.programid, item.candid) } := by
  obtain ⟨cutouts, retrieved, held⟩ := worker.retrieveMultipleCutouts_of_undamaged database complete.stamps
  have found : ∀ alert ∈ worker.readAlerts database candids,
      cutouts.lookup alert.candid = worker.cutoutOf database alert.candid :=
    fun alert member => held alert.candid (worker.mem_readAlerts database member).1
  have each : ∀ alert ∈ worker.readAlerts database candids, (cutouts.lookup alert.candid).isSome := by
    intro alert member
    obtain ⟨asked, doc, inBatch, same⟩ := worker.mem_readAlerts database member
    obtain ⟨stored, present⟩ := Option.isSome_iff_exists.mp (complete.cutouts doc inBatch)
    rw [found alert member, cutoutOf, ← same, present, Option.bind_some]
    split
    next compressed => exact complete.stamps doc.1 (same ▸ asked) stored present compressed
    next => rfl
  have items := worker.workItems_eq (worker.ssoContext database (worker.readAlerts database candids))
    (worker.nodup_readAlerts database candids) each
  have own : (worker.readAlerts database candids).filterMap (fun alert =>
      (cutouts.lookup alert.candid).bind fun held => worker.workItem
        (worker.ssoContext database (worker.readAlerts database candids)) held alert) =
      (worker.readAlerts database candids).filterMap
        (worker.written database (worker.ssoContext database (worker.readAlerts database candids))) :=
    List.filterMap_congr fun alert member => by rw [found alert member, written]
  rw [own] at items
  simp only [processAlerts, worker.fetchAlerts_of_readable database complete.readable, bind, Except.bind]
  by_cases empty : (worker.readAlerts database candids).isEmpty
  · rw [if_pos empty, List.isEmpty_iff.mp empty]
    rfl
  · rw [if_neg empty]
    have paired (list : List (AlertWork ρ κ φ β)) :
        list.zip (list.map (classifyRow worker.numerics worker.models)) =
          list.map fun item => (item, classifyRow worker.numerics worker.models item) := by
      conv_lhs => arg 1; rw [← List.map_id list]
      exact List.zip_map'
    simp only [retrieved, items, classify_eq, paired, List.map_map]
    rfl

/-! ## One candid of a batch -/

variable {candid : Int}

theorem filter_joinedDocuments (member : candid ∈ candids) :
    (joinedDocuments database candids).filter (fun doc => doc.1 == candid) = joinedDocuments database [candid] := by
  have sameKey : ∀ (doc made : Int × Fields), (database.joined doc.1).map (fun fields => (doc.1, fields)) = some made →
      (made.1 == candid) = (doc.1 == candid) := by
    intro doc made found
    obtain ⟨_, _, rfl⟩ := Option.map_eq_some_iff.mp found
    rfl
  rw [joinedDocuments, filter_made sameKey, joinedDocuments, Collection.find, Collection.find, List.filter_filter]
  congr 1
  refine List.filter_congr fun doc _ => ?_
  by_cases same : doc.1 = candid
  · simp [same, member]
  · simp [same]

theorem filter_readAlerts (member : candid ∈ candids) :
    (worker.readAlerts database candids).filter (fun alert => alert.candid == candid) =
      worker.readAlerts database [candid] := by
  have sameKey : ∀ doc made, worker.readAlert doc = some made → (made.candid == candid) = (doc.1 == candid) := by
    intro doc made found
    obtain ⟨_, _, rfl⟩ := Option.map_eq_some_iff.mp found
    rfl
  rw [readAlerts, filter_made sameKey, filter_joinedDocuments database member, readAlerts]

theorem candid_of_written {context : SsoContext} {item : AlertWork ρ κ φ β}
    (found : worker.written database context alert = some item) : item.candid = alert.candid := by
  obtain ⟨held, _, made⟩ := Option.bind_eq_some_iff.mp found
  unfold workItem at made
  split at made
  · rw [← Option.some.inj made]
  · cases made

theorem ofCandid_of_complete (complete : worker.Complete database candids) (member : candid ∈ candids) :
    ofCandid candid (worker.processAlerts database candids) =
      let items := (worker.readAlerts database [candid]).filterMap
        (worker.written database (worker.ssoContext database (worker.readAlerts database candids)))
      (items.map fun item => ⟨item.candid, item.properties, classifyRow worker.numerics worker.models item⟩,
        items.map fun item => (item.programid, item.candid)) := by
  have sameKey : ∀ alert item, worker.written database (worker.ssoContext database
      (worker.readAlerts database candids)) alert = some item →
      (item.candid == candid) = (alert.candid == candid) := fun alert item found => by
    rw [worker.candid_of_written database found]
  rw [worker.processAlerts_of_complete database complete]
  simp only [ofCandid, List.filter_map, Function.comp_def]
  rw [filter_made sameKey, worker.filter_readAlerts database member]

theorem Complete.alone (complete : worker.Complete database candids)
    (member : candid ∈ candids) : worker.Complete database [candid] := by
  have included : ∀ doc ∈ joinedDocuments database [candid], doc ∈ joinedDocuments database candids := by
    rw [← filter_joinedDocuments database member]
    exact fun doc kept => (List.mem_filter.mp kept).1
  refine ⟨fun doc kept => complete.readable doc (included doc kept),
    fun doc kept => complete.cutouts doc (included doc kept), ?_⟩
  intro other single
  obtain rfl := List.mem_singleton.mp single
  exact complete.stamps other member

theorem ofCandid_of_incomplete (incomplete : ¬ worker.Complete database candids)
    (candid : Int) : ofCandid candid (worker.processAlerts database candids) = ([], []) := by
  by_cases readable : worker.Readable database candids
  case neg =>
    have unread : ¬ ∀ doc ∈ joinedDocuments database candids, (worker.readAlert doc).isSome := fun each =>
      readable fun doc member => by simpa [readAlert] using each doc member
    have failed : worker.fetchAlerts database candids = .error .mongoDeserialize := by
      rw [fetchAlerts, gather_spec, if_neg unread]
    simp only [processAlerts, failed]
    rfl
  simp only [processAlerts, worker.fetchAlerts_of_readable database readable, bind, Except.bind]
  by_cases empty : (worker.readAlerts database candids).isEmpty
  · rw [if_pos empty]
    rfl
  rw [if_neg empty]
  by_cases undamaged : worker.Undamaged database candids
  case neg =>
    simp only [Undamaged, not_forall] at undamaged
    obtain ⟨other, asked, stored, present, compressed, damaged⟩ := undamaged
    have failed : worker.retrieveMultipleCutouts database candids = .error .cutoutStorage := by
      have some_damaged : ¬ ∀ held ∈ database.cutouts.find fun id _ => candids.contains id,
          ((worker.decompressStamps held.2).map fun cutouts => (held.1, cutouts)).isSome := fun each => by
        refine damaged ?_
        simpa using each (other, stored) (Collection.mem_find.mpr ⟨present, List.contains_iff_mem.mpr asked⟩)
      simp only [retrieveMultipleCutouts, if_pos compressed]
      rw [gather_spec, if_neg some_damaged]
    simp only [failed]
    rfl
  obtain ⟨cutouts, retrieved, held⟩ := worker.retrieveMultipleCutouts_of_undamaged database undamaged
  -- some alert of the batch is left without cutouts
  have missing : ∃ alert ∈ worker.readAlerts database candids, cutouts.lookup alert.candid = none := by
    have unfound : ¬ ∀ doc ∈ joinedDocuments database candids, (database.cutouts.get doc.1).isSome :=
      fun each => incomplete ⟨readable, each, undamaged⟩
    simp only [not_forall, Option.not_isSome_iff_eq_none] at unfound
    obtain ⟨doc, inBatch, absent⟩ := unfound
    obtain ⟨read, reads⟩ := Option.isSome_iff_exists.mp (readable doc inBatch)
    have alert : (⟨doc.1, read.1, read.2⟩ : ZtfAlertForEnrichment ρ) ∈ worker.readAlerts database candids :=
      List.mem_filterMap.mpr ⟨doc, inBatch, by simp [readAlert, reads]⟩
    refine ⟨_, alert, ?_⟩
    rw [held doc.1 (worker.mem_readAlerts database alert).1, cutoutOf, absent, Option.bind_none]
  obtain ⟨alert, member, absent⟩ := missing
  obtain ⟨error, failed⟩ := worker.workItems_of_missing
    (worker.ssoContext database (worker.readAlerts database candids)) member absent
  simp only [retrieved, failed]
  rfl

theorem mem_ssoNames (member : candid ∈ candids) (own : alert ∈ worker.readAlerts database [candid]) {name : String}
    (known : alert.candidate.ssnamenr = some name) : name ∈ ssoNames (worker.readAlerts database candids) := by
  rw [← worker.filter_readAlerts database member] at own
  exact List.mem_dedup.mpr (List.mem_filterMap.mpr ⟨alert, (List.mem_filter.mp own).1, known⟩)

theorem getAlertProperties_congr {context context' : SsoContext}
    (same : ∀ name, alert.candidate.ssnamenr = some name →
      context.orbits name = orbitOf worker.numerics database name ∧ context'.orbits name = orbitOf worker.numerics database name ∧
      (worker.Scored database alert name →
        ((context.history name).map fun points => points.filter fun entry => entry.1.lt alert.candidate.jd).getD [] =
          ((context'.history name).map fun points =>
            points.filter fun entry => entry.1.lt alert.candidate.jd).getD []) ∧
      context.baselines name = context'.baselines name) :
    worker.getAlertProperties context alert = worker.getAlertProperties context' alert := by
  by_cases measured : worker.lightcurve alert = []
  · simp only [getAlertProperties, measured, List.isEmpty_nil, if_true]
  have elements : alert.candidate.ssnamenr.bind context.orbits = alert.candidate.ssnamenr.bind context'.orbits := by
    cases known : alert.candidate.ssnamenr with
    | none => rfl
    | some name => exact (same name known).1.trans (same name known).2.1.symm
  simp only [getAlertProperties, elements]
  rw [outburstFor_congr worker.numerics fun name known => ?_]
  rw [ZtfSsoAssociation.designation_withGeometry] at known
  obtain ⟨-, isOrbit, history, baselines⟩ := same name known
  refine ⟨fun scored => history ⟨measured, ?_, ?_⟩, baselines⟩
  · obtain ⟨separation, isSeparation, near⟩ := scored.near
    rw [ZtfSsoAssociation.separationArcsec_withGeometry] at isSeparation
    exact ⟨separation, isSeparation, near⟩
  · have isName : alert.candidate.ssnamenr.bind context'.orbits = orbitOf worker.numerics database name := by
      rw [show alert.candidate.ssnamenr = some name from known, Option.bind_some, isOrbit]
    have placed := scored.helioDist
    rw [isName] at placed
    cases isSome : orbitOf worker.numerics database name with
    | none =>
      rw [isSome] at placed
      cases placed
    | some elements => rfl

theorem written_congr (member : candid ∈ candids) (windows : worker.SameWindows database candids candid) :
    ∀ alert ∈ worker.readAlerts database [candid],
      worker.written database (worker.ssoContext database (worker.readAlerts database candids)) alert =
      worker.written database (worker.ssoContext database (worker.readAlerts database [candid])) alert := by
  intro alert own
  have properties : worker.getAlertProperties
      (worker.ssoContext database (worker.readAlerts database candids)) alert =
      worker.getAlertProperties (worker.ssoContext database (worker.readAlerts database [candid])) alert := by
    refine worker.getAlertProperties_congr database fun name known => ?_
    have inBatch := worker.mem_ssoNames database member own known
    have itself := worker.mem_ssoNames database (List.mem_singleton.mpr rfl) own known
    refine ⟨lookup_fetchOrbits _ _ _ inBatch, lookup_fetchOrbits _ _ _ itself, fun scored => ?_, ?_⟩
    · exact history_congr worker.numerics database _ inBatch itself (windows alert own name known scored)
    · simp only [ssoContext, lookup_fetchBaselines _ _ _ inBatch, lookup_fetchBaselines _ _ _ itself]
  simp only [written, workItem, properties]

/-- An alert is enriched as it is alone, if the batch is read completely and reaches no
    earlier or later into the past of its object; and a batch that is not read completely
    enriches it as it is alone only if alone it would not be enriched. -/
theorem enriched_alone {candids : List Int} {candid : Int} (member : candid ∈ candids) :
    (worker.Complete database candids → worker.SameWindows database candids candid →
      worker.SameAlone database candids candid) ∧
    (¬ worker.Complete database candids → (worker.SameAlone database candids candid ↔
      ofCandid candid (worker.processAlerts database [candid]) = ([], []))) := by
  constructor
  · intro complete windows
    rw [SameAlone, worker.ofCandid_of_complete database complete member,
      worker.ofCandid_of_complete database (complete.alone worker database member) List.mem_cons_self,
      List.filterMap_congr (worker.written_congr database member windows)]
  · intro incomplete
    rw [SameAlone, worker.ofCandid_of_incomplete database incomplete, eq_comm]

/-! ### Two detections of one object -/

/-- Numbers that are all zero. -/
def zeros : Numerics where
  ofInt _ := zero
  toByte _ := 0
  toSize _ := 0
  widen _ := zero
  narrow _ := ⟨0⟩
  minus _ _ := zero
  withPerihelion elements := elements
  geometryAt _ _ := ⟨zero, zero, zero, zero, zero⟩
  deviation _ _ := none
  windowScatter _ _ := none
  outburstStatistic _ _ _ := none
  sameBandStatistic _ _ _ := none
  normalizeZtfSsnamenr name := some name

def blankModels : Models Unit Unit Unit Unit where
  Triplet := Unit
  Row := Unit
  Photometry := Unit
  Alpha := Unit
  prepareTriplet _ := some ()
  acaiMetadata _ := some ()
  btsbotMetadata _ := some ()
  blankTriplet := ()
  blankRow := ()
  acaiH _ _ := ⟨0⟩
  acaiN _ _ := ⟨0⟩
  acaiV _ _ := ⟨0⟩
  acaiO _ _ := ⟨0⟩
  acaiB _ _ := ⟨0⟩
  btsbot _ _ := ⟨0⟩
  ciderMetadata _ _ := ()
  photometryInputs _ := ((), 0)
  cider _ _ _ := ()
  derive _ _ := ()

def plainWorker : ZtfEnrichmentWorker Unit Unit Unit Unit Unit where
  numerics := zeros
  models := blankModels
  gpuEnabled := false
  batchSize := 1000
  batchSize_pos := by decide
  storage := .mongo
  decompressStamps := some
  fromDocument _ := some ({
    jd := zero, fid := 1, programid := 1, magpsf := ⟨0⟩, sigmapsf := ⟨0⟩
    ssnamenr := some "9816", ssdistnr := some ⟨0⟩, ssmagnr := none }, ())
  lightcurve _ := [⟨zero, ⟨0⟩, ⟨0⟩, 1⟩]
  analyzePhotometry _ _ := ((), ())

def twoAlerts (cutouts : Collection Int Unit) : Database Unit where
  alerts := ⟨[(1, []), (2, [])], by decide⟩
  joined _ := some []
  orbits := .empty
  baselines := .empty
  cutouts := cutouts

def cutoutsOfBoth : Collection Int Unit := ⟨[(1, ()), (2, ())], by decide⟩

def cutoutsOfOne : Collection Int Unit := ⟨[(1, ())], by decide⟩

/-- Its alerts are of the epoch 20.0. -/
def scoringWorker : ZtfEnrichmentWorker Unit Unit Unit Unit Unit where
  __ := plainWorker
  fromDocument _ := some ({
    jd := ⟨0x4034000000000000⟩, fid := 1, programid := 1, magpsf := ⟨0⟩, sigmapsf := ⟨0⟩
    ssnamenr := some "9816", ssdistnr := some ⟨0⟩, ssmagnr := none }, ())

/-- A detection at the epoch 14.0. -/
def earlierDetection : Fields :=
  [("candidate", .document [("ssnamenr", .string "9816"), ("jd", .double fourteenDays), ("magpsf", .double zero),
      ("sigmapsf", .double zero), ("fid", .double zero), ("ssdistnr", .double zero)]),
    ("properties", .document [("sso", .document [("helio_dist", .double zero), ("topo_dist", .double zero),
      ("phase_angle", .double zero)])])]

def elementsOfOne : Fields :=
  [("epoch_jd", .double zero), ("a", .double zero), ("e", .double zero), ("incl", .double zero), ("node", .double zero),
    ("peri", .double zero), ("mean_anomaly", .double zero)]

def threeAlerts : Database Unit where
  alerts := ⟨[(0, earlierDetection), (1, []), (2, [])], by decide⟩
  joined _ := some []
  orbits := ⟨[("9816", elementsOfOne)], by decide⟩
  baselines := .empty
  cutouts := cutoutsOfBoth

/-- An alert that is scored against an earlier detection, which both windows hold. -/
theorem enriched_alone_scored : (∀ alert ∈ scoringWorker.readAlerts threeAlerts [1], scoringWorker.Scored threeAlerts alert "9816") ∧
    (∃ point, Measures zeros earlierDetection "9816" fourteenDays point) ∧
    scoringWorker.SameAlone threeAlerts [1, 2] 1 := by
  refine ⟨?_, ⟨_, rfl, by decide +kernel⟩,
    (scoringWorker.enriched_alone threeAlerts List.mem_cons_self).1 ⟨fun _ _ => rfl, by decide, fun _ _ _ _ _ => rfl⟩ ?_⟩
  · intro alert own
    obtain rfl := List.mem_singleton.mp own
    exact ⟨List.cons_ne_nil _ _, ⟨_, rfl, by decide +kernel⟩, rfl⟩
  · -- Both windows start at zero.
    exact fun _ _ _ _ _ _ _ _ _ _ _ _ => Iff.rfl

/-- An alert is not enriched because another of its batch has no cutouts, although alone
    it would be. -/
theorem lost_with_another : ¬ ∀ (worker : ZtfEnrichmentWorker Unit Unit Unit Unit Unit)
    (database : Database Unit) (candids : List Int) (candid : Int), candids.Nodup → candid ∈ candids →
      (database.alerts.get candid).isSome → (database.joined candid).isSome →
        (database.cutouts.get candid).isSome → worker.SameAlone database candids candid := by
  intro claimed
  have same := claimed plainWorker (twoAlerts cutoutsOfOne) [1, 2] 1 (by decide) (by decide) rfl rfl rfl
  have together : ofCandid 1 (plainWorker.processAlerts (twoAlerts cutoutsOfOne) [1, 2]) = ([], []) := rfl
  have apart : (ofCandid 1 (plainWorker.processAlerts (twoAlerts cutoutsOfOne) [1])).2 = [(1, 1)] := rfl
  rw [SameAlone, together] at same
  rw [← same] at apart
  cases apart

end ZtfEnrichmentWorker

end Boom.Enrichment
