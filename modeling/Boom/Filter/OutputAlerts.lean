import Boom.Filter.Batch

/-! # The alerts that are sent out

`build_ztf_alerts` joins the alerts that passed filters with their light curves and cutouts,
here from the collections themselves: an alert whose object is not in the collection of
light curves is dropped from the join, and one that does not have the expected fields fails
all of them. -/

namespace Boom.Filter

open Boom.Foundations

structure Collections (A X P C : Type) where
  alerts : Int → Option A
  objectId : A → String
  aux : String → Option X
  /-- The joined document as an alert, if it has the fields of one. -/
  read : A → X → Option P
  cutouts : Int → Except Unit (Option C)

variable {E A X P C : Type}

namespace Collections

def fetched (stores : Collections A X P C) (candid : Int) : Fetched P :=
  match stores.alerts candid with
  | none => .absent
  | some alert =>
    -- `$unwind` drops an alert without its light curves
    match stores.aux (stores.objectId alert) with
    | none => .absent
    | some aux =>
      match stores.read alert aux with
      | none => .unreadable
      | some packet => .found packet

def world (stores : Collections A X P C) (world : World E P C) : World E P C :=
  { world with fetchAlert := stores.fetched, cutouts := stores.cutouts }

end Collections

inductive Failure where
  | error (error : FilterWorkerError)
  | panic

def unsortable (times : List F64) : Bool := 2 ≤ times.length && times.any F64.isNan

section Build

variable (times : P → List F64) (world : World E P C)

def assembleSorted (results : List (Int × FilterResults)) (cutouts : List (Int × C)) :
    List (Int × P) → Except Failure (List (Alert P C))
  | [] => .ok []
  | (candid, packet) :: rest =>
    if unsortable (times packet) then .error .panic
    else
      match cutouts.lookup candid with
      | none => .error (.error (.missingCutouts candid))
      | some images =>
        (assembleSorted results cutouts rest).map (⟨candid, resultsOf results candid, packet, images⟩ :: ·)

def buildAlerts (results : List (Int × FilterResults)) : Except Failure (List (Alert P C)) :=
  let candids := (results.map Prod.fst).dedup
  match fetchAlerts world candids with
  | none => .error (.error .fetchAlertsError)
  | some alerts =>
    match retrieveMultipleCutouts world candids with
    | none => .error (.error .cutoutStorageError)
    | some cutouts =>
      if cutouts.length = alerts.length then assembleSorted times results cutouts alerts
      else .error (.error (.missingCutoutsBatch (alerts.filter fun alert => (cutouts.lookup alert.1).isNone).length))

end Build

/-! ## What is fetched -/

def IsFound (world : World E P C) (candid : Int) : Prop := ∃ packet, world.fetchAlert candid = .found packet

def HasCutouts (world : World E P C) (candid : Int) : Prop := ∃ images, world.cutouts candid = .ok (some images)

def LacksCutouts (world : World E P C) (candid : Int) : Prop := world.cutouts candid = .ok none

variable {world : World E P C} {candids : List Int}

theorem fetchAlerts_eq_none_iff :
    fetchAlerts world candids = none ↔ ∃ candid ∈ candids, world.fetchAlert candid = .unreadable := by
  induction candids with
  | nil => simp [fetchAlerts]
  | cons candid rest ih =>
    rw [fetchAlerts]
    cases fetched : world.fetchAlert candid <;> simp [fetched, ih]

theorem of_fetchAlerts {alerts : List (Int × P)} (read : fetchAlerts world candids = some alerts) :
    (alerts.map Prod.fst).Sublist candids ∧ (∀ candid, candid ∈ alerts.map Prod.fst ↔ candid ∈ candids ∧ IsFound world candid) ∧
      ∀ entry ∈ alerts, world.fetchAlert entry.1 = .found entry.2 := by
  induction candids generalizing alerts with
  | nil =>
    obtain rfl := Option.some.inj read
    simp
  | cons candid rest ih =>
    rw [fetchAlerts] at read
    cases fetched : world.fetchAlert candid with
    | absent =>
      rw [fetched] at read
      obtain ⟨sublist, members, entries⟩ := ih read
      refine ⟨sublist.cons candid, fun other => ?_, entries⟩
      rw [members other, List.mem_cons]
      constructor
      · rintro ⟨listed, found⟩
        exact ⟨.inr listed, found⟩
      · rintro ⟨rfl | listed, packet, found⟩
        · rw [fetched] at found
          cases found
        · exact ⟨listed, packet, found⟩
    | unreadable =>
      rw [fetched] at read
      cases read
    | found packet =>
      rw [fetched] at read
      obtain ⟨others, isOthers, rfl⟩ := Option.map_eq_some_iff.mp read
      obtain ⟨sublist, members, entries⟩ := ih isOthers
      refine ⟨sublist.cons_cons candid, fun other => ?_, ?_⟩
      · rw [List.map_cons, List.mem_cons, List.mem_cons, members other]
        constructor
        · rintro (rfl | ⟨listed, found⟩)
          · exact ⟨.inl rfl, packet, fetched⟩
          · exact ⟨.inr listed, found⟩
        · rintro ⟨rfl | listed, found⟩
          · exact .inl rfl
          · exact .inr ⟨listed, found⟩
      · intro entry member
        rcases List.mem_cons.mp member with rfl | later
        · exact fetched
        · exact entries entry later

theorem retrieveMultipleCutouts_eq_none_iff :
    retrieveMultipleCutouts world candids = none ↔ ∃ candid ∈ candids, ∃ error, world.cutouts candid = .error error := by
  induction candids with
  | nil => simp [retrieveMultipleCutouts]
  | cons candid rest ih =>
    rw [retrieveMultipleCutouts]
    cases stored : world.cutouts candid with
    | error error => simp [stored]
    | ok images => cases images <;> simp [stored, ih]

theorem of_retrieveMultipleCutouts {cutouts : List (Int × C)}
    (read : retrieveMultipleCutouts world candids = some cutouts) : (cutouts.map Prod.fst).Sublist candids ∧
      ∀ candid, candid ∈ cutouts.map Prod.fst ↔ candid ∈ candids ∧ HasCutouts world candid := by
  induction candids generalizing cutouts with
  | nil =>
    obtain rfl := Option.some.inj read
    simp
  | cons candid rest ih =>
    rw [retrieveMultipleCutouts] at read
    cases stored : world.cutouts candid with
    | error error =>
      rw [stored] at read
      cases read
    | ok images =>
      cases images with
      | none =>
        rw [stored] at read
        obtain ⟨sublist, members⟩ := ih read
        refine ⟨sublist.cons candid, fun other => ?_⟩
        rw [members other, List.mem_cons]
        constructor
        · rintro ⟨listed, held⟩
          exact ⟨.inr listed, held⟩
        · rintro ⟨rfl | listed, images, held⟩
          · rw [stored] at held
            cases held
          · exact ⟨listed, images, held⟩
      | some images =>
        rw [stored] at read
        obtain ⟨others, isOthers, rfl⟩ := Option.map_eq_some_iff.mp read
        obtain ⟨sublist, members⟩ := ih isOthers
        refine ⟨sublist.cons_cons candid, fun other => ?_⟩
        rw [List.map_cons, List.mem_cons, List.mem_cons, members other]
        constructor
        · rintro (rfl | ⟨listed, held⟩)
          · exact ⟨.inl rfl, images, stored⟩
          · exact ⟨.inr listed, held⟩
        · rintro ⟨rfl | listed, held⟩
          · exact .inl rfl
          · exact .inr ⟨listed, held⟩

/-! ## What is assembled -/

theorem mem_keys_of_lookup {cutouts : List (Int × C)} {candid : Int} {images : C}
    (found : cutouts.lookup candid = some images) : candid ∈ cutouts.map Prod.fst := by
  by_contra absent
  have missing : cutouts.lookup candid = none := by
    rw [List.lookup_eq_none_iff]
    intro entry member
    rw [bne_iff_ne]
    rintro rfl
    exact absent (List.mem_map_of_mem member)
  rw [missing] at found
  cases found

theorem exists_lookup_of_mem_keys {cutouts : List (Int × C)} {candid : Int} (member : candid ∈ cutouts.map Prod.fst) :
    ∃ images, cutouts.lookup candid = some images := by
  rw [← Option.isSome_iff_exists, ← Option.ne_none_iff_isSome]
  intro missing
  obtain ⟨entry, listed, rfl⟩ := List.mem_map.mp member
  have differs := List.lookup_eq_none_iff.mp missing entry listed
  simp at differs

section Assembled

variable {times : P → List F64} {results : List (Int × FilterResults)} {cutouts : List (Int × C)}

theorem assembleSorted_of {alerts : List (Int × P)} (sortable : ∀ entry ∈ alerts, unsortable (times entry.2) = false)
    (stored : ∀ candid ∈ alerts.map Prod.fst, candid ∈ cutouts.map Prod.fst) :
    ∃ sent, assembleSorted times results cutouts alerts = .ok sent := by
  induction alerts with
  | nil => exact ⟨[], rfl⟩
  | cons alert rest ih =>
    obtain ⟨candid, packet⟩ := alert
    obtain ⟨sortsHere, sortsLater⟩ := List.forall_mem_cons.mp sortable
    obtain ⟨here, later⟩ := List.forall_mem_cons.mp stored
    obtain ⟨sent, assembled⟩ := ih sortsLater later
    obtain ⟨images, found⟩ := exists_lookup_of_mem_keys here
    refine ⟨⟨candid, resultsOf results candid, packet, images⟩ :: sent, ?_⟩
    rw [assembleSorted, if_neg (by simp [sortsHere]), found, assembled]
    rfl

theorem of_assembleSorted {alerts : List (Int × P)} {sent : List (Alert P C)}
    (assembled : assembleSorted times results cutouts alerts = .ok sent) :
    sent.map Alert.candid = alerts.map Prod.fst ∧ (∀ alert ∈ sent, alert.filters = resultsOf results alert.candid) ∧
      (∀ entry ∈ alerts, unsortable (times entry.2) = false) ∧
      ∀ candid ∈ alerts.map Prod.fst, candid ∈ cutouts.map Prod.fst := by
  induction alerts generalizing sent with
  | nil =>
    obtain rfl := Except.ok.inj assembled
    simp
  | cons alert rest ih =>
    obtain ⟨candid, packet⟩ := alert
    rw [assembleSorted] at assembled
    split at assembled
    next => cases assembled
    next sorts =>
      cases found : cutouts.lookup candid with
      | none =>
        rw [found] at assembled
        cases assembled
      | some images =>
        rw [found] at assembled
        cases others : assembleSorted times results cutouts rest with
        | error failure =>
          rw [others] at assembled
          cases assembled
        | ok more =>
          rw [others] at assembled
          obtain rfl := Except.ok.inj assembled
          obtain ⟨candids, filters, sortable, stored⟩ := ih others
          refine ⟨by rw [List.map_cons, List.map_cons, candids], ?_, ?_, ?_⟩
          · exact List.forall_mem_cons.mpr ⟨rfl, filters⟩
          · exact List.forall_mem_cons.mpr ⟨by simpa using sorts, sortable⟩
          · exact List.forall_mem_cons.mpr ⟨mem_keys_of_lookup found, stored⟩

end Assembled

/-! ## What a batch comes to -/

def Complete (stores : Collections A X P C) (results : List (Int × FilterResults)) (sent : List (Alert P C)) : Prop :=
  (sent.map Alert.candid).Nodup ∧
    (∀ candid, candid ∈ sent.map Alert.candid ↔
      candid ∈ results.map Prod.fst ∧ (stores.alerts candid).isSome ∧ ∃ images, stores.cutouts candid = .ok (some images)) ∧
    ∀ alert ∈ sent, alert.filters = resultsOf results alert.candid

def FoundBare (world : World E P C) (results : List (Int × FilterResults)) : Prop :=
  ∃ candid ∈ results.map Prod.fst, IsFound world candid ∧ LacksCutouts world candid

structure Unobstructed (times : P → List F64) (world : World E P C) (results : List (Int × FilterResults)) : Prop where
  found : ∀ candid ∈ results.map Prod.fst, HasCutouts world candid → IsFound world candid
  readable : ∀ candid ∈ results.map Prod.fst, world.fetchAlert candid ≠ .unreadable
  available : ∀ candid ∈ results.map Prod.fst, ∀ error, world.cutouts candid ≠ .error error
  sortable : ∀ candid ∈ results.map Prod.fst, ∀ packet, world.fetchAlert candid = .found packet →
    unsortable (times packet) = false

section Batch

variable {times : P → List F64} {results : List (Int × FilterResults)}

theorem buildAlerts_of_unobstructed (clear : Unobstructed times world results) (covered : ¬ FoundBare world results) :
    ∃ sent, buildAlerts times world results = .ok sent := by
  have listed {candid : Int} (member : candid ∈ (results.map Prod.fst).dedup) : candid ∈ results.map Prod.fst :=
    List.mem_dedup.mp member
  obtain ⟨alerts, readAlerts⟩ : ∃ alerts, fetchAlerts world (results.map Prod.fst).dedup = some alerts := by
    rw [← Option.ne_none_iff_exists', ne_eq, fetchAlerts_eq_none_iff]
    rintro ⟨candid, member, unread⟩
    exact clear.readable candid (listed member) unread
  obtain ⟨cutouts, readCutouts⟩ : ∃ cutouts, retrieveMultipleCutouts world (results.map Prod.fst).dedup = some cutouts := by
    rw [← Option.ne_none_iff_exists', ne_eq, retrieveMultipleCutouts_eq_none_iff]
    rintro ⟨candid, member, error, failed⟩
    exact clear.available candid (listed member) error failed
  obtain ⟨alertsSublist, isAlert, entries⟩ := of_fetchAlerts readAlerts
  obtain ⟨cutoutsSublist, isCutout⟩ := of_retrieveMultipleCutouts readCutouts
  have same (candid : Int) : candid ∈ alerts.map Prod.fst ↔ candid ∈ cutouts.map Prod.fst := by
    rw [isAlert, isCutout]
    refine and_congr_right fun member => ⟨fun found => ?_, clear.found candid (listed member)⟩
    cases stored : world.cutouts candid with
    | error error => exact absurd stored (clear.available candid (listed member) error)
    | ok images =>
      cases images with
      | none => exact absurd ⟨candid, listed member, found, stored⟩ covered
      | some images => exact ⟨images, stored⟩
  have alertsNodup := alertsSublist.nodup (List.nodup_dedup _)
  have cutoutsNodup := cutoutsSublist.nodup (List.nodup_dedup _)
  have lengths : cutouts.length = alerts.length := by
    have perm := (List.perm_ext_iff_of_nodup cutoutsNodup alertsNodup).mpr fun candid => (same candid).symm
    simpa using perm.length_eq
  obtain ⟨sent, assembled⟩ := @assembleSorted_of P C times results cutouts alerts
    (fun entry member => clear.sortable entry.1
      (listed ((isAlert entry.1).mp (List.mem_map_of_mem member)).1) entry.2 (entries entry member))
    fun candid member => (same candid).mp member
  exact ⟨sent, by simp only [buildAlerts, readAlerts, readCutouts, if_pos lengths, assembled]⟩

theorem of_buildAlerts {sent : List (Alert P C)} (built : buildAlerts times world results = .ok sent) :
    Unobstructed times world results ∧ ¬ FoundBare world results ∧ (sent.map Alert.candid).Nodup ∧
      (∀ candid, candid ∈ sent.map Alert.candid ↔ candid ∈ results.map Prod.fst ∧ IsFound world candid) ∧
      ∀ alert ∈ sent, alert.filters = resultsOf results alert.candid := by
  unfold buildAlerts at built
  simp only at built
  cases readAlerts : fetchAlerts world (results.map Prod.fst).dedup with
  | none =>
    rw [readAlerts] at built
    cases built
  | some alerts =>
    rw [readAlerts] at built
    cases readCutouts : retrieveMultipleCutouts world (results.map Prod.fst).dedup with
    | none =>
      rw [readCutouts] at built
      cases built
    | some cutouts =>
      rw [readCutouts] at built
      simp only at built
      split at built
      next lengths =>
        obtain ⟨candids, filters, sortable, stored⟩ := of_assembleSorted built
        obtain ⟨alertsSublist, isAlert, entries⟩ := of_fetchAlerts readAlerts
        obtain ⟨cutoutsSublist, isCutout⟩ := of_retrieveMultipleCutouts readCutouts
        have alertsNodup := alertsSublist.nodup (List.nodup_dedup _)
        -- all alerts have cutouts and there are as many, so all cutouts are those of alerts
        have perm : (alerts.map Prod.fst).Perm (cutouts.map Prod.fst) :=
          (List.subperm_of_subset alertsNodup stored).perm_of_length_le (by simp [lengths])
        have dedup (candid : Int) : candid ∈ (results.map Prod.fst).dedup ↔ candid ∈ results.map Prod.fst := List.mem_dedup
        have covered {candid : Int} (member : candid ∈ results.map Prod.fst) :
            IsFound world candid ↔ HasCutouts world candid := by
          have same := perm.mem_iff (a := candid)
          rw [isAlert, isCutout, dedup] at same
          exact ⟨fun found => (same.mp ⟨member, found⟩).2, fun held => (same.mpr ⟨member, held⟩).2⟩
        refine ⟨⟨fun candid member => (covered member).mpr, fun candid member unread => ?_,
          fun candid member error failed => ?_, fun candid member packet found => ?_⟩, ?_, ?_, fun candid => ?_, filters⟩
        · rw [fetchAlerts_eq_none_iff.mpr ⟨candid, (dedup candid).mpr member, unread⟩] at readAlerts
          cases readAlerts
        · rw [retrieveMultipleCutouts_eq_none_iff.mpr ⟨candid, (dedup candid).mpr member, error, failed⟩] at readCutouts
          cases readCutouts
        · obtain ⟨entry, listed, rfl⟩ := List.mem_map.mp ((isAlert candid).mpr ⟨(dedup candid).mpr member, packet, found⟩)
          obtain rfl := Fetched.found.inj ((entries entry listed).symm.trans found)
          exact sortable entry listed
        · rintro ⟨candid, member, found, lacks⟩
          obtain ⟨images, held⟩ := (covered member).mp found
          rw [LacksCutouts, held] at lacks
          cases lacks
        · rw [candids]
          exact alertsNodup
        · rw [candids, isAlert, dedup]
      next => cases built

/-- A batch comes to all its alerts, and fails for missing cutouts only, exactly when such
    are missing or nothing else is in the way. -/
theorem buildAlerts_complete_iff (times : P → List F64) (stores : Collections A X P C) (other : World E P C)
    (results : List (Int × FilterResults)) :
    ((∀ sent, buildAlerts times (stores.world other) results = .ok sent → Complete stores results sent) ∧
      ∀ failure, buildAlerts times (stores.world other) results = .error failure → FoundBare (stores.world other) results) ↔
    FoundBare (stores.world other) results ∨ Unobstructed times (stores.world other) results := by
  have stored {candid : Int} (found : IsFound (stores.world other) candid) : (stores.alerts candid).isSome := by
    obtain ⟨packet, fetched⟩ := found
    change stores.fetched candid = _ at fetched
    unfold Collections.fetched at fetched
    cases here : stores.alerts candid with
    | none =>
      rw [here] at fetched
      cases fetched
    | some alert => rfl
  have complete {sent : List (Alert P C)} (built : buildAlerts times (stores.world other) results = .ok sent) :
      Complete stores results sent := by
    obtain ⟨clear, bare, nodup, members, filters⟩ := of_buildAlerts built
    refine ⟨nodup, fun candid => ?_, filters⟩
    rw [members]
    refine and_congr_right fun member => ⟨fun found => ⟨stored found, ?_⟩, fun ⟨_, held⟩ => clear.found candid member held⟩
    cases images : stores.cutouts candid with
    | error error => exact absurd images (clear.available candid member error)
    | ok images_ =>
      cases images_ with
      | none => exact absurd ⟨candid, member, found, images⟩ bare
      | some images_ => exact ⟨images_, rfl⟩
  constructor
  · rintro ⟨-, onlyBare⟩
    cases built : buildAlerts times (stores.world other) results with
    | error failure => exact .inl (onlyBare failure built)
    | ok sent => exact .inr (of_buildAlerts built).1
  · intro condition
    refine ⟨fun sent built => complete built, fun failure failed => ?_⟩
    by_contra covered
    obtain ⟨sent, built⟩ := buildAlerts_of_unobstructed (condition.resolve_left covered) covered
    rw [built] at failed
    cases failed

def exampleStores (alerts aux : Int → Option Unit) : Collections Unit Unit Unit Unit where
  alerts := alerts
  objectId _ := "ZTF18aaaaaaa"
  aux _ := aux 1
  read _ _ := some ()
  cutouts _ := .ok (some ())

/-- Cutouts of an alert that is gone, light curves that are gone, and a time that is `NaN`
    fail batches whose alerts all have their cutouts. -/
theorem buildAlerts_fails_with_cutouts :
    let result : FilterResults := ⟨"1", "all", []⟩
    let gone := exampleStores (fun candid => if candid = 1 then none else some ()) fun _ => some ()
    let unjoined := exampleStores (fun _ => some ()) fun _ => none
    let whole := exampleStores (fun _ => some ()) fun _ => some ()
    ∀ other : World Unit Unit Unit,
      (buildAlerts (fun _ => []) (gone.world other) [(1, result), (2, result)] = .error (.error (.missingCutoutsBatch 0)) ∧
        ¬ FoundBare (gone.world other) [(1, result), (2, result)]) ∧
      (buildAlerts (fun _ => []) (unjoined.world other) [(1, result)] = .error (.error (.missingCutoutsBatch 0)) ∧
        ¬ FoundBare (unjoined.world other) [(1, result)]) ∧
      (buildAlerts (fun _ => [⟨0x7ff8000000000000⟩, F64.one]) (whole.world other) [(1, result)] = .error .panic ∧
        ¬ FoundBare (whole.world other) [(1, result)]) := by
  intro result gone unjoined whole other
  have covered (alerts aux : Int → Option Unit) (results : List (Int × FilterResults)) :
      ¬ FoundBare ((exampleStores alerts aux).world other) results := by
    rintro ⟨candid, -, -, lacks⟩
    cases lacks
  exact ⟨⟨rfl, covered _ _ _⟩, ⟨rfl, covered _ _ _⟩, ⟨rfl, covered _ _ _⟩⟩

end Batch

end Boom.Filter
