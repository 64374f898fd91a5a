import Boom.Utils.Tracks
import Boom.Foundations.Transition

/-! # Every detection has at most one track

A plan takes the detections no other track owns and all those of the tracks it
absorbs, so after every commit the stored tracks are disjoint. -/

namespace Boom.Utils

open Boom.Foundations

/-! ## The order of members -/

instance : Std.OrientedCmp (compare : Survey → Survey → Ordering) where
  eq_swap {first second} := by cases first <;> cases second <;> rfl

instance : Std.TransCmp (compare : Survey → Survey → Ordering) where
  isLE_trans {first second third} := by
    cases first <;> cases second <;> cases third <;> decide

instance : Std.LawfulEqCmp (compare : Survey → Survey → Ordering) where
  eq_of_compare {first second} := by cases first <;> cases second <;> decide

instance : Std.TransCmp compareMember := by
  unfold compareMember
  infer_instance

instance : Std.LawfulEqCmp compareMember where
  eq_of_compare {first second} same := by
    obtain ⟨firstSurvey, firstId⟩ := first
    obtain ⟨secondSurvey, secondId⟩ := second
    simp only [compareMember, compareLex_eq_eq, compareOn, Std.LawfulEqCmp.compare_eq_iff_eq] at same
    rw [same.1, same.2]

/-! ## The map of epochs -/

variable {F : Type}

abbrev EpochMap (F : Type) := Std.TreeMap Member F compareMember

structure Collects (map : EpochMap F) (entries : List (Member × F)) : Prop where
  members : ∀ member, member ∈ map ↔ ∃ epoch, (member, epoch) ∈ entries
  epochs : ∀ member epoch, map[member]? = some epoch → (member, epoch) ∈ entries

variable {member : Member}

namespace Collects

theorem empty : Collects (∅ : EpochMap F) [] where
  members member := by simp
  epochs member epoch held := by simp at held

variable {map : EpochMap F} {entries : List (Member × F)}

theorem insert (collects : Collects map entries) (member : Member) (epoch : F) :
    Collects (map.insert member epoch) (entries ++ [(member, epoch)]) where
  members other := by
    rw [Std.TreeMap.mem_insert, collects.members, Std.LawfulEqCmp.compare_eq_iff_eq]
    constructor
    · rintro (rfl | ⟨held, entry⟩)
      · exact ⟨epoch, by simp⟩
      · exact ⟨held, by simp [entry]⟩
    · rintro ⟨held, entry⟩
      rcases List.mem_append.mp entry with old | new
      · exact .inr ⟨held, old⟩
      · exact .inl (Prod.mk.inj (List.mem_singleton.mp new)).1.symm
  epochs other held view := by
    rw [Std.TreeMap.getElem?_insert] at view
    split at view
    next same =>
      rw [Std.LawfulEqCmp.compare_eq_iff_eq] at same
      simp [← same, Option.some.inj view]
    next => exact List.mem_append_left _ (collects.epochs other held view)

theorem insertIfNew (collects : Collects map entries) (member : Member) (epoch : F) :
    Collects (map.insertIfNew member epoch) (entries ++ [(member, epoch)]) where
  members other := by
    rw [Std.TreeMap.mem_insertIfNew, collects.members, Std.LawfulEqCmp.compare_eq_iff_eq]
    constructor
    · rintro (rfl | ⟨held, entry⟩)
      · exact ⟨epoch, by simp⟩
      · exact ⟨held, by simp [entry]⟩
    · rintro ⟨held, entry⟩
      rcases List.mem_append.mp entry with old | new
      · exact .inr ⟨held, old⟩
      · exact .inl (Prod.mk.inj (List.mem_singleton.mp new)).1.symm
  epochs other held view := by
    rw [Std.TreeMap.getElem?_insertIfNew] at view
    split at view
    next fresh =>
      have same := Std.LawfulEqCmp.compare_eq_iff_eq.mp fresh.1
      simp [← same, Option.some.inj view]
    next => exact List.mem_append_left _ (collects.epochs other held view)

theorem fold {step : EpochMap F → Member × F → EpochMap F}
    (each : ∀ {map entries} entry, Collects map entries → Collects (step map entry) (entries ++ [entry]))
    (collects : Collects map entries)
    (more : List (Member × F)) : Collects (more.foldl step map) (entries ++ more) := by
  induction more generalizing map entries with
  | nil => simpa using collects
  | cons entry rest ih =>
    simpa using ih (each entry collects)

theorem mem_toList (collects : Collects map entries) {epoch : F} (listed : (member, epoch) ∈ map.toList) :
    (member, epoch) ∈ entries :=
  collects.epochs member epoch (Std.TreeMap.mem_toList_iff_getElem?_eq_some.mp listed)

theorem mem_keys (collects : Collects map entries)
    (member : Member) : member ∈ map.toList.map Prod.fst ↔ ∃ epoch, (member, epoch) ∈ entries := by
  rw [← collects.members, Std.TreeMap.map_fst_toList_eq_keys, Std.TreeMap.mem_keys]

end Collects

theorem nodup_members (map : EpochMap F) : (map.toList.map Prod.fst).Nodup := by
  rw [Std.TreeMap.map_fst_toList_eq_keys]
  exact Std.TreeMap.nodup_keys

/-! ## What a plan absorbs -/

structure StoredTrack.Parallel (track : StoredTrack F) : Prop where
  surveys : track.memberSurveys.length = track.members.length
  epochs : track.epochs.length = track.members.length
  distinct : track.memberKeys.Nodup

variable {track : StoredTrack F}

theorem StoredTrack.Parallel.length (parallel : track.Parallel) :
    track.memberKeys.length = track.epochs.length := by
  unfold StoredTrack.memberKeys
  split
  · simp [parallel.epochs]
  · simp [parallel.surveys, parallel.epochs]

theorem mem_zip_of_mem {α β : Type} {keys : List α} {values : List β}
    (parallel : keys.length = values.length) {key : α} (member : key ∈ keys) :
    ∃ value, (key, value) ∈ keys.zip values := by
  induction keys generalizing values with
  | nil => cases member
  | cons first rest ih =>
    cases values with
    | nil => simp at parallel
    | cons value others =>
      rcases List.mem_cons.mp member with rfl | later
      · exact ⟨value, by simp⟩
      · obtain ⟨found, entry⟩ := ih (by simpa using parallel) later
        exact ⟨found, by simp [entry]⟩

theorem legacyMemberId_legacyMember (id : Int64) :
    legacyMemberId (legacyMember id).1 (legacyMember id).2 = id := by
  unfold legacyMember
  split
  · change winterIds + (id - winterIds) = id
    rw [Int64.add_comm, Int64.sub_add_cancel]
  · split
    · change decamIds + (id - decamIds) = id
      rw [Int64.add_comm, Int64.sub_add_cancel]
    · split <;> rfl

variable {key : String}

theorem mem_overlapping {store : TrackStore F} {members : List Member} (stored : store.tracks.get key = some track)
    (held : member ∈ track.memberKeys) (incoming : member ∈ members) :
    track ∈ overlapping store members := by
  obtain ⟨survey, alert⟩ := member
  have raw : ∃ id ∈ track.members,
      id ∈ members.flatMap fun member => [member.2, legacyMemberId member.1 member.2] := by
    unfold StoredTrack.memberKeys at held
    split at held
    · obtain ⟨id, present, unpacked⟩ := List.mem_map.mp held
      refine ⟨id, present, List.mem_flatMap.mpr ⟨_, incoming, ?_⟩⟩
      have packed := legacyMemberId_legacyMember id
      rw [unpacked] at packed
      simp [← packed]
    · exact ⟨alert, (List.of_mem_zip held).2, List.mem_flatMap.mpr ⟨_, incoming, by simp⟩⟩
  obtain ⟨id, present, asked⟩ := raw
  refine List.mem_map.mpr ⟨(key, track), Collection.mem_find.mpr ⟨stored, ?_⟩, rfl⟩
  exact List.any_eq_true.mpr ⟨id, present, List.contains_iff_mem.mpr asked⟩

theorem stored_of_mem_overlapping {store : TrackStore F} {members : List Member}
    (found : track ∈ overlapping store members) :
    ∃ key, store.tracks.get key = some track := by
  obtain ⟨⟨key, held⟩, listed, rfl⟩ := List.mem_map.mp found
  exact ⟨key, (Collection.mem_find.mp listed).1⟩

theorem resolveMerge_mem {ids : List String} {survivor : String} {gone : List String}
    (resolved : resolveMerge ids = some (survivor, gone)) :
    survivor ∈ ids ∧ survivor ∉ gone ∧ ∀ id, id ∈ survivor :: gone ↔ id ∈ ids := by
  unfold resolveMerge at resolved
  obtain ⟨least, isLeast, pair⟩ := Option.map_eq_some_iff.mp resolved
  obtain ⟨rfl, rfl⟩ := Prod.mk.inj pair
  have present : least ∈ ids := List.min?_mem isLeast
  refine ⟨present, by simp, fun id => ?_⟩
  by_cases same : id = least
  · simp [same, present]
  · simp [same]

def absorbedIds (identity : Identity) : List String :=
  (resolveIdentity identity).1.toList ++ (resolveIdentity identity).2

theorem mem_absorbedIds (members : List Member) (existing : List (StoredTrack F)) (id : String) :
    id ∈ absorbedIds (identify members existing) ↔
      ∃ track ∈ existing, track.id = id ∧ sharedForIdentity ≤ track.shared members := by
  have matched : id ∈ (((existing.filter fun track =>
      sharedForIdentity ≤ track.shared members).map (·.id)).mergeSort (· ≤ ·)) ↔
      ∃ track ∈ existing, track.id = id ∧ sharedForIdentity ≤ track.shared members := by
    simp only [List.mem_mergeSort, List.mem_map, List.mem_filter, decide_eq_true_eq]
    constructor
    · rintro ⟨track, ⟨listed, enough⟩, rfl⟩
      exact ⟨track, listed, rfl, enough⟩
    · rintro ⟨track, listed, rfl, enough⟩
      exact ⟨track, ⟨listed, enough⟩, rfl⟩
  rw [← matched]
  unfold identify
  dsimp only
  cases sorted : ((existing.filter fun track =>
      sharedForIdentity ≤ track.shared members).map (·.id)).mergeSort (· ≤ ·) with
  | nil => simp [absorbedIds, resolveIdentity]
  | cons first others =>
    cases others with
    | nil => simp [absorbedIds, resolveIdentity]
    | cons second rest =>
      simp only [absorbedIds, resolveIdentity]
      split
      next survivor gone resolved => simpa using (resolveMerge_mem resolved).2.2 id
      next unresolved => simp [resolveMerge, List.min?_cons] at unresolved

/-! ## What a plan writes -/

structure Owned (store : TrackStore F) : Prop where
  named : ∀ {key track}, store.tracks.get key = some track → track.id = key
  parallel : ∀ {key track}, store.tracks.get key = some track → track.Parallel
  disjoint : ∀ {first second one other}, store.tracks.get first = some one →
    store.tracks.get second = some other → first ≠ second →
    ∀ member ∈ one.memberKeys, member ∉ other.memberKeys

def TakenOver (store : TrackStore F) (members : List Member) (track : StoredTrack F) : Prop :=
  ∃ key, store.tracks.get key = some track ∧ sharedForIdentity ≤ track.shared members

def LeftAlone (store : TrackStore F) (members : List Member) (track : StoredTrack F) : Prop :=
  ∃ key, store.tracks.get key = some track ∧ track.shared members < sharedForIdentity

theorem exists_shared {members : List Member} (enough : sharedForIdentity ≤ track.shared members) :
    ∃ member ∈ track.memberKeys, member ∈ members := by
  have positive : 0 < (track.memberKeys.filter fun member => members.contains member).length :=
    Nat.lt_of_lt_of_le (by decide) enough
  obtain ⟨member, listed⟩ := List.exists_mem_of_length_pos positive
  obtain ⟨held, shared⟩ := List.mem_filter.mp listed
  exact ⟨member, held, List.contains_iff_mem.mp shared⟩

section Plan

variable {store : TrackStore F} {members : List Member}

abbrev takeover (store : TrackStore F) (members : List Member) : List String :=
  absorbedIds (identify members (overlapping store members))

theorem takeover_iff (owned : Owned store) (track : StoredTrack F) :
    (track ∈ overlapping store members ∧ track.id ∈ takeover store members) ↔
      TakenOver store members track := by
  constructor
  · rintro ⟨found, absorbed⟩
    obtain ⟨key, stored⟩ := stored_of_mem_overlapping found
    obtain ⟨other, listed, sameId, enough⟩ := (mem_absorbedIds members _ track.id).mp absorbed
    obtain ⟨place, kept⟩ := stored_of_mem_overlapping listed
    -- Both are stored under the id they carry, so they are one track.
    have samePlace : place = key := by rw [← owned.named kept, ← owned.named stored, sameId]
    obtain rfl : other = track := by
      rw [samePlace, stored] at kept
      exact (Option.some.inj kept).symm
    exact ⟨key, stored, enough⟩
  · rintro ⟨key, stored, enough⟩
    obtain ⟨member, held, shared⟩ := exists_shared enough
    have found := mem_overlapping stored held shared
    exact ⟨found, (mem_absorbedIds members _ track.id).mpr ⟨track, found, rfl, enough⟩⟩

theorem mem_ownedElsewhere (owned : Owned store) (incoming : member ∈ members) :
    member ∈ ownedElsewhere (takeover store members) (overlapping store members) ↔
      ∃ track, LeftAlone store members track ∧ member ∈ track.memberKeys := by
  simp only [ownedElsewhere, List.mem_flatMap, List.mem_filter, Bool.not_eq_true',
    List.contains_eq_mem, decide_eq_false_iff_not]
  constructor
  · rintro ⟨track, ⟨found, spared⟩, held⟩
    obtain ⟨key, stored⟩ := stored_of_mem_overlapping found
    refine ⟨track, ⟨key, stored, Nat.lt_of_not_le fun enough => spared ?_⟩, held⟩
    exact ((takeover_iff owned track).mpr ⟨key, stored, enough⟩).2
  · rintro ⟨track, ⟨key, stored, few⟩, held⟩
    have found := mem_overlapping stored held incoming
    refine ⟨track, ⟨found, fun absorbed => ?_⟩, held⟩
    obtain ⟨other, kept, enough⟩ := (takeover_iff owned track).mp ⟨found, absorbed⟩
    omega

structure Incoming.Valid (incoming : Incoming F) : Prop where
  distinct : incoming.members.Nodup
  parallel : incoming.members.length = incoming.jds.length

def plannedEntries (store : TrackStore F) (incoming : Incoming F) : List (Member × F) :=
  let existing := overlapping store incoming.members
  let absorbed := takeover store incoming.members
  ((incoming.members.zip incoming.jds).filter fun entry =>
      !(ownedElsewhere absorbed existing).contains entry.1) ++
    (existing.filter fun track => absorbed.contains track.id).flatMap fun track =>
      track.memberKeys.zip track.epochs

theorem byCandid_collects (store : TrackStore F) (incoming : Incoming F) :
    Collects (byCandid incoming (takeover store incoming.members) (overlapping store incoming.members))
      (plannedEntries store incoming) := by
  have tracks (existing : List (StoredTrack F)) {map : EpochMap F} {entries : List (Member × F)}
      (collects : Collects map entries) :
      Collects (existing.foldl (fun map track => (track.memberKeys.zip track.epochs).foldl
          (fun map entry => map.insertIfNew entry.1 entry.2) map) map)
        (entries ++ existing.flatMap fun track => track.memberKeys.zip track.epochs) := by
    induction existing generalizing map entries with
    | nil => simpa using collects
    | cons track rest ih =>
      simpa using ih
        (collects.fold (fun entry collected => collected.insertIfNew entry.1 entry.2) _)
  exact tracks _ (Collects.empty.fold (fun entry collected => collected.insert entry.1 entry.2) _)

variable {incoming : Incoming F}

theorem mem_plannedEntries (owned : Owned store) (member : Member) (epoch : F) :
    (member, epoch) ∈ plannedEntries store incoming ↔
      ((member, epoch) ∈ incoming.members.zip incoming.jds ∧
        ¬ ∃ track, LeftAlone store incoming.members track ∧ member ∈ track.memberKeys) ∨
      ∃ track, TakenOver store incoming.members track ∧
        (member, epoch) ∈ track.memberKeys.zip track.epochs := by
  simp only [plannedEntries, List.mem_append, List.mem_filter, List.mem_flatMap,
    Bool.not_eq_true', List.contains_eq_mem, decide_eq_false_iff_not, decide_eq_true_eq]
  refine or_congr (and_congr_right fun entry => ?_) (exists_congr fun track => ?_)
  · rw [mem_ownedElsewhere owned (List.of_mem_zip entry).1]
  · rw [takeover_iff owned]

variable [Floating F]

theorem planUpsert_members (store : TrackStore F) (incoming : Incoming F) : (planUpsert store incoming).members =
      (byCandid incoming (takeover store incoming.members)
        (overlapping store incoming.members)).toList.map Prod.fst := rfl

theorem planUpsert_epochs (store : TrackStore F) (incoming : Incoming F) : (planUpsert store incoming).epochs =
      (byCandid incoming (takeover store incoming.members)
        (overlapping store incoming.members)).toList.map Prod.snd := rfl

theorem mem_planUpsert (owned : Owned store) (valid : incoming.Valid) (member : Member) :
    member ∈ (planUpsert store incoming).members ↔
      (member ∈ incoming.members ∧
        ¬ ∃ track, LeftAlone store incoming.members track ∧ member ∈ track.memberKeys) ∨
      ∃ track, TakenOver store incoming.members track ∧ member ∈ track.memberKeys := by
  rw [planUpsert_members, (byCandid_collects store incoming).mem_keys]
  simp only [mem_plannedEntries owned]
  constructor
  · rintro ⟨epoch, ⟨entry, free⟩ | ⟨track, taken, entry⟩⟩
    · exact .inl ⟨(List.of_mem_zip entry).1, free⟩
    · exact .inr ⟨track, taken, (List.of_mem_zip entry).1⟩
  · rintro (⟨seen, free⟩ | ⟨track, taken, held⟩)
    · obtain ⟨epoch, entry⟩ := mem_zip_of_mem valid.parallel seen
      exact ⟨epoch, .inl ⟨entry, free⟩⟩
    · obtain ⟨key, stored, _⟩ := id taken
      obtain ⟨epoch, entry⟩ := mem_zip_of_mem (owned.parallel stored).length held
      exact ⟨epoch, .inr ⟨track, taken, entry⟩⟩

theorem mem_planUpsert_epochs (owned : Owned store) {epoch : F} (entry : (member, epoch) ∈
      (planUpsert store incoming).members.zip (planUpsert store incoming).epochs) :
    (member, epoch) ∈ incoming.members.zip incoming.jds ∨
      ∃ track, TakenOver store incoming.members track ∧
        (member, epoch) ∈ track.memberKeys.zip track.epochs := by
  rw [planUpsert_members, planUpsert_epochs, ← List.zip_of_prod rfl rfl] at entry
  have planned := (byCandid_collects store incoming).mem_toList entry
  rcases (mem_plannedEntries owned member epoch).mp planned with ⟨seen, _⟩ | taken
  · exact .inl seen
  · exact .inr taken

theorem planUpsert_parallel (store : TrackStore F) (incoming : Incoming F) :
    (planUpsert store incoming).members.Nodup ∧
      (planUpsert store incoming).epochs.length = (planUpsert store incoming).members.length := by
  rw [planUpsert_members, planUpsert_epochs]
  exact ⟨nodup_members _, by simp⟩

/-! ## What a commit leaves -/

theorem stored_memberKeys (plan : UpsertPlan F) (id : String) (now : F) :
    (plan.stored id now).memberKeys = plan.members := by
  unfold StoredTrack.memberKeys UpsertPlan.stored
  dsimp only
  split
  next empty =>
    have none : plan.members = [] := by simpa using empty
    simp [none]
  next => exact (List.zip_of_prod rfl rfl).symm

theorem stored_parallel (store : TrackStore F) (incoming : Incoming F) (id : String) (now : F) :
    ((planUpsert store incoming).stored id now).Parallel where
  surveys := by simp [UpsertPlan.stored]
  epochs := by simpa [UpsertPlan.stored] using (planUpsert_parallel store incoming).2
  distinct := by
    rw [stored_memberKeys]
    exact (planUpsert_parallel store incoming).1

def UpsertPlan.target (plan : UpsertPlan F) (store : TrackStore F) : String :=
  plan.id.getD (formatId (store.sequence + 1))

theorem commitUpsert_id (store : TrackStore F) (now : F) (plan : UpsertPlan F) :
    (commitUpsert store now plan).1.track.id = plan.target store := by
  unfold commitUpsert UpsertPlan.target
  cases plan.id <;> dsimp only <;> split <;> rfl

theorem commitUpsert_tracks (store : TrackStore F) (now : F) (plan : UpsertPlan F) :
    (commitUpsert store now plan).2.tracks =
      if plan.unchangedSince.isSome then store.tracks
      else (store.tracks.replaceOne (plan.target store) (plan.stored (plan.target store) now)).deleteMany
        fun key _ => plan.superseded.contains key := by
  unfold commitUpsert UpsertPlan.target
  cases plan.id <;> dsimp only <;> split <;> rfl

theorem mem_takeover_iff (store : TrackStore F) (incoming : Incoming F) (key : String) :
    key ∈ takeover store incoming.members ↔
      (planUpsert store incoming).id = some key ∨ key ∈ (planUpsert store incoming).superseded := by
  have ids : takeover store incoming.members =
      (planUpsert store incoming).id.toList ++ (planUpsert store incoming).superseded := rfl
  rw [ids, List.mem_append, Option.mem_toList]

theorem target_not_superseded (store : TrackStore F) (incoming : Incoming F) :
    (planUpsert store incoming).target store ∉ (planUpsert store incoming).superseded := by
  have resolved : ((planUpsert store incoming).id, (planUpsert store incoming).superseded) =
      resolveIdentity (identify incoming.members (overlapping store incoming.members)) := rfl
  unfold UpsertPlan.target
  unfold resolveIdentity at resolved
  split at resolved
  · rw [(Prod.mk.inj resolved).2]
    simp
  · rw [(Prod.mk.inj resolved).2]
    simp
  · split at resolved
    next survivor gone merged =>
      rw [(Prod.mk.inj resolved).1, (Prod.mk.inj resolved).2]
      exact (resolveMerge_mem merged).2.1
    next =>
      rw [(Prod.mk.inj resolved).2]
      simp

theorem planUpsert_found (store : TrackStore F) (incoming : Incoming F)
    (unchanged : (planUpsert store incoming).unchangedSince.isSome) :
    ∃ track ∈ overlapping store incoming.members, (planUpsert store incoming).id = some track.id ∧
      (planUpsert store incoming).superseded = [] ∧
      track.memberKeys = (planUpsert store incoming).members ∧
      track.designation = (planUpsert store incoming).designation ∧
      track.nearPlanet = (planUpsert store incoming).nearPlanet ∧
      track.boundFit = (planUpsert store incoming).boundFit ∧
      track.kind = (planUpsert store incoming).kind := by
  have kind : (planUpsert store incoming).kind =
      carried ((planUpsert store incoming).id.toList ++ (planUpsert store incoming).superseded)
        (overlapping store incoming.members) (·.kind) := rfl
  rw [kind]
  unfold planUpsert at unchanged
  dsimp only at unchanged
  split at unchanged
  next id identified alone =>
    rw [Option.isSome_map] at unchanged
    obtain ⟨track, kept⟩ := Option.isSome_iff_exists.mp unchanged
    obtain ⟨found, same⟩ := Option.filter_eq_some_iff.mp kept
    simp only [Bool.and_eq_true, beq_iff_eq] at same
    have sameId : track.id = id := by simpa using List.find?_some found
    have identified : (planUpsert store incoming).id = some track.id := identified.trans (by rw [sameId])
    have alone : (planUpsert store incoming).superseded = [] := alone
    refine ⟨track, List.mem_of_find?_eq_some found, identified, alone, same.1.1.1.1.1.1.1, same.1.1.1.1.1.2,
      same.1.1.1.1.2, same.1.1.1.2, ?_⟩
    rw [identified, alone, sameId]
    simp [carried, found]
  next => cases unchanged

theorem planUpsert_unchanged (store : TrackStore F) (incoming : Incoming F)
    (unchanged : (planUpsert store incoming).unchangedSince.isSome) :
    ∃ track ∈ overlapping store incoming.members, (planUpsert store incoming).id = some track.id ∧
      (planUpsert store incoming).superseded = [] ∧
      track.memberKeys = (planUpsert store incoming).members := by
  obtain ⟨track, found, identified, alone, same, _⟩ := planUpsert_found store incoming unchanged
  exact ⟨track, found, identified, alone, same⟩

theorem unchanged_spec (owned : Owned store) (unchanged : (planUpsert store incoming).unchangedSince.isSome) :
    ∃ track, store.tracks.get ((planUpsert store incoming).target store) = some track ∧
      TakenOver store incoming.members track ∧
      track.memberKeys = (planUpsert store incoming).members := by
  obtain ⟨track, found, identified, _, same⟩ := planUpsert_unchanged store incoming unchanged
  obtain ⟨key, stored⟩ := stored_of_mem_overlapping found
  have absorbed := (mem_takeover_iff store incoming track.id).mpr (.inl identified)
  refine ⟨track, ?_, (takeover_iff owned track).mp ⟨found, absorbed⟩, same⟩
  rw [UpsertPlan.target, identified, Option.getD_some, owned.named stored, stored]

theorem not_takenOver (owned : Owned store) (other : key ≠ (planUpsert store incoming).target store)
    (spared : key ∉ (planUpsert store incoming).superseded)
    (stored : store.tracks.get key = some track) : ¬ TakenOver store incoming.members track := by
  intro taken
  have absorbed := ((takeover_iff owned track).mpr taken).2
  rw [owned.named stored, mem_takeover_iff] at absorbed
  rcases absorbed with kept | gone
  · exact other (by rw [UpsertPlan.target, kept, Option.getD_some])
  · exact spared gone

structure Written (store : TrackStore F) (incoming : Incoming F) (track : StoredTrack F) : Prop where
  named : track.id = (planUpsert store incoming).target store
  parallel : track.Parallel
  members : track.memberKeys = (planUpsert store incoming).members
  epochs : ∀ member epoch, (member, epoch) ∈ track.memberKeys.zip track.epochs →
    (member, epoch) ∈ incoming.members.zip incoming.jds ∨
    ∃ taken, TakenOver store incoming.members taken ∧
      (member, epoch) ∈ taken.memberKeys.zip taken.epochs

section

variable (owned : Owned store)
include owned

theorem commit_written (incoming : Incoming F) (now : F) :
    ∃ track, (commitUpsert store now (planUpsert store incoming)).2.tracks.get
      ((planUpsert store incoming).target store) = some track ∧ Written store incoming track := by
  rw [commitUpsert_tracks]
  split
  next unchanged =>
    obtain ⟨track, stored, taken, same⟩ := unchanged_spec owned unchanged
    refine ⟨track, stored, owned.named stored, owned.parallel stored, same, fun member epoch entry => ?_⟩
    exact .inr ⟨track, taken, entry⟩
  next =>
    refine ⟨_, ?_, rfl, stored_parallel store incoming _ now, stored_memberKeys _ _ _, ?_⟩
    · rw [Collection.get_deleteMany, Collection.get_replaceOne, if_pos rfl, Option.filter_eq_some_iff]
      exact ⟨rfl, by simp [target_not_superseded store incoming]⟩
    · intro member epoch entry
      rw [stored_memberKeys] at entry
      exact mem_planUpsert_epochs owned entry

theorem commit_others (incoming : Incoming F) (now : F) (other : key ≠ (planUpsert store incoming).target store)
    (left : (commitUpsert store now (planUpsert store incoming)).2.tracks.get key = some track) :
    store.tracks.get key = some track ∧ ¬ TakenOver store incoming.members track := by
  rw [commitUpsert_tracks] at left
  split at left
  next unchanged =>
    obtain ⟨_, _, _, alone, _⟩ := planUpsert_unchanged store incoming unchanged
    exact ⟨left, not_takenOver owned other (by simp [alone]) left⟩
  next =>
    rw [Collection.get_deleteMany, Collection.get_replaceOne, if_neg other,
      Option.filter_eq_some_iff] at left
    have spared : key ∉ (planUpsert store incoming).superseded := by simpa using left.2
    exact ⟨left.1, not_takenOver owned other spared left.1⟩

theorem planned_apart (valid : incoming.Valid) (stored : store.tracks.get key = some track)
    (spared : ¬ TakenOver store incoming.members track)
    (held : member ∈ (planUpsert store incoming).members) : member ∉ track.memberKeys := by
  intro shared
  rw [mem_planUpsert owned valid] at held
  rcases held with ⟨seen, free⟩ | ⟨taken, ⟨place, kept, enough⟩, inside⟩
  · -- An incoming member: `track` holds it, so it was left to `track`.
    refine free ⟨track, ⟨key, stored, Nat.lt_of_not_le fun enough => ?_⟩, shared⟩
    exact spared ⟨key, stored, enough⟩
  · -- A member of a track taken over: `track` is another one, and they were disjoint.
    have apart : place ≠ key := by
      rintro rfl
      rw [kept, Option.some.injEq] at stored
      exact spared (stored ▸ ⟨place, kept, enough⟩)
    exact owned.disjoint kept stored apart member inside shared

theorem written_apart (valid : incoming.Valid) {written : StoredTrack F} (holds : Written store incoming written)
    (stored : store.tracks.get key = some track) (spared : ¬ TakenOver store incoming.members track)
    (held : member ∈ written.memberKeys) : member ∉ track.memberKeys := by
  rw [holds.members] at held
  exact planned_apart owned valid stored spared held

theorem commit_owned (valid : incoming.Valid) (now : F) :
    Owned (commitUpsert store now (planUpsert store incoming)).2 := by
  obtain ⟨written, place, holds⟩ := commit_written owned incoming now
  have cases_ {key : String} {track : StoredTrack F}
      (left : (commitUpsert store now (planUpsert store incoming)).2.tracks.get key = some track) :
      (key = (planUpsert store incoming).target store ∧ track = written) ∨
        (key ≠ (planUpsert store incoming).target store ∧ store.tracks.get key = some track ∧
          ¬ TakenOver store incoming.members track) := by
    by_cases same : key = (planUpsert store incoming).target store
    · subst same
      rw [place] at left
      exact .inl ⟨rfl, (Option.some.inj left).symm⟩
    · exact .inr ⟨same, commit_others owned incoming now same left⟩
  refine ⟨fun left => ?_, fun left => ?_, fun firstLeft secondLeft apart member held shared => ?_⟩
  · rcases cases_ left with ⟨rfl, rfl⟩ | ⟨_, stored, _⟩
    · exact holds.named
    · exact owned.named stored
  · rcases cases_ left with ⟨_, rfl⟩ | ⟨_, stored, _⟩
    · exact holds.parallel
    · exact owned.parallel stored
  · rcases cases_ firstLeft with ⟨rfl, rfl⟩ | ⟨_, firstStored, firstSpared⟩ <;>
      rcases cases_ secondLeft with ⟨rfl, rfl⟩ | ⟨_, secondStored, secondSpared⟩
    · exact apart rfl
    · exact written_apart owned valid holds secondStored secondSpared held shared
    · exact written_apart owned valid holds firstStored firstSpared shared held
    · exact owned.disjoint firstStored secondStored apart member held shared

end

end Plan

/-! ## Runs of upserts -/

section Runs

variable [Floating F]

def UpsertStep (before after : TrackStore F) : Prop :=
  ∃ (incoming : Incoming F) (now : F), incoming.Valid ∧
    after = (commitUpsert before now (planUpsert before incoming)).2

abbrev Upserts (store : TrackStore F) : Prop :=
  Reachable (fun start => start = TrackStore.empty F) UpsertStep store

omit [Floating F] in
theorem owned_empty : Owned (TrackStore.empty F) :=
  ⟨fun stored => by simp [TrackStore.empty] at stored,
    fun stored => by simp [TrackStore.empty] at stored,
    fun stored => by simp [TrackStore.empty] at stored⟩

theorem upserts_owned {store : TrackStore F} (reached : Upserts store) : Owned store := by
  refine Reachable.invariant Owned ?_ ?_ reached
  · rintro _ rfl
    exact owned_empty
  · rintro before _ _ owned ⟨incoming, now, valid, rfl⟩
    exact commit_owned owned valid now

structure CommitLaw (store : TrackStore F) (incoming : Incoming F) (now : F) : Prop where
  disjoint : ∀ first second one other,
    (commitUpsert store now (planUpsert store incoming)).2.tracks.get first = some one →
    (commitUpsert store now (planUpsert store incoming)).2.tracks.get second = some other →
    first ≠ second → ∀ member ∈ one.memberKeys, member ∉ other.memberKeys
  committed : ∃ track,
    (commitUpsert store now (planUpsert store incoming)).2.tracks.get
      (commitUpsert store now (planUpsert store incoming)).1.track.id = some track ∧
    (∀ member, member ∈ track.memberKeys ↔
      (member ∈ incoming.members ∧
        ¬ ∃ other, LeftAlone store incoming.members other ∧ member ∈ other.memberKeys) ∨
      ∃ taken, TakenOver store incoming.members taken ∧ member ∈ taken.memberKeys) ∧
    track.memberKeys.Nodup ∧ track.memberSurveys.length = track.members.length ∧
    track.epochs.length = track.members.length ∧
    ∀ member epoch, (member, epoch) ∈ track.memberKeys.zip track.epochs →
      (member, epoch) ∈ incoming.members.zip incoming.jds ∨
      ∃ taken, TakenOver store incoming.members taken ∧
        (member, epoch) ∈ taken.memberKeys.zip taken.epochs

/-- In every sequence of upserts each commit keeps to the law. -/
theorem one_track_per_detection {store : TrackStore F} (reached : Upserts store)
    {incoming : Incoming F} (valid : incoming.Valid) (now : F) : CommitLaw store incoming now := by
  have owned := upserts_owned reached
  obtain ⟨track, place, holds⟩ := commit_written owned incoming now
  refine ⟨fun _ _ _ _ => (commit_owned owned valid now).disjoint, track, ?_, fun member => ?_,
    holds.parallel.distinct, holds.parallel.surveys, holds.parallel.epochs, holds.epochs⟩
  · exact commitUpsert_id store now (planUpsert store incoming) ▸ place
  · rw [holds.members, mem_planUpsert owned valid]

end Runs

/-! ## A track, stored and extended -/

def bareIncoming (members : List Member) (jds : List F) : Incoming F where
  members := members
  jds := jds
  designation := none
  nearPlanet := none
  boundFit := none
  orbit := none

def firstNight : Incoming Float :=
  bareIncoming [(.ztf, 3), (.ztf, 1), (.ztf, 2)] [2460003.5, 2460001.5, 2460002.5]

def nextNight : Incoming Float :=
  bareIncoming [(.ztf, 2), (.decam, 4), (.ztf, 3)] [2460002.5, 2460004.5, 2460003.5]

def firstStored : TrackStore Float :=
  (commitUpsert (TrackStore.empty Float) 0.0 (planUpsert (TrackStore.empty Float) firstNight)).2

theorem firstStored_reached : Upserts firstStored :=
  .next (.start rfl) ⟨firstNight, 0.0, ⟨by decide, rfl⟩, rfl⟩

theorem one_track_per_detection_extended :
    (planUpsert firstStored nextNight).id = some "BT000001" ∧
      (planUpsert firstStored nextNight).members =
        [(.ztf, 1), (.ztf, 2), (.ztf, 3), (.decam, 4)] ∧
      CommitLaw firstStored nextNight 1.0 :=
  ⟨by decide +kernel, by decide +kernel,
    one_track_per_detection firstStored_reached ⟨by decide, rfl⟩ 1.0⟩

end Boom.Utils
