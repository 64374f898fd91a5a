import Boom.Utils.Discovery
import Boom.Utils.TrackOwners
import Mathlib.Data.List.GetD

/-! # Alerts carry the stamp of their track

Stamps are written when a track is changed, written where they are missing when it is
found again, and cleared from detections that are dropped, each by operations of its own. -/

namespace Boom.Utils

open Boom.Foundations

variable {F : Type}

/-! ## Minted ids are distinct -/

def mintable : Nat := 6200000 + Nat.pow 62 5

theorem digit_inj {first second : Nat} (bound : first < 62) (bound' : second < 62)
    (same : base62.getD first '0' = base62.getD second '0') : first = second := by
  have distinct : base62.Nodup := by
    unfold base62
    rw [String.toList_ofList]
    decide +kernel
  have length : base62.length = 62 := by decide +kernel
  rw [List.getD_eq_getElem _ _ (length ▸ bound), List.getD_eq_getElem _ _ (length ▸ bound')] at same
  exact (distinct.getElem_inj_iff).mp same

theorem digits_inj {base : Nat} (positive : 0 < base) (few : base ≤ 62) {width first second : Nat}
    (bound : first < Nat.pow base width) (bound' : second < Nat.pow base width)
    (same : digits base width first = digits base width second) : first = second := by
  induction width generalizing first second with
  | zero =>
    have one : Nat.pow base 0 = 1 := rfl
    omega
  | succ width ih =>
    have digit (number : Nat) : number % base < 62 := Nat.lt_of_lt_of_le (Nat.mod_lt _ positive) few
    have pow : Nat.pow base (width + 1) = Nat.pow base width * base := rfl
    obtain ⟨front, last⟩ := List.append_inj' same rfl
    have quotient : first / base = second / base :=
      ih (Nat.div_lt_of_lt_mul (by rw [Nat.mul_comm, ← pow]; exact bound))
        (Nat.div_lt_of_lt_mul (by rw [Nat.mul_comm, ← pow]; exact bound')) front
    have remainder : first % base = second % base := digit_inj (digit _) (digit _) (List.cons.inj last).1
    rw [← Nat.div_add_mod first base, ← Nat.div_add_mod second base, quotient, remainder]

theorem lead_ne_tilde {number : Nat} (bound : number < 62) : base62.getD number '0' ≠ '~' := by
  intro same
  have absent : '~' ∉ base62 := by decide +kernel
  have length : base62.length = 62 := by decide +kernel
  rw [List.getD_eq_getElem _ _ (length ▸ bound)] at same
  exact absent (same ▸ List.getElem_mem _)

theorem formatId_small {number : Nat} (small : number < 6200000) :
    formatId number = String.ofList
      ('B' :: 'T' :: base62.getD (number / 100000) '0' :: digits 10 5 (number % 100000)) := by
  rw [formatId, if_pos small]
  rfl

theorem formatId_large {number : Nat} (large : ¬ number < 6200000) :
    formatId number = String.ofList ('B' :: 'T' :: '~' :: digits 62 5 (number - 6200000)) := by
  rw [formatId, if_neg large]
  rfl

theorem formatId_inj {first second : Nat} (bound : first < mintable) (bound' : second < mintable)
    (same : formatId first = formatId second) : first = second := by
  have power : Nat.pow 62 5 = 916132832 := rfl
  have power' : Nat.pow 10 5 = 100000 := rfl
  unfold mintable at bound bound'
  by_cases small : first < 6200000 <;> by_cases small' : second < 6200000
  · rw [formatId_small small, formatId_small small'] at same
    have chars := List.cons.inj (List.cons.inj (List.cons.inj (String.ofList_injective same)).2).2
    have lead := digit_inj (by omega) (by omega) chars.1
    have tail := digits_inj (by decide) (by decide) (by omega) (by omega) chars.2
    omega
  · rw [formatId_small small, formatId_large small'] at same
    have chars := List.cons.inj (List.cons.inj (List.cons.inj (String.ofList_injective same)).2).2
    exact absurd chars.1 (lead_ne_tilde (by omega))
  · rw [formatId_large small, formatId_small small'] at same
    have chars := List.cons.inj (List.cons.inj (List.cons.inj (String.ofList_injective same)).2).2
    exact absurd chars.1.symm (lead_ne_tilde (by omega))
  · rw [formatId_large small, formatId_large small'] at same
    have chars := List.cons.inj (List.cons.inj (List.cons.inj (String.ofList_injective same)).2).2
    have tail := digits_inj (by decide) (by decide) (by omega) (by omega) chars.2
    omega

/-! ## What holds between operations -/

def StoredTrack.summary (track : StoredTrack F) : Summary F where
  nDetections := track.nDetections
  nNights := track.nNights
  arcDays := track.arcDays
  firstJd := track.firstJd
  lastJd := track.lastJd

def Minted (store : TrackStore F) (id : String) : Prop :=
  ∃ number ≤ store.sequence, id = formatId number

variable {state : Persisting F}

section Store

variable [Floating F]

structure StoredTrack.Timed (jd : Member → F) (track : StoredTrack F) : Prop where
  epochs : track.epochs = track.memberKeys.map jd
  summary : track.summary = summarise track.memberKeys track.epochs

structure Stamping.Sound (jd : Member → F) (stamping : Stamping F) : Prop where
  owned : Owned stamping.store
  timed : ∀ {key track}, stamping.store.tracks.get key = some track → track.Timed jd
  bounded : stamping.store.sequence < mintable
  minted : ∀ {key track}, stamping.store.tracks.get key = some track → Minted stamping.store key
  stampMinted : ∀ {member stamp}, stamping.store.stamps member = some stamp → Minted stamping.store stamp.id
  carried : ∀ {member stamp track}, stamping.store.stamps member = some stamp →
    stamping.store.tracks.get stamp.id = some track → member ∈ track.memberKeys
  current : ∀ {member stamp track}, stamping.store.stamps member = some stamp →
    stamping.store.tracks.get stamp.id = some track → stamp.id ∉ stamping.behind → stamp = track.alertTrack

/-! ### Plans of a pass -/

structure Narrows (jd : Member → F) (plan planned : UpsertPlan F) : Prop where
  id : plan.id = planned.id
  superseded : plan.superseded = planned.superseded
  distinct : plan.members.Nodup
  members : ∀ member ∈ plan.members, member ∈ planned.members
  dropped : ∀ member ∈ planned.members, member ∈ plan.members ∨ member ∈ plan.dropped
  epochs : plan.epochs = plan.members.map jd
  summary : plan.summary = summarise plan.members plan.epochs
  unchanged : plan.unchangedSince.isSome = true → plan = planned

variable {jd : Member → F}

omit [Floating F] in
theorem eq_map_of_zip {members : List Member} {epochs : List F} (parallel : epochs.length = members.length)
    (timed : ∀ member epoch, (member, epoch) ∈ members.zip epochs → epoch = jd member) :
    epochs = members.map jd := by
  induction members generalizing epochs with
  | nil => simpa using parallel
  | cons member rest ih =>
    cases epochs with
    | nil => simp at parallel
    | cons epoch others =>
      rw [List.map_cons, timed member epoch (by simp), ih (by simpa using parallel)
        fun member epoch listed => timed member epoch (List.mem_cons_of_mem _ listed)]

omit [Floating F] in
theorem of_mem_zip_map {members : List Member} {member : Member} {epoch : F}
    (listed : (member, epoch) ∈ members.zip (members.map jd)) : epoch = jd member := by
  induction members with
  | nil => cases listed
  | cons first rest ih =>
    rcases List.mem_cons.mp listed with here | later
    · obtain ⟨rfl, rfl⟩ := Prod.mk.inj here
      rfl
    · exact ih later

variable {stamping : Stamping F} {incoming : Incoming F}

theorem planUpsert_timed (sound : stamping.Sound jd) (timed : incoming.jds = incoming.members.map jd) :
    (planUpsert stamping.store incoming).epochs = (planUpsert stamping.store incoming).members.map jd := by
  refine eq_map_of_zip (planUpsert_parallel stamping.store incoming).2 fun member epoch entry => ?_
  rcases mem_planUpsert_epochs sound.owned entry with seen | ⟨track, ⟨key, stored, _⟩, held⟩
  · rw [timed] at seen
    exact of_mem_zip_map seen
  · rw [(sound.timed stored).epochs] at held
    exact of_mem_zip_map held

theorem narrows_planUpsert (sound : stamping.Sound jd) (timed : incoming.jds = incoming.members.map jd) :
    Narrows jd (planUpsert stamping.store incoming) (planUpsert stamping.store incoming) where
  id := rfl
  superseded := rfl
  distinct := (planUpsert_parallel stamping.store incoming).1
  members _ listed := listed
  dropped _ listed := .inl listed
  epochs := planUpsert_timed sound timed
  summary := rfl
  unchanged _ := rfl

variable {plan planned : UpsertPlan F}

theorem Narrows.withKind (narrows : Narrows jd plan planned) (kind : String) :
    Narrows jd (plan.withKind kind) planned := by
  unfold UpsertPlan.withKind
  split
  · exact narrows
  · exact ⟨narrows.id, narrows.superseded, narrows.distinct, narrows.members, narrows.dropped, narrows.epochs,
      narrows.summary, fun changed => by cases changed⟩

theorem Narrows.keepReproduced (narrows : Narrows jd plan planned)
    (whole : plan.dropped = []) (check : Option (Reproduced F)) :
    Narrows jd (plan.keepReproduced check) planned := by
  unfold UpsertPlan.keepReproduced
  split
  next fit _ _ =>
    split
    · exact narrows
    · have parallel : plan.members.length = plan.epochs.length := by rw [narrows.epochs, List.length_map]
      have firsts : (plan.members.zip plan.epochs).map Prod.fst = plan.members :=
        List.map_fst_zip (Nat.le_of_eq parallel)
      have times (entries : List (Member × F)) (among : ∀ entry ∈ entries, entry ∈ plan.members.zip plan.epochs) :
          entries.map Prod.snd = (entries.map Prod.fst).map jd := by
        rw [List.map_map]
        refine List.map_congr_left fun entry listed => ?_
        have held := among entry listed
        rw [narrows.epochs] at held
        exact of_mem_zip_map held
      refine ⟨narrows.id, narrows.superseded, ?_, fun member listed => ?_, fun member listed => ?_, ?_, rfl,
        fun changed => by cases changed⟩
      · have distinct := narrows.distinct
        rw [← firsts] at distinct
        exact distinct.sublist (List.filter_sublist.map _)
      · obtain ⟨entry, kept, rfl⟩ := List.mem_map.mp listed
        exact narrows.members _ (List.of_mem_zip (List.mem_filter.mp kept).1).1
      · have held : member ∈ plan.members := (narrows.dropped member listed).resolve_right (by simp [whole])
        obtain ⟨epoch, entry⟩ := mem_zip_of_mem parallel held
        cases kept : fit.keep member with
        | true => exact .inl (List.mem_map.mpr ⟨_, List.mem_filter.mpr ⟨entry, kept⟩, rfl⟩)
        | false => exact .inr (List.mem_map.mpr ⟨_, List.mem_filter.mpr ⟨entry, by simp [kept]⟩, rfl⟩)
      · exact times _ fun entry listed => (List.mem_filter.mp listed).1
  next => exact narrows

theorem persistPlan_narrows (sound : stamping.Sound jd)
    (timed : incoming.jds = incoming.members.map jd) (kind : Option String) (check : Option (Reproduced F)) :
    Narrows jd (persistPlan stamping.store incoming kind check) (planUpsert stamping.store incoming) := by
  have narrows := narrows_planUpsert sound timed
  unfold persistPlan
  cases kind with
  | none => exact narrows.keepReproduced rfl check
  | some kind =>
    refine (narrows.withKind kind).keepReproduced ?_ check
    unfold UpsertPlan.withKind
    split <;> rfl

/-! ### The id a plan is written under -/

omit [Floating F] in
theorem planned_id_stored {store : TrackStore F} (owned : Owned store) {key : String}
    (takes : key ∈ takeover store incoming.members) :
    ∃ track, store.tracks.get key = some track ∧ TakenOver store incoming.members track := by
  obtain ⟨track, found, sameId, enough⟩ := (mem_absorbedIds incoming.members _ key).mp takes
  obtain ⟨place, stored⟩ := stored_of_mem_overlapping found
  have samePlace : place = key := (owned.named stored).symm.trans sameId
  exact ⟨track, samePlace ▸ stored, place, stored, enough⟩

theorem superseded_of_new (store : TrackStore F) (incoming : Incoming F)
    (isNew : (planUpsert store incoming).id = none) : (planUpsert store incoming).superseded = [] := by
  have resolved : ((planUpsert store incoming).id, (planUpsert store incoming).superseded) =
      resolveIdentity (identify incoming.members (overlapping store incoming.members)) := rfl
  rw [isNew] at resolved
  unfold resolveIdentity at resolved
  split at resolved
  · exact (Prod.mk.inj resolved).2
  · cases (Prod.mk.inj resolved).1
  · split at resolved
    · cases (Prod.mk.inj resolved).1
    · exact (Prod.mk.inj resolved).2

structure Ready (jd : Member → F) (stamping : Stamping F) (incoming : Incoming F) (plan : UpsertPlan F)
    (id : String) : Prop where
  sound : stamping.Sound jd
  valid : incoming.Valid
  narrows : Narrows jd plan (planUpsert stamping.store incoming)
  minted : Minted stamping.store id
  target : plan.id = some id ∨ (plan.id = none ∧ stamping.store.tracks.get id = none ∧
    ∀ member stamp, stamping.store.stamps member = some stamp → stamp.id ≠ id)

variable {track : StoredTrack F}

namespace Ready

variable {stamping : Stamping F} {incoming : Incoming F} {plan : UpsertPlan F} {id : String}

section

variable (ready : Ready jd stamping incoming plan id)
include ready

theorem takes_iff (key : String) :
    key ∈ takeover stamping.store incoming.members ↔ plan.id = some key ∨ key ∈ plan.superseded := by
  rw [mem_takeover_iff, ready.narrows.id, ready.narrows.superseded]

theorem survives : id ∉ plan.superseded := by
  rw [ready.narrows.superseded]
  rcases ready.target with extends_ | ⟨isNew, _⟩
  · have target := target_not_superseded stamping.store incoming
    rwa [UpsertPlan.target, ← ready.narrows.id, extends_, Option.getD_some] at target
  · rw [superseded_of_new _ _ (ready.narrows.id ▸ isNew)]
    simp

theorem spared {key : String}
    (stored : stamping.store.tracks.get key = some track) (other : key ≠ id) (kept : key ∉ plan.superseded) :
    ¬ TakenOver stamping.store incoming.members track := by
  intro taken
  have absorbed := ((takeover_iff ready.sound.owned track).mpr taken).2
  rw [ready.sound.owned.named stored, ready.takes_iff] at absorbed
  refine absorbed.elim (fun same => ?_) kept
  rcases ready.target with extends_ | ⟨isNew, _⟩
  · exact other (Option.some.inj (same.symm.trans extends_))
  · rw [isNew] at same
    cases same

theorem planned_of_old {old : StoredTrack F}
    (stored : stamping.store.tracks.get id = some old) {member : Member} (held : member ∈ old.memberKeys) :
    member ∈ (planUpsert stamping.store incoming).members := by
  rcases ready.target with extends_ | ⟨_, absent, _⟩
  · obtain ⟨track, same, taken⟩ := planned_id_stored ready.sound.owned ((ready.takes_iff id).mpr (.inl extends_))
    obtain rfl : old = track := Option.some.inj (stored.symm.trans same)
    exact (mem_planUpsert ready.sound.owned ready.valid member).mpr (.inr ⟨old, taken, held⟩)
  · rw [absent] at stored
    cases stored

end

end Ready

/-! ## The operations of one candidate -/

def UpsertPlan.clearing (plan : UpsertPlan F) (id : String) : List (TrackWrite F) :=
  ((alertsBySurvey plan.dropped).map fun group => .unstamp group.1 group.2 (id :: plan.superseded)) ++
    if plan.superseded.isEmpty then [] else [.delete plan.superseded]

def UpsertPlan.commitBlock (plan : UpsertPlan F) (id : String) (now : F) : List (TrackWrite F) :=
  .replace id (plan.stored id now) :: plan.clearing id

def UpsertPlan.aliasing (plan : UpsertPlan F) (id : String) : List (TrackWrite F) :=
  if plan.superseded.isEmpty then []
  else .repoint plan.superseded id :: plan.superseded.map fun old => .writeAlias old id

theorem writes_eq_block {plan : UpsertPlan F} (changed : plan.unchangedSince = none) (id : String) (now : F) :
    plan.writes id now = plan.commitBlock id now ++ plan.aliasing id := by
  unfold UpsertPlan.writes UpsertPlan.commitBlock UpsertPlan.clearing UpsertPlan.aliasing
  rw [changed, if_neg (by simp)]
  split <;> simp

theorem applyAll_commitBlock (store : TrackStore F) (plan : UpsertPlan F) (id : String) (now : F) :
    TrackWrite.applyAll (plan.commitBlock id now) store =
      { store with
        tracks := (store.tracks.replaceOne id (plan.stored id now)).deleteMany fun key _ =>
          plan.superseded.contains key
        stamps := fun member =>
          TrackWrite.cleared (plan.dropped.contains member) (id :: plan.superseded) (store.stamps member) } := by
  have dropped (member : Member) : ((alertsBySurvey plan.dropped).any fun group =>
      group.1 == member.1 && group.2.contains member.2) = plan.dropped.contains member := by
    rw [Bool.eq_iff_iff, List.contains_iff_mem, ← mem_alertsBySurvey]
    simp
  unfold UpsertPlan.commitBlock UpsertPlan.clearing
  simp only [TrackWrite.applyAll_cons, TrackWrite.applyAll_append, TrackWrite.applyAll_unstamps,
    TrackWrite.apply, dropped]
  split
  next empty =>
    rw [List.isEmpty_iff.mp empty, deleteMany_none]
    rfl
  next => rfl

theorem applyAll_block (stamping : Stamping F) (plan : UpsertPlan F) (id : String) (now : F) :
    PersistWrite.applyAll ((plan.commitBlock id now).map .commit) stamping =
      { store := TrackWrite.applyAll (plan.commitBlock id now) stamping.store
        behind := (if (stamping.store.tracks.get id).isSome then [id] else []) ++ stamping.behind } := by
  have others (writes : List (TrackWrite F)) (quiet : ∀ key track, .replace key track ∉ writes)
      (stamping : Stamping F) : PersistWrite.applyAll (writes.map .commit) stamping =
        { stamping with store := TrackWrite.applyAll writes stamping.store } := by
    induction writes generalizing stamping with
    | nil => rfl
    | cons write rest ih =>
      have marks : (PersistWrite.commit write).changes stamping.store = [] := by
        cases write with
        | replace key track => exact absurd List.mem_cons_self (quiet key track)
        | unstamp | delete | repoint | writeAlias => rfl
      rw [List.map_cons, PersistWrite.applyAll, List.foldl_cons]
      refine (ih (fun key track listed => quiet key track (List.mem_cons_of_mem _ listed)) _).trans ?_
      rw [PersistWrite.apply, marks]
      rfl
  rw [UpsertPlan.commitBlock, List.map_cons, PersistWrite.applyAll, List.foldl_cons]
  refine (others _ (fun key track listed => ?_) _).trans rfl
  rcases List.mem_append.mp listed with cleared | deleted
  · obtain ⟨_, _, impossible⟩ := List.mem_map.mp cleared
    cases impossible
  · split at deleted <;> simp at deleted

theorem stored_timed (narrows : Narrows jd plan planned) (id : String) (now : F) : (plan.stored id now).Timed jd := by
  refine ⟨?_, ?_⟩
  · rw [stored_memberKeys]
    exact narrows.epochs
  · rw [stored_memberKeys]
    exact narrows.summary

namespace Ready

variable {stamping : Stamping F} {incoming : Incoming F} {plan : UpsertPlan F} {id : String}

section

variable (ready : Ready jd stamping incoming plan id)
include ready

theorem get_block (now : F) (key : String) :
    (TrackWrite.applyAll (plan.commitBlock id now) stamping.store).tracks.get key =
      if key = id then some (plan.stored id now)
      else (stamping.store.tracks.get key).filter fun _ => !plan.superseded.contains key := by
  rw [applyAll_commitBlock]
  simp only [Collection.get_deleteMany, Collection.get_replaceOne]
  by_cases same : key = id
  · simp [same, ready.survives]
  · simp [same]

theorem left_by_block {now : F} {key : String}
    (left : (TrackWrite.applyAll (plan.commitBlock id now) stamping.store).tracks.get key = some track) :
    (key = id ∧ track = plan.stored id now) ∨
      (key ≠ id ∧ key ∉ plan.superseded ∧ stamping.store.tracks.get key = some track ∧
        ¬ TakenOver stamping.store incoming.members track) := by
  rw [ready.get_block] at left
  split at left
  next same => exact .inl ⟨same, (Option.some.inj left).symm⟩
  next other =>
    obtain ⟨stored, kept⟩ := Option.filter_eq_some_iff.mp left
    have kept : key ∉ plan.superseded := by simpa using kept
    exact .inr ⟨other, kept, stored, ready.spared stored other kept⟩

theorem block_owned (now : F) :
    Owned (TrackWrite.applyAll (plan.commitBlock id now) stamping.store) := by
  have owned := ready.sound.owned
  have apart {key : String} {track : StoredTrack F} (stored : stamping.store.tracks.get key = some track)
      (spared : ¬ TakenOver stamping.store incoming.members track) {member : Member}
      (held : member ∈ (plan.stored id now).memberKeys) : member ∉ track.memberKeys := by
    rw [stored_memberKeys] at held
    exact planned_apart owned ready.valid stored spared (ready.narrows.members member held)
  refine ⟨fun left => ?_, fun left => ?_, fun firstLeft secondLeft different member held shared => ?_⟩
  · rcases ready.left_by_block left with ⟨rfl, rfl⟩ | ⟨_, _, stored, _⟩
    · rfl
    · exact owned.named stored
  · rcases ready.left_by_block left with ⟨_, rfl⟩ | ⟨_, _, stored, _⟩
    · refine ⟨by simp [UpsertPlan.stored], ?_, ?_⟩
      · simp [UpsertPlan.stored, ready.narrows.epochs]
      · rw [stored_memberKeys]
        exact ready.narrows.distinct
    · exact owned.parallel stored
  · rcases ready.left_by_block firstLeft with ⟨rfl, rfl⟩ | ⟨_, _, firstStored, firstSpared⟩ <;>
      rcases ready.left_by_block secondLeft with ⟨rfl, rfl⟩ | ⟨_, _, secondStored, secondSpared⟩
    · exact different rfl
    · exact apart secondStored secondSpared held shared
    · exact apart firstStored firstSpared shared held
    · exact owned.disjoint firstStored secondStored different member held shared

theorem carries_written {member : Member} {stamp : AlertTrack F}
    (carries : stamping.store.stamps member = some stamp) (named : stamp.id = id)
    (kept : member ∉ plan.dropped) : member ∈ plan.members ∧ ∃ old, stamping.store.tracks.get id = some old := by
  cases stored : stamping.store.tracks.get id with
  | none =>
    rcases ready.target with extends_ | ⟨_, _, fresh⟩
    · obtain ⟨old, same, _⟩ := planned_id_stored ready.sound.owned ((ready.takes_iff id).mpr (.inl extends_))
      rw [stored] at same
      cases same
    · exact absurd named (fresh member stamp carries)
  | some old =>
    have held := ready.sound.carried carries (named.symm ▸ stored)
    exact ⟨(ready.narrows.dropped member (ready.planned_of_old stored held)).resolve_right kept, old, rfl⟩

theorem commitBlock_sound (now : F) :
    (PersistWrite.applyAll ((plan.commitBlock id now).map .commit) stamping).Sound jd := by
  have sound := ready.sound
  rw [applyAll_block]
  -- A stamp left was there, and its alert was not dropped from the track it names.
  have left {member : Member} {stamp : AlertTrack F}
      (carries : (TrackWrite.applyAll (plan.commitBlock id now) stamping.store).stamps member = some stamp) :
      stamping.store.stamps member = some stamp ∧ (stamp.id = id → member ∉ plan.dropped) := by
    rw [applyAll_commitBlock] at carries
    simp only [TrackWrite.cleared] at carries
    split at carries
    · cases carries
    next notCleared =>
      refine ⟨carries, fun named dropped => notCleared ?_⟩
      simp [carries, named, dropped]
  have sequence : (TrackWrite.applyAll (plan.commitBlock id now) stamping.store).sequence = stamping.store.sequence := by
    rw [applyAll_commitBlock]
  have minted {key : String} (before : Minted stamping.store key) :
      Minted (TrackWrite.applyAll (plan.commitBlock id now) stamping.store) key := by
    rw [Minted, sequence]
    exact before
  refine ⟨ready.block_owned now, fun stored => ?_, sequence ▸ sound.bounded, fun stored => minted ?_,
    fun carries => minted (sound.stampMinted (left carries).1), fun carries stored => ?_, fun carries stored upToDate => ?_⟩
  · rcases ready.left_by_block stored with ⟨_, rfl⟩ | ⟨_, _, before, _⟩
    · exact stored_timed ready.narrows id now
    · exact sound.timed before
  · rcases ready.left_by_block stored with ⟨rfl, _⟩ | ⟨_, _, before, _⟩
    · exact ready.minted
    · exact sound.minted before
  · obtain ⟨before, notDropped⟩ := left carries
    rcases ready.left_by_block stored with ⟨named, rfl⟩ | ⟨_, _, same, _⟩
    · rw [stored_memberKeys]
      exact (ready.carries_written before named (notDropped named)).1
    · exact sound.carried before same
  · obtain ⟨before, notDropped⟩ := left carries
    rcases ready.left_by_block stored with ⟨named, _⟩ | ⟨_, _, same, _⟩
    · obtain ⟨_, old, stored⟩ := ready.carries_written before named (notDropped named)
      refine absurd ?_ upToDate
      simp [named, stored]
    · exact sound.current before same fun behind => upToDate (List.mem_append_right _ behind)

end

end Ready

/-! ### Aliases and stamps -/

omit [Floating F] in
@[simp] theorem applyAll_append (first second : List (PersistWrite F)) (stamping : Stamping F) :
    PersistWrite.applyAll (first ++ second) stamping =
      PersistWrite.applyAll second (PersistWrite.applyAll first stamping) :=
  List.foldl_append

omit [Floating F] in
theorem stamped_stamped (first second missingOnly : Bool) (track : AlertTrack F) (stamp : Option (AlertTrack F)) :
    stamped second track missingOnly (stamped first track missingOnly stamp) =
      stamped (first || second) track missingOnly stamp := by
  cases held : !missingOnly || !stamp.any fun stamp => stamp.id == track.id <;> cases first <;> cases second <;>
    simp [stamped, held]

omit [Floating F] in
theorem applyAll_stampWrites (track : StoredTrack F) (missingOnly : Bool) (stamping : Stamping F) :
    PersistWrite.applyAll (stampWrites track missingOnly) stamping =
      { stamping with
        store := { stamping.store with
          stamps := fun member =>
            stamped (track.memberKeys.contains member) track.alertTrack missingOnly (stamping.store.stamps member) } } := by
  have groups (groups : List (Survey × List Int64)) (stamping : Stamping F) :
      PersistWrite.applyAll (groups.map fun group => .stamp group.1 group.2 track.alertTrack missingOnly) stamping =
        { stamping with
          store := { stamping.store with
            stamps := fun member =>
              stamped (groups.any fun group => group.1 == member.1 && group.2.contains member.2) track.alertTrack
                missingOnly (stamping.store.stamps member) } } := by
    induction groups generalizing stamping with
    | nil => rfl
    | cons group rest ih =>
      rw [List.map_cons, PersistWrite.applyAll, List.foldl_cons]
      refine (ih _).trans ?_
      simp only [PersistWrite.apply, PersistWrite.applyStore, PersistWrite.changes, List.nil_append, stamped_stamped,
        List.any_cons]
  have members (member : Member) : ((alertsBySurvey track.memberKeys).any fun group =>
      group.1 == member.1 && group.2.contains member.2) = track.memberKeys.contains member := by
    rw [Bool.eq_iff_iff, List.contains_iff_mem, ← mem_alertsBySurvey]
    simp
  rw [stampWrites, groups]
  simp only [members]

def Tends (track : StoredTrack F) : PersistWrite F → Prop
  | .commit (.repoint _ _) | .commit (.writeAlias _ _) => True
  | .stamp survey ids stamp _ => stamp = track.alertTrack ∧ ∀ id ∈ ids, (survey, id) ∈ track.memberKeys
  | _ => False

omit [Floating F] in
theorem stampWrites_tend {track stored : StoredTrack F} (members : stored.memberKeys = track.memberKeys)
    (same : stored.alertTrack = track.alertTrack) (missingOnly : Bool) :
    ∀ operation ∈ stampWrites stored missingOnly, Tends track operation := by
  intro operation listed
  obtain ⟨group, isGroup, rfl⟩ := List.mem_map.mp listed
  refine ⟨same, fun id held => ?_⟩
  rw [← members, ← mem_alertsBySurvey]
  exact ⟨group, isGroup, rfl, held⟩

omit [Floating F] in
theorem aliasing_tends (plan : UpsertPlan F) (id : String) (track : StoredTrack F) :
    ∀ operation ∈ (plan.aliasing id).map PersistWrite.commit, Tends track operation := by
  intro operation listed
  obtain ⟨write, isWrite, rfl⟩ := List.mem_map.mp listed
  unfold UpsertPlan.aliasing at isWrite
  split at isWrite
  · cases isWrite
  · rcases List.mem_cons.mp isWrite with rfl | alias_
    · trivial
    · obtain ⟨_, _, rfl⟩ := List.mem_map.mp alias_
      trivial

variable {operation : PersistWrite F}

theorem Tends.sound (sound : stamping.Sound jd) (stored : stamping.store.tracks.get track.id = some track)
    (tends : Tends track operation) :
    (operation.apply stamping).Sound jd ∧ (operation.apply stamping).store.tracks = stamping.store.tracks := by
  have aliased (write : TrackWrite F) (same : (PersistWrite.commit write).apply stamping =
      { stamping with store := { stamping.store with aliases := (write.apply stamping.store).aliases } }) :
      ((PersistWrite.commit write).apply stamping).Sound jd ∧
        ((PersistWrite.commit write).apply stamping).store.tracks = stamping.store.tracks := by
    rw [same]
    exact ⟨⟨⟨sound.owned.named, sound.owned.parallel, sound.owned.disjoint⟩, sound.timed, sound.bounded,
      sound.minted, sound.stampMinted, sound.carried, sound.current⟩, rfl⟩
  match operation, tends with
  | .commit (.repoint superseded id), _ => exact aliased _ rfl
  | .commit (.writeAlias old id), _ => exact aliased _ rfl
  | .stamp survey ids stamp missingOnly, ⟨isStamp, members⟩ =>
    subst isStamp
    -- A stamp after the operation was there, or is the track's on one of its members.
    have after {member : Member} {held : AlertTrack F}
        (carries : ((PersistWrite.stamp survey ids track.alertTrack missingOnly).apply stamping).store.stamps member =
          some held) : stamping.store.stamps member = some held ∨
            (held = track.alertTrack ∧ member ∈ track.memberKeys) := by
      simp only [PersistWrite.apply, PersistWrite.applyStore, stamped] at carries
      split at carries
      next asked =>
        simp only [Bool.and_eq_true, beq_iff_eq, List.contains_iff_mem] at asked
        obtain ⟨⟨rfl, listed⟩, _⟩ := asked
        exact .inr ⟨(Option.some.inj carries).symm, members _ listed⟩
      next => exact .inl carries
    refine ⟨⟨⟨sound.owned.named, sound.owned.parallel, sound.owned.disjoint⟩, sound.timed, sound.bounded,
      sound.minted, fun carries => ?_, fun {member held other} carries present => ?_,
      fun {member held other} carries present upToDate => ?_⟩, rfl⟩
    · rcases after carries with before | ⟨rfl, _⟩
      · exact sound.stampMinted before
      · exact sound.minted stored
    · rcases after carries with before | ⟨rfl, inside⟩
      · exact sound.carried before present
      · have same : track = other := Option.some.inj (stored.symm.trans present)
        exact same ▸ inside
    · rcases after carries with before | ⟨rfl, _⟩
      · exact sound.current before present upToDate
      · have same : track = other := Option.some.inj (stored.symm.trans present)
        rw [same]

theorem tends_sound (sound : stamping.Sound jd)
    (stored : stamping.store.tracks.get track.id = some track) {operations : List (PersistWrite F)}
    (tend : ∀ operation ∈ operations, Tends track operation) : (PersistWrite.applyAll operations stamping).Sound jd ∧
      (PersistWrite.applyAll operations stamping).store.tracks = stamping.store.tracks := by
  induction operations generalizing stamping with
  | nil => exact ⟨sound, rfl⟩
  | cons operation rest ih =>
    obtain ⟨here, later⟩ := List.forall_mem_cons.mp tend
    obtain ⟨first, same⟩ := here.sound sound stored
    obtain ⟨all, same'⟩ := ih first (same ▸ stored) later
    exact ⟨all, same'.trans same⟩

/-! ### A candidate cut off -/

def PersistWrite.isReplace : PersistWrite F → Bool
  | .commit (.replace _ _) => true
  | _ => false

def PersistWrite.clears : PersistWrite F → Bool
  | .commit (.unstamp _ _ _) | .commit (.delete _) => true
  | _ => false

omit [Floating F] in
theorem not_replace_of_clears (clears : operation.clears = true) :
    operation.isReplace = false := by
  unfold PersistWrite.clears at clears
  split at clears
  · rfl
  · rfl
  · cases clears

omit [Floating F] in
theorem clearing_clears (plan : UpsertPlan F) (id : String) :
    ∀ operation ∈ (plan.clearing id).map PersistWrite.commit, operation.clears = true := by
  intro operation listed
  obtain ⟨write, isWrite, rfl⟩ := List.mem_map.mp listed
  rcases List.mem_append.mp isWrite with cleared | deleted
  · obtain ⟨_, _, rfl⟩ := List.mem_map.mp cleared
    rfl
  · split at deleted
    · cases deleted
    · rw [List.mem_singleton.mp deleted]
      rfl

omit [Floating F] in
theorem Tends.not_replace (tends : Tends track operation) :
    operation.isReplace = false := by
  unfold PersistWrite.isReplace
  split
  · cases tends
  · rfl

def torn (pending : List (PersistWrite F)) : Bool :=
  !pending.any PersistWrite.isReplace && pending.any PersistWrite.clears

namespace Ready

variable {stamping : Stamping F} {incoming : Incoming F} {plan : UpsertPlan F} {id : String}

theorem unchanged_stored (ready : Ready jd stamping incoming plan id)
    (unchanged : plan.unchangedSince.isSome = true) (now : F) :
    ∃ track, stamping.store.tracks.get id = some track ∧ track.memberKeys = plan.members ∧
      (plan.stored id now).alertTrack = track.alertTrack := by
  have same := ready.narrows.unchanged unchanged
  obtain ⟨track, found, identified, _, members, designation, nearPlanet, boundFit, kind⟩ :=
    planUpsert_found stamping.store incoming (same ▸ unchanged)
  rw [← same] at identified members designation nearPlanet boundFit kind
  obtain ⟨key, stored⟩ := stored_of_mem_overlapping found
  have named := ready.sound.owned.named stored
  have isId : key = id := by
    rcases ready.target with extends_ | ⟨isNew, _⟩
    · rw [← named]
      exact Option.some.inj (identified.symm.trans extends_)
    · rw [isNew] at identified
      cases identified
  subst isId
  have timed := ready.sound.timed stored
  have summary : track.summary = plan.summary := by
    rw [timed.summary, timed.epochs, members, ready.narrows.summary, ready.narrows.epochs]
  refine ⟨track, stored, members, ?_⟩
  simp only [StoredTrack.summary] at summary
  simp only [StoredTrack.alertTrack, UpsertPlan.stored, named, designation, nearPlanet, boundFit, kind, ← summary]

theorem persistWrites_shape (plan : UpsertPlan F) (id : String) (now : F) :
    (plan.unchangedSince = none ∧ plan.persistWrites id now = (plan.commitBlock id now).map .commit ++
        ((plan.aliasing id).map .commit ++ stampWrites (plan.stored id now) false)) ∨
      (plan.unchangedSince.isSome = true ∧ plan.persistWrites id now = stampWrites (plan.stored id now) true) := by
  unfold UpsertPlan.persistWrites
  cases changed : plan.unchangedSince with
  | none => exact .inl ⟨rfl, by rw [writes_eq_block changed]; simp⟩
  | some since => exact .inr ⟨rfl, by simp [UpsertPlan.writes, changed]⟩

theorem prefix_sound (ready : Ready jd stamping incoming plan id) {now : F} {done rest : List (PersistWrite F)}
    (split_ : plan.persistWrites id now = done ++ rest) (whole : torn rest = false) :
    (PersistWrite.applyAll done stamping).Sound jd := by
  rcases persistWrites_shape plan id now with ⟨_, shape⟩ | ⟨unchanged, shape⟩
  · have tends : ∀ operation ∈ (plan.aliasing id).map PersistWrite.commit ++ stampWrites (plan.stored id now) false,
        Tends (plan.stored id now) operation := by
      intro operation listed
      exact (List.mem_append.mp listed).elim (aliasing_tends plan id _ operation) (stampWrites_tend rfl rfl false operation)
    have block := ready.commitBlock_sound now
    have written : (PersistWrite.applyAll ((plan.commitBlock id now).map .commit) stamping).store.tracks.get
        (plan.stored id now).id = some (plan.stored id now) := by
      rw [applyAll_block, ready.get_block]
      exact if_pos rfl
    rw [shape] at split_
    rcases List.append_eq_append_iff.mp split_ with ⟨more, isDone, rest'⟩ | ⟨more, isBlock, isRest⟩
    · rw [isDone, applyAll_append]
      exact (tends_sound block written fun operation listed =>
        tends operation (rest' ▸ List.mem_append_left _ listed)).1
    · -- Cut off among the operations on tracks: before the first, or the rest is torn.
      cases done with
      | nil => exact ready.sound
      | cons first others =>
        cases more with
        | nil =>
          rw [List.append_nil] at isBlock
          exact isBlock ▸ block
        | cons next later =>
          have clearing : (plan.clearing id).map PersistWrite.commit = others ++ next :: later :=
            (List.cons.inj isBlock).2
          have clears : ∀ operation ∈ next :: later, operation.clears = true := by
            intro operation listed
            refine clearing_clears plan id operation ?_
            rw [clearing]
            exact List.mem_append_right _ listed
          have noReplace : ∀ operation ∈ rest, operation.isReplace = false := by
            intro operation listed
            rw [isRest] at listed
            rcases List.mem_append.mp listed with left | after
            · exact not_replace_of_clears (clears operation left)
            · exact (tends operation after).not_replace
          have isTorn : torn rest = true := by
            rw [torn, Bool.and_eq_true, Bool.not_eq_true', List.any_eq_false, List.any_eq_true]
            refine ⟨fun operation listed => by simp [noReplace operation listed], next, ?_, ?_⟩
            · rw [isRest]
              exact List.mem_append_left _ List.mem_cons_self
            · exact clears next List.mem_cons_self
          rw [whole] at isTorn
          cases isTorn
  · obtain ⟨track, stored, members, same⟩ := ready.unchanged_stored unchanged now
    have tends : ∀ operation ∈ stampWrites (plan.stored id now) true, Tends track operation :=
      stampWrites_tend (by rw [stored_memberKeys, members]) same true
    rw [shape] at split_
    refine (tends_sound ready.sound ?_ fun operation listed =>
      tends operation (split_ ▸ List.mem_append_left _ listed)).1
    rw [ready.sound.owned.named stored, stored]

end Ready

omit [Floating F] in
theorem applyAll_aliasing (plan : UpsertPlan F) (id : String) (stamping : Stamping F) :
    (PersistWrite.applyAll ((plan.aliasing id).map .commit) stamping).store.tracks = stamping.store.tracks ∧
      (PersistWrite.applyAll ((plan.aliasing id).map .commit) stamping).store.stamps = stamping.store.stamps := by
  have aliases (olds : List String) (stamping : Stamping F) :
      (PersistWrite.applyAll (olds.map fun old => .commit (.writeAlias old id)) stamping).store.tracks =
          stamping.store.tracks ∧
        (PersistWrite.applyAll (olds.map fun old => .commit (.writeAlias old id)) stamping).store.stamps =
          stamping.store.stamps := by
    induction olds generalizing stamping with
    | nil => exact ⟨rfl, rfl⟩
    | cons old rest ih => exact ih _
  unfold UpsertPlan.aliasing
  split
  · exact ⟨rfl, rfl⟩
  · rw [List.map_cons, List.map_map]
    exact aliases plan.superseded _

def FullyStamped (store : TrackStore F) (id : String) : Prop :=
  ∀ track, store.tracks.get id = some track → ∀ member ∈ track.memberKeys, store.stamps member = some track.alertTrack

namespace Ready

variable {stamping : Stamping F} {incoming : Incoming F} {plan : UpsertPlan F} {id : String}

theorem finished (ready : Ready jd stamping incoming plan id)
    (upToDate : plan.unchangedSince.isSome = true → id ∉ stamping.behind) (now : F) {key : String}
    (before : key ≠ id → FullyStamped stamping.store key) :
    FullyStamped (PersistWrite.applyAll (plan.persistWrites id now) stamping).store key := by
  have owned := ready.sound.owned
  intro track stored member held
  rcases persistWrites_shape plan id now with ⟨_, shape⟩ | ⟨unchanged, shape⟩
  · obtain ⟨sameTracks, sameStamps⟩ := applyAll_aliasing plan id
      (PersistWrite.applyAll ((plan.commitBlock id now).map .commit) stamping)
    rw [applyAll_block] at sameTracks sameStamps
    rw [shape, applyAll_append, applyAll_append, applyAll_stampWrites, applyAll_block] at stored ⊢
    simp only [sameTracks, sameStamps] at stored ⊢
    rcases ready.left_by_block stored with ⟨_, rfl⟩ | ⟨other, kept, same, spared⟩
    · simp [stamped, held]
    · have outside : member ∉ (plan.stored id now).memberKeys := by
        rw [stored_memberKeys]
        intro inside
        exact planned_apart owned ready.valid same spared (ready.narrows.members member inside) held
      have carries := before other track same member held
      have named : track.alertTrack.id = key := owned.named same
      simp [stamped, outside, applyAll_commitBlock, carries, TrackWrite.cleared, named, other, kept]
  · obtain ⟨found, present, members, sameStamp⟩ := ready.unchanged_stored unchanged now
    rw [shape, applyAll_stampWrites] at stored ⊢
    simp only [stored_memberKeys, ← members, sameStamp] at stored ⊢
    by_cases same : key = id
    · subst same
      obtain rfl : found = track := Option.some.inj (present.symm.trans stored)
      have named : found.alertTrack.id = key := owned.named present
      cases carries : stamping.store.stamps member with
      | none => simp [stamped, held]
      | some stamp =>
        by_cases mine : stamp.id = key
        · have current := ready.sound.current carries (mine.symm ▸ present) (mine.symm ▸ upToDate unchanged)
          simp [stamped, held, current]
        · simp [stamped, held, named, mine]
    · have outside : member ∉ found.memberKeys := owned.disjoint stored present same member held
      simp [stamped, outside, before same track stored member held]

end Ready

theorem Stamping.Sound.settle (sound : stamping.Sound jd) {id : String} (full : FullyStamped stamping.store id) :
    Stamping.Sound jd { stamping with behind := stamping.behind.filter (· ≠ id) } where
  owned := sound.owned
  timed := sound.timed
  bounded := sound.bounded
  minted := sound.minted
  stampMinted := sound.stampMinted
  carried := sound.carried
  current {member stamp track} carries stored upToDate := by
    by_cases same : stamp.id = id
    · have held := full track (same ▸ stored) member (sound.carried carries stored)
      exact Option.some.inj (carries.symm.trans held)
    · refine sound.current carries stored fun behind => upToDate ?_
      exact List.mem_filter.mpr ⟨behind, by simpa using same⟩

omit [Floating F] in
theorem ne_next_id {store : TrackStore F} (room : store.sequence + 1 < mintable) {id : String}
    (used : Minted store id) : id ≠ formatId (store.sequence + 1) := by
  obtain ⟨number, atMost, rfl⟩ := used
  intro same
  have := formatId_inj (by omega) room same
  omega

/-! ## Runs of passes -/

def careful (F : Type) : Permits F where
  offer stamping plan := (plan.id = none → stamping.store.sequence + 1 < mintable) ∧
    (plan.unchangedSince.isSome = true → ∀ id ∈ plan.id, id ∉ stamping.behind)
  cut pending := torn pending = false

theorem offer_ready (sound : stamping.Sound jd)
    (distinct : incoming.members.Nodup) (timed : incoming.jds = incoming.members.map jd) {plan : UpsertPlan F}
    (narrows : Narrows jd plan (planUpsert stamping.store incoming))
    (room : plan.id = none → stamping.store.sequence + 1 < mintable) :
    Ready jd { stamping with store := (plan.mint stamping.store).2 } incoming plan (plan.mint stamping.store).1 := by
  have valid : incoming.Valid := ⟨distinct, by rw [timed, List.length_map]⟩
  unfold UpsertPlan.mint
  cases isId : plan.id with
  | some id =>
    obtain ⟨track, stored, _⟩ := planned_id_stored sound.owned
      ((mem_takeover_iff stamping.store incoming id).mpr (.inl (narrows.id ▸ isId)))
    exact ⟨sound, valid, narrows, sound.minted stored, .inl isId⟩
  | none =>
    have room := room isId
    have later {id : String} (used : Minted stamping.store id) :
        Minted { stamping.store with sequence := stamping.store.sequence + 1 } id :=
      used.imp fun _ both => ⟨Nat.le_succ_of_le both.1, both.2⟩
    refine ⟨⟨⟨sound.owned.named, sound.owned.parallel, sound.owned.disjoint⟩, sound.timed, room,
      fun stored => later (sound.minted stored), fun carries => later (sound.stampMinted carries), sound.carried,
      sound.current⟩, valid, narrows, ⟨_, Nat.le_refl _, rfl⟩, .inr ⟨isId, ?_, fun member stamp carries => ?_⟩⟩
    · refine Option.eq_none_iff_forall_ne_some.mpr fun track stored => ?_
      exact ne_next_id room (sound.minted stored) rfl
    · exact ne_next_id room (sound.stampMinted carries)

def JobSound (jd : Member → F) (stamping : Stamping F) (pass : Pass F) (job : Job F) : Prop :=
  ∃ (before : Stamping F) (incoming : Incoming F) (plan : UpsertPlan F) (now : F) (done : List (PersistWrite F)),
    Ready jd before incoming plan job.id ∧ (plan.unchangedSince.isSome = true → job.id ∉ before.behind) ∧
      (pass.report.failed = 0 → ∀ id ∈ pass.touched, FullyStamped before.store id) ∧
      plan.persistWrites job.id now = done ++ job.pending ∧ stamping = PersistWrite.applyAll done before

structure Persisting.Sound (jd : Member → F) (state : Persisting F) : Prop where
  idle : (∀ pass, state.pass = some pass → pass.job = none) → state.stamping.Sound jd
  job : ∀ pass job, state.pass = some pass → pass.job = some job → JobSound jd state.stamping pass job
  touched : ∀ pass, state.pass = some pass → pass.job = none → pass.report.failed = 0 →
    ∀ id ∈ pass.touched, FullyStamped state.stamping.store id
  ended : ∀ report touched, state.ended = some (report, touched) → state.pass = none ∧
    (report.failed = 0 → ∀ id ∈ touched, FullyStamped state.stamping.store id)

namespace Persisting

variable {pass : Pass F}

theorem Sound.not_ended (sound : state.Sound jd) (running : state.pass = some pass) : state.ended = none := by
  cases ended : state.ended with
  | none => rfl
  | some pair =>
    have noPass := (sound.ended pair.1 pair.2 ended).1
    rw [running] at noPass
    cases noPass

theorem Sound.cut (sound : state.Sound jd) (running : state.pass = some pass)
    (permitted : torn pass.pending = false) : state.stamping.Sound jd := by
  cases busy : pass.job with
  | none =>
    refine sound.idle fun other same => ?_
    obtain rfl : pass = other := Option.some.inj (running.symm.trans same)
    exact busy
  | some job =>
    obtain ⟨before, incoming, plan, now, done, ready, _, _, split_, same⟩ := sound.job pass job running busy
    rw [same]
    refine ready.prefix_sound split_ ?_
    simpa [Pass.pending, busy] using permitted

theorem Sound.offer (sound : state.Sound jd)
    (running : state.pass = some pass) (idle : pass.job = none) (distinct : incoming.members.Nodup)
    (timed : incoming.jds = incoming.members.map jd) {plan : UpsertPlan F} {kind : Option String}
    {check : Option (Reproduced F)} (isPlan : plan = persistPlan state.stamping.store incoming kind check)
    (permitted : (careful F).offer state.stamping plan) (now : F) : (state.offer pass plan now).Sound jd := by
  have here : state.stamping.Sound jd := sound.idle fun other same => by
    obtain rfl : pass = other := Option.some.inj (running.symm.trans same)
    exact idle
  have narrows : Narrows jd plan (planUpsert state.stamping.store incoming) :=
    isPlan ▸ persistPlan_narrows here timed kind check
  have ready := offer_ready here distinct timed narrows permitted.1
  refine ⟨fun notBusy => ?_, fun other job same busy => ?_, fun other same notBusy => ?_, fun report touched ended => ?_⟩
  · cases notBusy _ rfl
  · obtain rfl := Option.some.inj same
    obtain rfl := Option.some.inj busy
    refine ⟨_, incoming, plan, now, [], ready, fun unchanged => ?_, fun noneFailed id touched => ?_, rfl, rfl⟩
    · have identified : (plan.mint state.stamping.store).1 ∈ plan.id := by
        obtain ⟨track, _, isId, _⟩ := planUpsert_found state.stamping.store incoming
          (narrows.unchanged unchanged ▸ unchanged)
        rw [← narrows.id] at isId
        simp [UpsertPlan.mint, isId]
      exact permitted.2 unchanged _ identified
    · have full := sound.touched pass running idle noneFailed id touched
      obtain ⟨tracks, _, stamps⟩ := mint_only plan state.stamping.store
      unfold FullyStamped at full ⊢
      rw [tracks, stamps]
      exact full
  · cases Option.some.inj same
    cases notBusy
  · rw [show (state.offer pass plan now).ended = state.ended from rfl, sound.not_ended running] at ended
    cases ended

theorem Sound.write (sound : state.Sound jd) {job : Job F}
    (running : state.pass = some pass) (busy : pass.job = some job)
    {rest : List (PersistWrite F)} (next : job.pending = operation :: rest) :
    (state.write pass job operation rest).Sound jd := by
  obtain ⟨before, incoming, plan, now, done, ready, upToDate, full, split_, same⟩ := sound.job pass job running busy
  refine ⟨fun notBusy => ?_, fun other job' same' busy' => ?_, fun other same' notBusy => ?_,
    fun report touched ended => ?_⟩
  · cases notBusy _ rfl
  · obtain rfl := Option.some.inj same'
    obtain rfl := Option.some.inj busy'
    refine ⟨before, incoming, plan, now, done ++ [operation], ready, upToDate, full, ?_, ?_⟩
    · rw [split_, next, List.append_assoc]
      rfl
    · rw [applyAll_append, ← same]
      rfl
  · cases Option.some.inj same'
    cases notBusy
  · rw [show (state.write pass job operation rest).ended = state.ended from rfl, sound.not_ended running] at ended
    cases ended

theorem Sound.settle (sound : state.Sound jd) {job : Job F}
    (running : state.pass = some pass) (busy : pass.job = some job) (done : job.pending = []) :
    (state.settle pass job).Sound jd := by
  have here := sound.cut running (by simp [Pass.pending, busy, done, torn])
  obtain ⟨before, incoming, plan, now, writes, ready, upToDate, full, split_, same⟩ := sound.job pass job running busy
  rw [done, List.append_nil] at split_
  rw [← split_] at same
  have stamped : FullyStamped state.stamping.store job.id := by
    rw [same]
    exact ready.finished upToDate now fun different => absurd rfl different
  refine ⟨fun _ => here.settle stamped, fun other job' same' busy' => ?_, fun other same' _ noneFailed id touched => ?_,
    fun report touched ended => ?_⟩
  · cases Option.some.inj same'
    cases busy'
  · obtain rfl := Option.some.inj same'
    show FullyStamped state.stamping.store id
    rw [same]
    rcases List.mem_cons.mp touched with rfl | old
    · exact same ▸ stamped
    · exact ready.finished upToDate now fun _ => full noneFailed id old
  · rw [show (state.settle pass job).ended = state.ended from rfl, sound.not_ended running] at ended
    cases ended

theorem sound_step {state after : Persisting F} (sound : state.Sound jd) (step : Step jd (careful F) state after) :
    after.Sound jd := by
  cases step with
  | start idle =>
    have here := sound.idle fun pass running => by rw [idle] at running; cases running
    refine ⟨fun _ => here, fun pass job same busy => ?_, fun pass same _ _ id touched => ?_,
      fun report touched ended => by cases ended⟩
    · cases Option.some.inj same
      cases busy
    · cases Option.some.inj same
      cases touched
  | offer running idle distinct timed _ permitted => exact sound.offer running idle distinct timed rfl permitted _
  | write running busy next => exact sound.write running busy next
  | settle running busy done => exact sound.settle running busy done
  | @fail pass running permitted =>
    have here := sound.cut running permitted
    refine ⟨fun _ => here, fun other job same busy => ?_, fun other same _ noneFailed => ?_,
      fun report touched ended => ?_⟩
    · cases Option.some.inj same
      cases busy
    · cases Option.some.inj same
      exact absurd noneFailed (Nat.succ_ne_zero _)
    · rw [show (state.fail pass).ended = state.ended from rfl, sound.not_ended running] at ended
      cases ended
  | @interrupt pass running idle =>
    have here := sound.cut running (by simp [Pass.pending, idle, torn])
    refine ⟨fun _ => here, fun other job same busy => ?_, fun other same _ noneFailed id touched => ?_,
      fun report touched ended => ?_⟩
    · cases Option.some.inj same
      exact absurd (idle.symm.trans busy) (by simp)
    · cases Option.some.inj same
      exact sound.touched pass running idle noneFailed id touched
    · rw [show (state.interrupt pass).ended = state.ended from rfl, sound.not_ended running] at ended
      cases ended
  | @finish pass running idle =>
    have here := sound.cut running (by simp [Pass.pending, idle, torn])
    refine ⟨fun _ => here, fun pass job same => (by cases same), fun pass same => (by cases same),
      fun report touched ended => ⟨rfl, fun noneFailed => ?_⟩⟩
    obtain ⟨rfl, rfl⟩ := Prod.mk.inj (Option.some.inj ended)
    exact sound.touched pass running idle noneFailed
  | crash running permitted =>
    exact ⟨fun _ => sound.cut running permitted, fun pass job same => (by cases same),
      fun pass same => (by cases same), fun report touched ended => (by cases ended)⟩

end Persisting

theorem persists_sound (reached : Persists jd (careful F) state) : state.Sound jd := by
  refine Reachable.invariant (Persisting.Sound jd) ?_ ?_ reached
  · rintro _ rfl
    refine ⟨fun _ => ⟨owned_empty, fun stored => ?_, ?_, fun stored => ?_, fun carries => ?_, fun carries => ?_,
      fun carries => ?_⟩, fun pass job same => ?_, fun pass same => ?_, fun report touched ended => ?_⟩
    · cases stored
    · show 0 < mintable
      decide
    all_goals first | cases stored | cases carries | cases same | cases ended
  · intro state after _ sound step
    exact Persisting.sound_step sound step

/-- After every complete pass, the members of the tracks it stored or found again carry
    the stamps of the stored documents, and only a member carries a stored track's id: if
    no track is found again unchanged while its stamps are behind, and no candidate is cut
    off between writing its track and clearing what it dropped or absorbed. -/
theorem stamps_agree {state : Persisting F} (reached : Persists jd (careful F) state) {report : PersistReport}
    {touched : List String} (ended : state.ended = some (report, touched)) (complete : report.complete = true) :
    (∀ id ∈ touched, ∀ track, state.stamping.store.tracks.get id = some track →
      ∀ member ∈ track.memberKeys, state.stamping.store.stamps member = some track.alertTrack) ∧
    ∀ id track, state.stamping.store.tracks.get id = some track →
      ∀ member, member ∉ track.memberKeys → ∀ stamp, state.stamping.store.stamps member = some stamp → stamp.id ≠ id := by
  have sound := persists_sound reached
  obtain ⟨idle, full⟩ := sound.ended report touched ended
  have noneFailed : report.failed = 0 := by
    simp only [PersistReport.complete, Bool.and_eq_true, beq_iff_eq] at complete
    exact complete.2
  refine ⟨full noneFailed, fun id track stored member outside stamp carries named => outside ?_⟩
  have here := sound.idle fun pass running => by rw [idle] at running; cases running
  exact here.carried carries (named.symm ▸ stored)

end Store

/-! ## A stamp that fails -/

namespace Persisting

section Runs

variable [Floating F]

def writeSome : Nat → Persisting F → Persisting F
  | 0, state => state
  | count + 1, state =>
    match state.pass with
    | none => state
    | some pass =>
      match pass.job with
      | none => state
      | some job =>
        match job.pending with
        | [] => state
        | operation :: rest => (state.write pass job operation rest).writeSome count

def storing (state : Persisting F) (incoming : Incoming F) (now : F) (count : Nat) : Persisting F :=
  (state.start.offer { report := ⟨true, false, 0⟩, touched := [], job := none }
    (persistPlan state.stamping.store incoming none none) now).writeSome count

def ending (state : Persisting F) : Persisting F :=
  match state.pass with
  | none => state
  | some pass =>
    match pass.job with
    | none => state.finish pass
    | some job =>
      if job.pending.isEmpty then
        (state.settle pass job).finish { pass with touched := job.id :: pass.touched, job := none }
      else
        (state.fail pass).finish
          { pass with report := { pass.report with failed := pass.report.failed + 1 }, job := none }

variable {jd : Member → F} {permits : Permits F}

theorem run_writeSome (count : Nat) (state : Persisting F) :
    Relation.ReflTransGen (Step jd permits) state (state.writeSome count) := by
  induction count generalizing state with
  | zero => exact .refl
  | succ count ih =>
    rw [writeSome]
    split
    · exact .refl
    next running =>
      split
      · exact .refl
      next busy =>
        split
        · exact .refl
        next next => exact .head (.write running busy next) (ih _)

theorem run_storing (reached : Persists jd permits state) (idle : state.pass = none)
    (incoming : Incoming F) (distinct : incoming.members.Nodup) (timed : incoming.jds = incoming.members.map jd)
    (permitted : permits.offer state.stamping (persistPlan state.stamping.store incoming none none)) (now : F)
    (count : Nat) : Persists jd permits (state.storing incoming now count) := by
  have enough : (persistPlan state.stamping.store incoming none none).meets 0 0 = true := by simp [UpsertPlan.meets]
  exact Reachable.trans (.next (.next reached (.start idle)) (.offer rfl rfl distinct timed enough permitted))
    (run_writeSome count _)

theorem run_ending (reached : Persists jd permits state)
    (permitted : permits.cut (state.pass.elim [] Pass.pending)) : Persists jd permits state.ending := by
  unfold ending
  split
  · exact reached
  next pass running =>
    split
    next idle => exact .next reached (.finish running idle)
    next job busy =>
      split
      next done => exact .next (.next reached (.settle running busy (List.isEmpty_iff.mp done))) (.finish rfl rfl)
      next => exact .next (.next reached (.fail running (by simpa [running] using permitted))) (.finish rfl rfl)

end Runs

end Persisting

def dayOf (member : Member) : Whole :=
  ⟨member.2.toInt⟩

def seen (ids : List Int64) : Incoming Whole :=
  bareIncoming (ids.map fun id => (.ztf, id)) ((ids.map fun id => (.ztf, id)).map dayOf)

def storedOnce : Persisting Whole :=
  ((Persisting.empty Whole).storing (seen [1, 2]) ⟨10⟩ 2).ending

theorem storedOnce_reached : Persists dayOf (careful Whole) storedOnce := by
  have started : Persists dayOf (careful Whole) (Persisting.empty Whole) := .start rfl
  have stored := Persisting.run_storing started rfl (seen [1, 2]) (by decide) rfl
    ⟨fun _ => by decide, fun unchanged => absurd unchanged (by decide +kernel)⟩ ⟨10⟩ 2
  exact Persisting.run_ending stored (show torn _ = false by decide +kernel)

def foundAgain : Persisting Whole :=
  (storedOnce.storing (seen [1, 2]) ⟨20⟩ 1).ending

theorem stamps_agree_again :
    foundAgain.ended = some (⟨true, false, 0⟩, ["BT000001"]) ∧
      (∀ id ∈ ["BT000001"], ∀ track, foundAgain.stamping.store.tracks.get id = some track →
        ∀ member ∈ track.memberKeys, foundAgain.stamping.store.stamps member = some track.alertTrack) ∧
      ∀ id track, foundAgain.stamping.store.tracks.get id = some track →
        ∀ member, member ∉ track.memberKeys → ∀ stamp, foundAgain.stamping.store.stamps member = some stamp →
          stamp.id ≠ id := by
  have behind : storedOnce.stamping.behind = [] := by decide +kernel
  have stored := Persisting.run_storing storedOnce_reached (by decide +kernel) (seen [1, 2]) (by decide) rfl
    ⟨fun isNew => absurd isNew (by decide +kernel), fun _ id _ => by simp [behind]⟩ ⟨20⟩ 1
  have again : Persists dayOf (careful Whole) foundAgain :=
    Persisting.run_ending stored (show torn _ = false by decide +kernel)
  have ended : foundAgain.ended = some (⟨true, false, 0⟩, ["BT000001"]) := by decide +kernel
  exact ⟨ended, stamps_agree again ended rfl⟩

def extendedOnly : Persisting Whole :=
  (storedOnce.storing (seen [1, 2, 3]) ⟨20⟩ 1).ending

def foundStale : Persisting Whole :=
  (extendedOnly.storing (seen [1, 2, 3]) ⟨30⟩ 1).ending

/-- It is complete, but the first detection still carries the stamp of the shorter track. -/
theorem stale_stamp_stays :
    Persists dayOf ⟨fun _ _ => True, fun _ => True⟩ foundStale ∧
      foundStale.ended = some (⟨true, false, 0⟩, ["BT000001"]) ∧
      ((foundStale.stamping.store.tracks.get "BT000001").map fun track =>
        (track.memberKeys.contains (.ztf, 1), track.alertTrack.nDetections)) = some (true, 3) ∧
      (foundStale.stamping.store.stamps (.ztf, 1)).map (·.nDetections) = some 2 := by
  have once : Persists dayOf ⟨fun _ _ => True, fun _ => True⟩ storedOnce :=
    Persisting.run_ending (Persisting.run_storing (.start rfl) rfl _ (by decide) rfl trivial _ _) trivial
  have extended : Persists dayOf ⟨fun _ _ => True, fun _ => True⟩ extendedOnly :=
    Persisting.run_ending (Persisting.run_storing once (by decide +kernel) _ (by decide) rfl trivial _ _) trivial
  exact ⟨Persisting.run_ending (Persisting.run_storing extended (by decide +kernel) _ (by decide) rfl trivial _ _) trivial,
    by decide +kernel, by decide +kernel, by decide +kernel⟩

end Boom.Utils
