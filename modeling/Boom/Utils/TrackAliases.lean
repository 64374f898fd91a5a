import Boom.Utils.TrackOwners
import Boom.Utils.TrackWrites

/-! # Published track ids keep resolving

A merge deletes the tracks it absorbs and leaves an alias for each, one operation after
the other.  Whoever recorded an absorbed id is sent on by its alias. -/

namespace Boom.Utils

open Boom.Foundations

variable {F : Type}

def trackById (store : TrackStore F) (id : String) : Option (StoredTrack F) :=
  (store.tracks.get id).or ((store.aliases.get id).bind store.tracks.get)

/-! ## Commits that can be cut off -/

/-- The store with at most one commit in progress. -/
structure Committing (F : Type) where
  store : TrackStore F
  /-- The operations of the commit still to come. -/
  pending : List (TrackWrite F)
  /-- The last commit was cut off. -/
  interrupted : Bool
  /-- The ids tracks were ever written under. -/
  published : List String

def TrackWrite.publishes : TrackWrite F → List String
  | .replace id _ => [id]
  | _ => []

def TrackWrite.isDelete : TrackWrite F → Bool
  | .delete _ => true
  | _ => false

def TrackWrite.isAlias : TrackWrite F → Bool
  | .writeAlias _ _ => true
  | _ => false

def midMerge (pending : List (TrackWrite F)) : Bool :=
  pending.any TrackWrite.isAlias && !pending.any TrackWrite.isDelete

structure Amends (plan planned : UpsertPlan F) : Prop where
  id : plan.id = planned.id
  superseded : plan.superseded = planned.superseded
  unchanged : plan.unchangedSince = none ∨ plan.unchangedSince = planned.unchangedSince

namespace Committing

def empty (F : Type) : Committing F where
  store := TrackStore.empty F
  pending := []
  interrupted := false
  published := []

section Actions

variable [Floating F]

def begin (state : Committing F) (plan : UpsertPlan F) (now : F) : Committing F :=
  { state with
    store := (plan.mint state.store).2
    pending := plan.writes (plan.mint state.store).1 now
    interrupted := false }

def write (state : Committing F) (operation : TrackWrite F) (rest : List (TrackWrite F)) : Committing F :=
  { state with
    store := operation.apply state.store
    pending := rest
    published := state.published ++ operation.publishes }

def cut (state : Committing F) : Committing F :=
  { state with pending := [], interrupted := true }

inductive Step (permit : Committing F → Prop) (state : Committing F) : Committing F → Prop where
  | begin {plan : UpsertPlan F} {incoming : Incoming F} {now : F} (idle : state.pending = [])
      (planned : Amends plan (planUpsert state.store incoming)) : Step permit state (state.begin plan now)
  | write {operation : TrackWrite F} {rest : List (TrackWrite F)} (next : state.pending = operation :: rest) :
      Step permit state (state.write operation rest)
  | cut (busy : state.pending ≠ []) (permitted : permit state) : Step permit state state.cut

end Actions

end Committing

abbrev Commits [Floating F] (permit : Committing F → Prop) (state : Committing F) : Prop :=
  Reachable (fun start => start = Committing.empty F) (Committing.Step permit) state

/-! ## Ids that resolve -/

structure Resolving (store : TrackStore F) (published : List String) : Prop where
  live : ∀ {old id}, store.aliases.get old = some id → (store.tracks.get id).isSome = true
  known : ∀ id ∈ published, (store.tracks.get id).isSome = true ∨ (store.aliases.get id).isSome = true

variable {store : TrackStore F} {published : List String}

theorem Resolving.trackById (resolving : Resolving store published) {id : String} (member : id ∈ published) :
    (trackById store id).isSome = true := by
  unfold Utils.trackById
  rw [Option.isSome_or, Bool.or_eq_true]
  refine (resolving.known id member).imp_right fun aliased => ?_
  obtain ⟨target, held⟩ := Option.isSome_iff_exists.mp aliased
  rw [held, Option.bind_some]
  exact resolving.live held

def TrackWrite.isQuiet : TrackWrite F → Bool
  | .replace _ _ | .unstamp _ _ _ => true
  | _ => false

theorem midMerge_quiet {operation : TrackWrite F} (quiet : operation.isQuiet = true)
    (rest : List (TrackWrite F)) : midMerge (operation :: rest) = midMerge rest := by
  cases operation <;> first | rfl | cases quiet

theorem Resolving.quiet (resolving : Resolving store published)
    {operation : TrackWrite F} (quiet : operation.isQuiet = true) :
    Resolving (operation.apply store) (published ++ operation.publishes) := by
  cases operation with
  | replace id track =>
    have stays (key : String) : ((store.tracks.replaceOne id track).get key).isSome =
        (key == id || (store.tracks.get key).isSome) := by
      rw [Collection.get_replaceOne]
      by_cases same : key = id <;> simp [same]
    refine ⟨fun aliased => ?_, fun key member => ?_⟩
    · simp only [TrackWrite.apply] at aliased ⊢
      rw [stays, resolving.live aliased, Bool.or_true]
    · simp only [TrackWrite.apply, stays, Bool.or_eq_true, beq_iff_eq]
      rcases List.mem_append.mp member with old | new
      · exact (resolving.known key old).imp_left .inr
      · exact .inl (.inl (List.mem_singleton.mp new))
  | unstamp survey ids owners => simpa [TrackWrite.publishes] using ⟨resolving.live, resolving.known⟩
  | delete ids => cases quiet
  | repoint superseded id => cases quiet
  | writeAlias old id => cases quiet

theorem get_redirect (aliases : Collection String String) (superseded : List String) (id old : String) :
    (redirect aliases superseded id).get old =
      if old ∈ superseded then some id
      else (aliases.get old).map fun target => if target ∈ superseded then id else target := by
  have written (known : Collection String String) (olds : List String) :
      (olds.foldl (fun aliases old => aliases.replaceOne old id) known).get old =
        if old ∈ olds then some id else known.get old := by
    induction olds generalizing known with
    | nil => simp
    | cons first rest ih =>
      rw [List.foldl_cons, ih, Collection.get_replaceOne]
      by_cases here : old = first <;> by_cases later : old ∈ rest <;> simp [here, later]
  rw [redirect, written, Collection.get_updateMany]
  simp

section Commit

variable [Floating F]

omit [Floating F] in
theorem Resolving.mint (resolving : Resolving store published)
    (plan : UpsertPlan F) : Resolving (plan.mint store).2 published := by
  obtain ⟨tracks, aliases, _⟩ := mint_only plan store
  refine ⟨fun aliased => ?_, ?_⟩
  · rw [aliases] at aliased
    exact tracks ▸ resolving.live aliased
  · rw [tracks, aliases]
    exact resolving.known

theorem publishes_writes (plan : UpsertPlan F) (id : String) (now : F) :
    (plan.writes id now).flatMap TrackWrite.publishes = if plan.unchangedSince.isSome then [] else [id] := by
  unfold UpsertPlan.writes
  split
  · rfl
  · split <;> simp [TrackWrite.publishes, List.flatMap_map]

theorem Resolving.commit (resolving : Resolving store published)
    {plan : UpsertPlan F} {id : String} (survives : id ∉ plan.superseded) (now : F) :
    Resolving (TrackWrite.applyAll (plan.writes id now) store)
      (published ++ (plan.writes id now).flatMap TrackWrite.publishes) := by
  rw [applyAll_writes, publishes_writes]
  split
  · rw [List.append_nil]
    exact resolving
  · have left (key : String) : (((store.tracks.replaceOne id (plan.stored id now)).deleteMany fun key _ =>
        plan.superseded.contains key).get key).isSome = true ↔
          key = id ∨ ((store.tracks.get key).isSome = true ∧ key ∉ plan.superseded) := by
      rw [Collection.get_deleteMany, Collection.get_replaceOne]
      by_cases same : key = id
      · simp [same, survives]
      · simp [same, Option.isSome_filter, Option.any_eq_true, Option.isSome_iff_exists]
    refine ⟨fun {old target} aliased => ?_, fun key member => ?_⟩
    · rw [left]
      rw [get_redirect] at aliased
      split at aliased
      · exact .inl (Option.some.inj aliased).symm
      · obtain ⟨before, held, moved⟩ := Option.map_eq_some_iff.mp aliased
        split at moved
        · exact .inl moved.symm
        next stays => exact .inr (moved ▸ ⟨resolving.live held, stays⟩)
    · rw [left, get_redirect]
      rcases List.mem_append.mp member with old | new
      · by_cases gone : key ∈ plan.superseded
        · exact .inr (by simp [gone])
        · rcases resolving.known key old with stored | aliased
          · exact .inl (.inr ⟨stored, gone⟩)
          · exact .inr (by simpa [gone] using aliased)
      · exact .inl (.inl (List.mem_singleton.mp new))

/-! ## Commits in progress -/

def Orderly : List (TrackWrite F) → Prop
  | [] => True
  | operation :: rest =>
    (operation.isQuiet = true ∨ rest = [] ∨ midMerge rest = true) ∧ Orderly rest

omit [Floating F] in
theorem orderly_aliases (olds : List String) (id : String) :
    Orderly (olds.map fun old => (.writeAlias old id : TrackWrite F)) := by
  induction olds with
  | nil => trivial
  | cons old rest ih =>
    refine ⟨.inr ?_, ih⟩
    cases rest with
    | nil => exact .inl rfl
    | cons => exact .inr (by simp [midMerge, TrackWrite.isAlias, TrackWrite.isDelete])

omit [Floating F] in
theorem Orderly.quiet_append {first rest : List (TrackWrite F)} (quiet : ∀ write ∈ first, write.isQuiet = true)
    (orderly : Orderly rest) : Orderly (first ++ rest) := by
  induction first with
  | nil => exact orderly
  | cons write others ih =>
    obtain ⟨here, later⟩ := List.forall_mem_cons.mp quiet
    exact ⟨.inl here, ih later⟩

theorem orderly_writes (plan : UpsertPlan F) (id : String) (now : F) : Orderly (plan.writes id now) := by
  unfold UpsertPlan.writes
  split
  · trivial
  · refine Orderly.quiet_append (List.forall_mem_cons.mpr ⟨rfl, fun write listed => ?_⟩) ?_
    · obtain ⟨_, _, rfl⟩ := List.mem_map.mp listed
      rfl
    · split
      · trivial
      next some =>
        have aliases : midMerge (plan.superseded.map fun old => (.writeAlias old id : TrackWrite F)) = true := by
          obtain ⟨old, rest, shape⟩ := List.exists_cons_of_ne_nil (mt List.isEmpty_iff.mpr some)
          simp [midMerge, TrackWrite.isAlias, TrackWrite.isDelete, shape]
        exact ⟨.inr (.inr aliases), .inr (.inr aliases), orderly_aliases _ _⟩

structure Committing.Sound (state : Committing F) : Prop where
  orderly : Orderly state.pending
  finishes : Resolving (TrackWrite.applyAll state.pending state.store)
    (state.published ++ state.pending.flatMap TrackWrite.publishes)
  resolving : midMerge state.pending = false → Resolving state.store state.published

variable {state : Committing F}

omit [Floating F] in
theorem Committing.Sound.write (sound : state.Sound) {operation : TrackWrite F}
    {rest : List (TrackWrite F)} (next : state.pending = operation :: rest) :
    Committing.Sound (state.write operation rest) := by
  obtain ⟨orderly, finishes, resolving⟩ := sound
  rw [next] at orderly finishes resolving
  have finished : Resolving (TrackWrite.applyAll rest (operation.apply state.store))
      (state.published ++ operation.publishes ++ rest.flatMap TrackWrite.publishes) := by
    rw [List.append_assoc]
    exact finishes
  refine ⟨orderly.2, finished, fun notMid => ?_⟩
  rcases orderly.1 with quiet | rfl | mid
  · have before : midMerge (operation :: rest) = false := by
      rw [midMerge_quiet quiet]
      exact notMid
    exact (resolving before).quiet quiet
  · simpa [Committing.write] using finished
  · exact absurd mid (Bool.eq_false_iff.mp notMid)

theorem Committing.Sound.begin (sound : state.Sound) (idle : state.pending = []) {plan : UpsertPlan F}
    {incoming : Incoming F} (planned : Amends plan (planUpsert state.store incoming)) (now : F) :
    Committing.Sound (state.begin plan now) := by
  have resolving := (sound.resolving (by rw [idle]; rfl)).mint plan
  have survives : (plan.mint state.store).1 ∉ plan.superseded := by
    have target : (plan.mint state.store).1 = (planUpsert state.store incoming).target state.store := by
      unfold UpsertPlan.mint UpsertPlan.target
      rw [← planned.id]
      cases plan.id <;> rfl
    rw [target, planned.superseded]
    exact target_not_superseded state.store incoming
  exact ⟨orderly_writes _ _ _, resolving.commit survives now, fun _ => resolving⟩

omit [Floating F] in
theorem Committing.Sound.cut (sound : state.Sound) (permitted : midMerge state.pending = false) :
    state.cut.Sound := by
  have resolving := sound.resolving permitted
  exact ⟨trivial, by simpa [Committing.cut] using resolving, fun _ => resolving⟩

theorem commits_sound (reached : Commits (fun state => midMerge state.pending = false) state) : state.Sound := by
  refine Reachable.invariant Committing.Sound ?_ ?_ reached
  · rintro _ rfl
    have resolving : Resolving (TrackStore.empty F) [] :=
      ⟨fun aliased => by simp [TrackStore.empty] at aliased, by simp⟩
    exact ⟨trivial, resolving, fun _ => resolving⟩
  · intro state after _ sound step
    cases step with
    | begin idle planned => exact sound.begin idle planned _
    | write next => exact sound.write next
    | cut _ permitted => exact sound.cut permitted

/-- When commits are cut off at most where no alias is missing, every id a track was ever
    written under resolves between commits, over at most one alias. -/
theorem ids_keep_resolving {state : Committing F}
    (reached : Commits (fun state => midMerge state.pending = false) state) (idle : state.pending = []) :
    (∀ id ∈ state.published, (trackById state.store id).isSome = true) ∧
      ∀ old id, state.store.aliases.get old = some id → (state.store.tracks.get id).isSome = true := by
  have resolving := (commits_sound reached).resolving (by rw [idle]; rfl)
  exact ⟨fun id member => resolving.trackById member, fun _ _ => resolving.live⟩

/-! ## A merge, whole and cut off -/

def Committing.writeSome : Nat → Committing F → Committing F
  | 0, state => state
  | count + 1, state =>
    match state.pending with
    | [] => state
    | operation :: rest => (state.write operation rest).writeSome count

theorem Committing.run_writeSome (permit : Committing F → Prop) (count : Nat) (state : Committing F) :
    Relation.ReflTransGen (Committing.Step permit) state (state.writeSome count) := by
  induction count generalizing state with
  | zero => exact .refl
  | succ count ih =>
    rw [Committing.writeSome]
    split
    · exact .refl
    next next => exact .head (.write next) (ih _)

def Committing.upsert (state : Committing F) (incoming : Incoming F) (now : F) (count : Nat) : Committing F :=
  (state.begin (planUpsert state.store incoming) now).writeSome count

theorem Commits.upsert {permit : Committing F → Prop} (reached : Commits permit state)
    (idle : state.pending = []) (incoming : Incoming F) (now : F) (count : Nat) :
    Commits permit (state.upsert incoming now count) :=
  (Reachable.next reached (.begin idle ⟨rfl, rfl, .inr rfl⟩)).trans (Committing.run_writeSome permit count _)

end Commit

theorem identify_merges {members : List Member} {stored : List (StoredTrack F)} {first second : String}
    (matched : (stored.filter fun track => sharedForIdentity ≤ track.shared members).map (·.id) = [first, second])
    (sorted : first ≤ second) : identify members stored = .merges [first, second] := by
  unfold identify
  dsimp only
  rw [matched, List.mergeSort_of_pairwise (by simpa using sorted)]

def ztfNights (members : List Int64) : Incoming Whole :=
  bareIncoming (members.map fun id => (.ztf, id)) (members.map fun _ => ⟨2460000⟩)

def twoTracks : Committing Whole :=
  ((Committing.empty Whole).upsert (ztfNights [1, 2]) ⟨1⟩ 1).upsert (ztfNights [3, 4]) ⟨2⟩ 1

theorem twoTracks_reached (permit : Committing Whole → Prop) : Commits permit twoTracks :=
  Commits.upsert (Commits.upsert (.start rfl) rfl _ _ _) (by decide +kernel) _ _ _

example : twoTracks.published = ["BT000001", "BT000002"] := by decide +kernel

def bridge : UpsertPlan Whole :=
  { planUpsert (TrackStore.empty Whole) (ztfNights [1, 2, 3, 4]) with
    id := some "BT000001"
    superseded := ["BT000002"] }

theorem bridge_planned : Amends bridge (planUpsert twoTracks.store (ztfNights [1, 2, 3, 4])) := by
  have identity : identify (ztfNights [1, 2, 3, 4]).members
      (overlapping twoTracks.store (ztfNights [1, 2, 3, 4]).members) = .merges ["BT000001", "BT000002"] :=
    identify_merges (by decide +kernel) (by decide +kernel)
  have resolved : ((planUpsert twoTracks.store (ztfNights [1, 2, 3, 4])).id,
      (planUpsert twoTracks.store (ztfNights [1, 2, 3, 4])).superseded) =
        resolveIdentity (.merges ["BT000001", "BT000002"]) := identity ▸ rfl
  obtain ⟨id, superseded⟩ := Prod.mk.inj resolved
  exact ⟨id.symm ▸ by decide +kernel, superseded.symm ▸ by decide +kernel, .inl (by decide +kernel)⟩

def bridged (count : Nat) : Committing Whole :=
  (twoTracks.begin bridge ⟨3⟩).writeSome count

example : (bridged 4).store.aliases.get "BT000002" = some "BT000001" := by decide +kernel

theorem bridged_reached (permit : Committing Whole → Prop) (count : Nat) : Commits permit (bridged count) :=
  (Reachable.next (twoTracks_reached permit) (.begin (by decide +kernel) bridge_planned)).trans
    (Committing.run_writeSome permit count _)

theorem ids_keep_resolving_merged :
    (bridged 4).published = ["BT000001", "BT000002", "BT000001"] ∧
      (∀ id ∈ (bridged 4).published, (trackById (bridged 4).store id).isSome = true) ∧
      ∀ old id, (bridged 4).store.aliases.get old = some id →
        ((bridged 4).store.tracks.get id).isSome = true :=
  ⟨by decide +kernel, ids_keep_resolving (bridged_reached _ 4) (by decide +kernel)⟩

def mergedAgain : Committing Whole :=
  (bridged 2).cut.upsert (ztfNights [1, 2, 3, 4]) ⟨4⟩ 0

/-- The absorbed id is lost, though the last commit ran to its end. -/
theorem cut_merge_loses_id : Commits (fun _ => True) mergedAgain ∧ mergedAgain.pending = [] ∧
    mergedAgain.interrupted = false ∧ "BT000002" ∈ mergedAgain.published ∧
    (trackById mergedAgain.store "BT000002").isSome = false := by
  have cut : Commits (fun _ => True) (bridged 2).cut :=
    .next (bridged_reached _ 2) (.cut (by decide +kernel) trivial)
  exact ⟨cut.upsert rfl _ _ _, by decide +kernel, by decide +kernel, by decide +kernel, by decide +kernel⟩

end Boom.Utils
