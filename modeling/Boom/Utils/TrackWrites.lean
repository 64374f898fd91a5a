import Boom.Utils.Tracks
import Mathlib.Data.List.Dedup

/-! # The writes of a commit

`commitUpsert` says what a commit leaves when it is not cut off.  Here it is the
database operations it makes, in their order, each atomic. -/

namespace Boom.Utils

open Boom.Foundations

variable {F : Type}

def alertsBySurvey (members : List Member) : List (Survey × List Int64) :=
  (members.map Prod.fst).dedup.map fun survey =>
    (survey, (members.filter fun member => member.1 == survey).map Prod.snd)

theorem mem_alertsBySurvey {members : List Member} {member : Member} :
    (∃ group ∈ alertsBySurvey members, group.1 = member.1 ∧ member.2 ∈ group.2) ↔ member ∈ members := by
  constructor
  · rintro ⟨group, listed, survey, held⟩
    obtain ⟨_, _, rfl⟩ := List.mem_map.mp listed
    obtain ⟨other, kept, sameId⟩ := List.mem_map.mp held
    obtain ⟨present, sameSurvey⟩ := List.mem_filter.mp kept
    have same : other = member := Prod.ext ((beq_iff_eq.mp sameSurvey).trans survey) sameId
    exact same ▸ present
  · intro present
    refine ⟨_, List.mem_map.mpr ⟨member.1, List.mem_dedup.mpr (List.mem_map_of_mem present), rfl⟩, rfl, ?_⟩
    exact List.mem_map.mpr ⟨member, List.mem_filter.mpr ⟨present, beq_self_eq_true _⟩, rfl⟩

/-! ## Single writes -/

/-- One database operation of a commit. -/
inductive TrackWrite (F : Type) where
  | replace (id : String) (track : StoredTrack F)
  | unstamp (survey : Survey) (ids : List Int64) (owners : List String)
  | delete (ids : List String)
  | repoint (superseded : List String) (id : String)
  | writeAlias (old id : String)

namespace TrackWrite

def cleared (asked : Bool) (owners : List String) (stamp : Option (AlertTrack F)) : Option (AlertTrack F) :=
  if asked && stamp.any (fun stamp => owners.contains stamp.id) then none else stamp

theorem cleared_cleared (first second : Bool) (owners : List String) (stamp : Option (AlertTrack F)) :
    cleared second owners (cleared first owners stamp) = cleared (first || second) owners stamp := by
  cases stamp with
  | none => cases first <;> cases second <;> rfl
  | some stamp =>
    by_cases held : stamp.id ∈ owners <;> cases first <;> cases second <;> simp [cleared, held]

def apply : TrackWrite F → TrackStore F → TrackStore F
  | .replace id track, store => { store with tracks := store.tracks.replaceOne id track }
  | .unstamp survey ids owners, store =>
    { store with
      stamps := fun member =>
        cleared (survey == member.1 && ids.contains member.2) owners (store.stamps member) }
  | .delete ids, store => { store with tracks := store.tracks.deleteMany fun key _ => ids.contains key }
  | .repoint superseded id, store =>
    { store with aliases := store.aliases.updateMany (fun _ target => superseded.contains target) fun _ => id }
  | .writeAlias old id, store => { store with aliases := store.aliases.replaceOne old id }

def applyAll (writes : List (TrackWrite F)) (store : TrackStore F) : TrackStore F :=
  writes.foldl (fun store write => write.apply store) store

@[simp] theorem applyAll_nil (store : TrackStore F) : applyAll [] store = store := rfl

@[simp] theorem applyAll_cons (write : TrackWrite F) (rest : List (TrackWrite F)) (store : TrackStore F) :
    applyAll (write :: rest) store = applyAll rest (write.apply store) := rfl

@[simp] theorem applyAll_append (first second : List (TrackWrite F)) (store : TrackStore F) :
    applyAll (first ++ second) store = applyAll second (applyAll first store) :=
  List.foldl_append

theorem applyAll_unstamps (groups : List (Survey × List Int64)) (owners : List String) (store : TrackStore F) :
    applyAll (groups.map fun group => .unstamp group.1 group.2 owners) store =
      { store with
        stamps := fun member =>
          cleared (groups.any fun group => group.1 == member.1 && group.2.contains member.2) owners
            (store.stamps member) } := by
  induction groups generalizing store with
  | nil => rfl
  | cons group rest ih =>
    rw [List.map_cons, applyAll_cons, ih]
    simp only [apply, cleared_cleared, List.any_cons]

theorem applyAll_aliases (superseded : List String) (id : String) (store : TrackStore F) :
    applyAll (superseded.map fun old => .writeAlias old id) store =
      { store with aliases := superseded.foldl (fun aliases old => aliases.replaceOne old id) store.aliases } := by
  induction superseded generalizing store with
  | nil => rfl
  | cons old rest ih =>
    rw [List.map_cons, applyAll_cons, ih]
    rfl

end TrackWrite

/-! ## A whole commit -/

section Commit

variable [Floating F]

def UpsertPlan.mint (plan : UpsertPlan F) (store : TrackStore F) : String × TrackStore F :=
  match plan.id with
  | some id => (id, store)
  | none => (formatId (store.sequence + 1), { store with sequence := store.sequence + 1 })

omit [Floating F] in
theorem mint_only (plan : UpsertPlan F) (store : TrackStore F) :
    (plan.mint store).2.tracks = store.tracks ∧ (plan.mint store).2.aliases = store.aliases ∧
      (plan.mint store).2.stamps = store.stamps := by
  unfold UpsertPlan.mint
  split <;> exact ⟨rfl, rfl, rfl⟩

def UpsertPlan.writes (plan : UpsertPlan F) (id : String) (now : F) : List (TrackWrite F) :=
  if plan.unchangedSince.isSome then []
  else
    .replace id (plan.stored id now) ::
      ((alertsBySurvey plan.dropped).map fun group => .unstamp group.1 group.2 (id :: plan.superseded)) ++
      if plan.superseded.isEmpty then []
      else .delete plan.superseded :: .repoint plan.superseded id ::
        plan.superseded.map fun old => .writeAlias old id

omit [Floating F] in
theorem deleteMany_none (tracks : Collection String (StoredTrack F)) :
    tracks.deleteMany (fun key _ => ([] : List String).contains key) = tracks := by
  obtain ⟨entries, unique⟩ := tracks
  simp [Collection.deleteMany]

theorem redirect_none (aliases : Collection String String) (id : String) : redirect aliases [] id = aliases := by
  obtain ⟨entries, unique⟩ := aliases
  simp [redirect, Collection.updateMany]

theorem applyAll_writes (store : TrackStore F) (now : F) (plan : UpsertPlan F) (id : String) :
    TrackWrite.applyAll (plan.writes id now) store =
      if plan.unchangedSince.isSome then store
      else { store with
        tracks := (store.tracks.replaceOne id (plan.stored id now)).deleteMany fun key _ =>
          plan.superseded.contains key
        aliases := redirect store.aliases plan.superseded id
        stamps := fun member =>
          TrackWrite.cleared (plan.dropped.contains member) (id :: plan.superseded) (store.stamps member) } := by
  unfold UpsertPlan.writes
  split
  · rfl
  · have dropped (member : Member) : ((alertsBySurvey plan.dropped).any fun group =>
        group.1 == member.1 && group.2.contains member.2) = plan.dropped.contains member := by
      rw [Bool.eq_iff_iff, List.contains_iff_mem, ← mem_alertsBySurvey]
      simp
    simp only [List.cons_append, TrackWrite.applyAll_cons, TrackWrite.applyAll_append,
      TrackWrite.applyAll_unstamps, TrackWrite.apply, dropped]
    split
    next empty =>
      rw [List.isEmpty_iff.mp empty, deleteMany_none, redirect_none]
      rfl
    next =>
      simp only [TrackWrite.applyAll_cons, TrackWrite.applyAll_aliases, TrackWrite.apply]
      rfl

end Commit

end Boom.Utils
