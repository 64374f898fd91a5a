import Boom.Tasks.KowalskiImport

/-! # What a second import completes

A candid in the alert collection was there before the first run, has no cutouts in the
source, has its cutouts stored and was pushed, or is owed by the worker that inserted it.
A run that ends well leaves nothing owed and every known alert in the collection.  But
the next run takes an alert that is already there for a duplicate, whether or not it was
owed when its worker stopped. -/

namespace Boom.Tasks.Kowalski

open Boom.Foundations
open Boom.Enrichment (lpush mem_lpush)

/-! ## The alert insert -/

variable {candids : List Int} {done : Nat} {candid : Int}

theorem insertedCandids_take_succ (at_ : candids[done]? = some candid) (dups : List Nat) :
    insertedCandids (candids.take (done + 1)) dups =
      insertedCandids (candids.take done) dups ++ if dups.contains done then [] else [candid] := by
  obtain ⟨bound, _⟩ := List.getElem?_eq_some_iff.mp at_
  have size : (candids.take done).length = done := by simp; omega
  have cut : candids.take (done + 1) = candids.take done ++ [candid] := by
    rw [List.take_add_one, at_]
    rfl
  rw [insertedCandids, cut, List.zipIdx_append, List.filter_append, List.map_append, size]
  congr 1
  by_cases listed : done ∈ dups <;> simp [listed]

theorem insertedCandids_append (dups : List Nat) :
    insertedCandids (candids.take done) (dups ++ [done]) = insertedCandids (candids.take done) dups := by
  refine congrArg (List.map Prod.fst) (List.filter_congr fun entry member => ?_)
  have bound : entry.2 < done := by
    have inTake := List.snd_lt_of_mem_zipIdx member
    simp at inTake
    omega
  have differs : entry.2 ≠ done := by omega
  simp [differs]

variable {writeErrors : List (Nat × Nat)}

theorem insertManySkipDups_append {done code : Nat} : (insertManySkipDups (writeErrors ++ [(done, code)])).isSome =
      ((insertManySkipDups writeErrors).isSome && decide (code = 11000)) := by
  unfold insertManySkipDups
  rw [List.all_append]
  by_cases duplicate : code = 11000 <;> cases writeErrors.all (·.2 = 11000) <;> simp [duplicate]

theorem insertManySkipDups_some {dups : List Nat}
    (skipped : insertManySkipDups writeErrors = some dups) : dups = writeErrors.map Prod.fst := by
  unfold insertManySkipDups at skipped
  split at skipped
  next => exact (Option.some.inj skipped).symm
  next => cases skipped

theorem ended_of_failed {stage : Stage} (failed : stage.isFailed = true) : stage.ended = true := by
  cases stage <;> first | rfl | cases failed

/-! ## The invariant -/

def Stage.Sound (source : Source) (alerts cutouts : List Int) : Stage → Prop
  | .inserting candids done writeErrors =>
    (∀ entry ∈ writeErrors, entry.1 < done) ∧
    ((insertManySkipDups writeErrors).isSome = true → ∀ candid ∈ candids.take done, candid ∈ alerts)
  | .storing inserted fetched => ∀ candid ∈ inserted, source.hasCutouts candid = true → candid ∈ fetched
  | .pushing toEnqueue => ∀ candid ∈ toEnqueue, candid ∈ cutouts
  | .starting | .collecting _ | .querying _ | .fetching _ | .finished | .failed _ => True

theorem Stage.Sound.mono {source : Source} {alerts cutouts more others : List Int} {stage : Stage}
    (sound : stage.Sound source alerts cutouts) (alertsGrow : ∀ candid ∈ alerts, candid ∈ more)
    (cutoutsGrow : ∀ candid ∈ cutouts, candid ∈ others) : stage.Sound source more others := by
  cases stage with
  | inserting candids done writeErrors =>
    exact ⟨sound.1, fun skipped candid member => alertsGrow candid (sound.2 skipped candid member)⟩
  | pushing toEnqueue => exact fun candid member => cutoutsGrow candid (sound candid member)
  | storing inserted fetched => exact sound
  | _ => trivial

namespace Import

def Tracked (state : Import) (alert : KowalskiZtfAlert) : Prop :=
  alert.candid ∈ state.alerts ∨ alert ∈ state.reader.unread ∨ alert ∈ state.channel ∨
    (∃ stage ∈ state.workers, stage.Waits alert ∨ stage.isFailed = true) ∨
    ∃ error, state.reader = .stopped (some error)

def Settled (source : Source) (initial : List Int) (state : Import) (candid : Int) : Prop :=
  candid ∈ initial ∨ source.hasCutouts candid = false ∨ (candid ∈ state.cutouts ∧ candid ∈ state.pushed) ∨
    ∃ stage ∈ state.workers, candid ∈ stage.owed

structure Kept (source : Source) (always : String → Bool) (initial : List Int) (state : Import) : Prop where
  settled : ∀ candid ∈ state.alerts, state.Settled source initial candid
  sound : ∀ stage ∈ state.workers, stage.Sound source state.alerts state.cutouts
  tracked : state.reader ≠ .idle → ∀ alert ∈ source.alerts, always alert.objectId = true → state.Tracked alert
  drained : Stage.finished ∈ state.workers → state.reader ≠ .idle →
    state.channel = [] ∧ ∃ error, state.reader = .stopped error
  workers : state.reader ≠ .idle → state.workers ≠ []
  rest : state.reader = .idle → ∀ stage ∈ state.workers, stage.ended = true
  imported : Imported source always initial state

variable {params : StreamKowalskiParams} {source : Source} {always : String → Bool} {initial : List Int}
  {state after : Import}

theorem imported_mono (imported : Imported source always initial state) (outcome : after.outcome = state.outcome)
    (alerts : ∀ candid ∈ state.alerts, candid ∈ after.alerts)
    (cutouts : ∀ candid ∈ state.cutouts, candid ∈ after.cutouts)
    (pushed : ∀ candid ∈ state.pushed, candid ∈ after.pushed) : Imported source always initial after := by
  intro ok alert member known isNew has
  obtain ⟨inserted, stored, queued⟩ := imported (outcome ▸ ok) alert member known isNew has
  exact ⟨alerts _ inserted, cutouts _ stored, pushed _ queued⟩

variable {index : Nat}

section

variable (kept : state.Kept source always initial)
include kept

theorem kept_worker {stage next : Stage} (at_ : state.workers[index]? = some stage) (going : stage.ended = false)
    (workers : after.workers = state.workers.set index next) (reader : after.reader = state.reader)
    (outcome : after.outcome = state.outcome) (alerts : ∀ candid ∈ state.alerts, candid ∈ after.alerts)
    (cutouts : ∀ candid ∈ state.cutouts, candid ∈ after.cutouts)
    (pushed : ∀ candid ∈ state.pushed, candid ∈ after.pushed)
    (new : ∀ candid ∈ after.alerts, candid ∈ state.alerts ∨ candid ∈ next.owed)
    (owed : ∀ candid ∈ stage.owed, candid ∈ next.owed ∨ source.hasCutouts candid = false ∨
      (candid ∈ after.cutouts ∧ candid ∈ after.pushed)) (sound : next.Sound source after.alerts after.cutouts)
    (channel : ∀ alert ∈ state.channel, alert ∈ after.channel ∨ next.Waits alert)
    (shrinks : state.channel = [] → after.channel = [])
    (waits : ∀ alert, always alert.objectId = true → stage.Waits alert →
      next.Waits alert ∨ next.isFailed = true ∨ alert.candid ∈ after.alerts)
    (closes : next = .finished → after.channel = [] ∧ ∃ error, state.reader = .stopped error) :
    after.Kept source always initial := by
  obtain ⟨bound, _⟩ := List.getElem?_eq_some_iff.mp at_
  have nextIn : next ∈ after.workers := workers ▸ List.mem_set bound next
  have others : ∀ other ∈ state.workers, other = stage ∨ other ∈ after.workers := by
    intro other member
    obtain ⟨place, found⟩ := List.mem_iff_getElem?.mp member
    by_cases same : index = place
    · subst same
      rw [at_] at found
      exact .inl (Option.some.inj found).symm
    · refine .inr (workers ▸ List.mem_iff_getElem?.mpr ⟨place, ?_⟩)
      rw [List.getElem?_set_ne same]
      exact found
  constructor
  · intro candid member
    rcases new candid member with before | nowOwed
    -- An alert stored before is settled as it was, or owed by this worker or another.
    · rcases kept.settled candid before with old | none | done | ⟨other, inWorkers, isOwed⟩
      · exact .inl old
      · exact .inr (.inl none)
      · exact .inr (.inr (.inl ⟨cutouts _ done.1, pushed _ done.2⟩))
      · rcases others other inWorkers with rfl | still
        · rcases owed candid isOwed with nowOwed | none | done
          · exact .inr (.inr (.inr ⟨next, nextIn, nowOwed⟩))
          · exact .inr (.inl none)
          · exact .inr (.inr (.inl done))
        · exact .inr (.inr (.inr ⟨other, still, isOwed⟩))
    · exact .inr (.inr (.inr ⟨next, nextIn, nowOwed⟩))
  · intro other member
    rw [workers] at member
    rcases List.mem_or_eq_of_mem_set member with before | rfl
    · exact (kept.sound other before).mono alerts cutouts
    · exact sound
  · intro running alert inSource known
    rw [reader] at running
    -- A source alert is stored, unread, queued, held by a worker, or the reader has stopped.
    rcases kept.tracked running alert inSource known with done | unread | queued | ⟨other, inWorkers, holds⟩ | stopped
    · exact .inl (alerts _ done)
    · exact .inr (.inl (reader ▸ unread))
    · rcases channel alert queued with still | held
      · exact .inr (.inr (.inl still))
      · exact .inr (.inr (.inr (.inl ⟨next, nextIn, .inl held⟩)))
    · rcases others other inWorkers with rfl | still
      · rcases holds with held | failed
        · rcases waits alert known held with still | failed | done
          · exact .inr (.inr (.inr (.inl ⟨next, nextIn, .inl still⟩)))
          · exact .inr (.inr (.inr (.inl ⟨next, nextIn, .inr failed⟩)))
          · exact .inl done
        · rw [ended_of_failed failed] at going
          cases going
      · exact .inr (.inr (.inr (.inl ⟨other, still, holds⟩)))
    · exact .inr (.inr (.inr (.inr (reader ▸ stopped))))
  · intro finished running
    rw [reader] at running ⊢
    rw [workers] at finished
    rcases List.mem_or_eq_of_mem_set finished with before | isNext
    · obtain ⟨empty, stopped⟩ := kept.drained before running
      exact ⟨shrinks empty, stopped⟩
    · exact closes isNext.symm
  · exact fun _ => List.ne_nil_of_mem nextIn
  · intro idle
    rw [reader] at idle
    have isOver := kept.rest idle stage (List.mem_of_getElem? at_)
    rw [going] at isOver
    cases isOver
  · exact imported_mono kept.imported outcome alerts cutouts pushed

theorem kept_stage {stage next : Stage} (at_ : state.workers[index]? = some stage) (going : stage.ended = false)
    (owed : ∀ candid ∈ stage.owed, candid ∈ next.owed) (sound : next.Sound source state.alerts state.cutouts)
    (waits : ∀ alert, always alert.objectId = true → stage.Waits alert →
      next.Waits alert ∨ next.isFailed = true ∨ alert.candid ∈ state.alerts)
    (closes : next = .finished → state.channel = [] ∧ ∃ error, state.reader = .stopped error) :
    (state.setStage index next).Kept source always initial :=
  kept_worker kept at_ going rfl rfl rfl (fun _ member => member) (fun _ member => member)
    (fun _ member => member) (fun _ member => .inl member) (fun candid member => .inl (owed candid member)) sound
    (fun _ member => .inl member) id waits closes

theorem kept_query {batch : List KowalskiZtfAlert}
    {known : String → Bool} (at_ : state.workers[index]? = some (.querying batch))
    (includes : ∀ objectId, always objectId = true → known objectId = true) :
    (state.setStage index (if toImport known batch = [] then .collecting []
      else .inserting ((toImport known batch).map (·.candid)) 0 [])).Kept source always initial := by
  have selected : ∀ alert, always alert.objectId = true → alert ∈ batch → alert ∈ toImport known batch :=
    fun alert isKnown member => List.mem_filter.mpr ⟨member, includes _ isKnown⟩
  split
  next none =>
    refine kept_stage kept at_ rfl nofun trivial (fun alert isKnown held => ?_) nofun
    have member := selected alert isKnown held
    rw [none] at member
    cases member
  next =>
    refine kept_stage kept at_ rfl nofun ⟨nofun, fun _ _ member => absurd member (by simp)⟩ ?_ nofun
    intro alert isKnown held
    exact .inl (List.mem_map_of_mem (selected alert isKnown held))

end

/-! ### The insert, document by document -/

theorem owed_dup (at_ : candids[done]? = some candid) (writeErrors : List (Nat × Nat)) (code : Nat) :
    (Stage.inserting candids (done + 1) (writeErrors ++ [(done, code)])).owed =
      (Stage.inserting candids done writeErrors).owed := by
  simp only [Stage.owed, List.map_append, List.map_cons, List.map_nil]
  rw [insertedCandids_take_succ at_, insertedCandids_append]
  simp

theorem owed_new (at_ : candids[done]? = some candid) (below : ∀ entry ∈ writeErrors, entry.1 < done) :
    (Stage.inserting candids (done + 1) writeErrors).owed =
      (Stage.inserting candids done writeErrors).owed ++ [candid] := by
  have absent : (writeErrors.map Prod.fst).contains done = false := by
    rw [List.contains_eq_any_beq, List.any_eq_false]
    intro index member
    obtain ⟨entry, inErrors, rfl⟩ := List.mem_map.mp member
    have less := below entry inErrors
    simp only [beq_iff_eq]
    omega
  simp only [Stage.owed]
  rw [insertedCandids_take_succ at_, absent]
  rfl

theorem mem_take_succ {candid other : Int} (at_ : candids[done]? = some candid)
    (member : other ∈ candids.take (done + 1)) : other ∈ candids.take done ∨ other = candid := by
  rw [List.take_add_one, at_] at member
  simpa using member

theorem mem_drop {candid other : Int} (at_ : candids[done]? = some candid)
    (member : other ∈ candids.drop done) : other = candid ∨ other ∈ candids.drop (done + 1) := by
  obtain ⟨bound, same⟩ := List.getElem?_eq_some_iff.mp at_
  rw [List.drop_eq_getElem_cons bound, same] at member
  exact List.mem_cons.mp member

section

variable (kept : state.Kept source always initial)
include kept

theorem kept_insertOne {index done : Nat} (at_ : state.workers[index]? = some (.inserting candids done writeErrors))
    (next : candids[done]? = some candid) :
    (state.insertOne index candids done writeErrors candid).Kept source always initial := by
  obtain ⟨below, tried⟩ := kept.sound _ (List.mem_of_getElem? at_)
  unfold insertOne
  split
  next present =>
    have skipped : (insertManySkipDups (writeErrors ++ [(done, 11000)])).isSome =
        (insertManySkipDups writeErrors).isSome := by
      rw [insertManySkipDups_append]
      simp
    refine kept_stage kept at_ rfl ?_ ⟨?_, ?_⟩ ?_ nofun
    · intro other member
      rwa [owed_dup next]
    · intro entry member
      rcases List.mem_append.mp member with before | isNew
      · exact Nat.lt_succ_of_lt (below entry before)
      · rw [List.mem_singleton.mp isNew]
        exact Nat.lt_succ_self done
    · intro isSkipped other member
      rcases mem_take_succ next member with before | rfl
      · exact tried (skipped ▸ isSkipped) other before
      · exact present
    · intro alert _ held
      simp only [Stage.Waits, skipped] at held ⊢
      split at held
      next isSkipped =>
        rw [if_pos isSkipped]
        rcases mem_drop next held with same | later
        · exact .inr (.inr (same ▸ present))
        · exact .inl later
      next failing =>
        rw [if_neg failing]
        exact .inl held
  next =>
    refine kept_worker kept at_ rfl rfl rfl rfl (fun _ member => List.mem_append_left _ member)
      (fun _ member => member) (fun _ member => member) ?_ ?_ ⟨?_, ?_⟩ (fun _ member => .inl member) id ?_ nofun
    · intro other member
      rw [owed_new next below]
      exact (List.mem_append.mp member).imp_right (List.mem_append_right _)
    · intro other member
      rw [owed_new next below]
      exact .inl (List.mem_append_left _ member)
    · exact fun entry member => Nat.lt_succ_of_lt (below entry member)
    · intro isSkipped other member
      rcases mem_take_succ next member with before | rfl
      · exact List.mem_append_left _ (tried isSkipped other before)
      · exact List.mem_append_right _ (by simp)
    · intro alert _ held
      simp only [Stage.Waits] at held ⊢
      split at held
      next isSkipped =>
        rw [if_pos isSkipped]
        rcases mem_drop next held with same | later
        · exact .inr (.inr (same ▸ List.mem_append_right _ (by simp)))
        · exact .inl later
      next failing =>
        rw [if_neg failing]
        exact .inl held

theorem kept_refuseOne {index done code : Nat}
    (at_ : state.workers[index]? = some (.inserting candids done writeErrors))
    (next : candids[done]? = some candid) (other : code ≠ 11000) :
    (state.setStage index (.inserting candids (done + 1) (writeErrors ++ [(done, code)]))).Kept
      source always initial := by
  obtain ⟨below, _⟩ := kept.sound _ (List.mem_of_getElem? at_)
  have fails : (insertManySkipDups (writeErrors ++ [(done, code)])).isSome = false := by
    rw [insertManySkipDups_append]
    simp [other]
  refine kept_stage kept at_ rfl ?_ ⟨?_, ?_⟩ ?_ nofun
  · intro other member
    rwa [owed_dup next]
  · intro entry member
    rcases List.mem_append.mp member with before | isNew
    · exact Nat.lt_succ_of_lt (below entry before)
    · rw [List.mem_singleton.mp isNew]
      exact Nat.lt_succ_self done
  · intro isSkipped
    rw [fails] at isSkipped
    cases isSkipped
  · intro alert _ held
    simp only [Stage.Waits, fails] at held ⊢
    split at held
    next => exact .inl (List.mem_of_mem_drop held)
    next => exact .inl held

theorem kept_inserted (at_ : state.workers[index]? = some (.inserting candids candids.length writeErrors)) :
    (state.setStage index (afterInsert candids writeErrors)).Kept source always initial := by
  unfold afterInsert
  split
  next =>
    refine kept_stage kept at_ rfl ?_ trivial (fun _ _ _ => .inr (.inl rfl)) nofun
    intro candid member
    simpa [Stage.owed] using member
  next dups skipped =>
    have same := insertManySkipDups_some skipped
    have none : ∀ alert, ¬ (Stage.inserting candids candids.length writeErrors).Waits alert := by
      intro alert held
      simp [Stage.Waits, skipped] at held
    split
    next empty =>
      refine kept_stage kept at_ rfl ?_ trivial (fun alert _ held => absurd held (none alert)) nofun
      intro candid member
      rw [same] at empty
      simp [Stage.owed, empty] at member
    next =>
      refine kept_stage kept at_ rfl ?_ trivial (fun alert _ held => absurd held (none alert)) nofun
      intro candid member
      rw [same]
      simpa [Stage.owed] using member

/-! ### Cutouts and the queue -/

theorem kept_store (enrich : params.enrich = true)
    {inserted fetched : List Int} (at_ : state.workers[index]? = some (.storing inserted fetched)) :
    ({ state.setStage index (afterStore params inserted fetched) with
        cutouts := state.cutouts ++ fetched } : Import).Kept source always initial := by
  have complete := kept.sound _ (List.mem_of_getElem? at_)
  -- what the source has cutouts of is pushed next
  have owed : ∀ candid ∈ inserted, candid ∈ (afterStore params inserted fetched).owed ∨
      source.hasCutouts candid = false := by
    intro candid member
    cases has : source.hasCutouts candid with
    | false => exact .inr rfl
    | true =>
      have enqueued : candid ∈ inserted.filter fetched.contains :=
        List.mem_filter.mpr ⟨member, by simpa using complete candid member has⟩
      refine .inl ?_
      unfold afterStore
      rw [if_neg (by simp [enrich, List.ne_nil_of_mem enqueued])]
      exact enqueued
  refine kept_worker kept at_ rfl rfl rfl rfl (fun _ member => member)
    (fun _ member => List.mem_append_left _ member) (fun _ member => member) (fun _ member => .inl member)
    ?_ ?_ (fun _ member => .inl member) id nofun ?_
  · exact fun candid member => (owed candid member).imp_right .inl
  · unfold afterStore
    dsimp only
    split
    next => trivial
    next =>
      intro candid member
      have inFetched : candid ∈ fetched := by simpa using (List.mem_filter.mp member).2
      exact List.mem_append_right _ inFetched
  · unfold afterStore
    dsimp only
    intro finished
    split at finished <;> cases finished

theorem kept_push {toEnqueue : List Int} (at_ : state.workers[index]? = some (.pushing toEnqueue)) {next : Stage}
    (sound : ∀ alerts cutouts, next.Sound source alerts cutouts) (going : next ≠ .finished) :
    ({ state.setStage index next with pushed := lpush toEnqueue state.pushed } : Import).Kept
      source always initial := by
  have stored := kept.sound _ (List.mem_of_getElem? at_)
  refine kept_worker kept at_ rfl rfl rfl rfl (fun _ member => member) (fun _ member => member)
    (fun _ member => mem_lpush.mpr (.inr member)) (fun _ member => .inl member) ?_ (sound _ _)
    (fun _ member => .inl member) id nofun (fun finished => absurd finished going)
  exact fun candid member => .inr (.inr ⟨stored candid member, mem_lpush.mpr (.inl member)⟩)

/-! ## The reader, and the end of a run -/

theorem kept_reader (reader : Reader) (channel : List KowalskiZtfAlert)
    (going : state.reader ≠ .idle) (open_ : ∀ error, state.reader ≠ .stopped error) (running : reader ≠ .idle)
    (more : ∀ alert ∈ state.channel, alert ∈ channel)
    (unread : ∀ alert ∈ state.reader.unread, alert ∈ reader.unread ∨ alert ∈ channel ∨
      ∃ error, reader = .stopped (some error)) :
    ({ state with reader, channel } : Import).Kept source always initial where
  settled := kept.settled
  sound := kept.sound
  tracked := by
    intro _ alert member known
    rcases kept.tracked going alert member known with done | notRead | queued | held | ⟨error, stopped⟩
    · exact .inl done
    · rcases unread alert notRead with still | sent | stopped
      · exact .inr (.inl still)
      · exact .inr (.inr (.inl sent))
      · exact .inr (.inr (.inr (.inr stopped)))
    · exact .inr (.inr (.inl (more alert queued)))
    · exact .inr (.inr (.inr (.inl held)))
    · exact absurd stopped (open_ _)
  drained := by
    intro finished _
    obtain ⟨_, error, stopped⟩ := kept.drained finished going
    exact absurd stopped (open_ error)
  workers := fun _ => kept.workers going
  rest := fun idle => absurd idle running
  imported := imported_mono kept.imported rfl (fun _ member => member) (fun _ member => member) fun _ member => member

theorem kept_submit (idle : state.reader = .idle) (noneLost : NoneLost source state) {stream : List KowalskiZtfAlert}
    (whole : ∀ alert, alert ∈ stream ↔ alert ∈ source.alerts) :
    (state.submit params stream).Kept source always initial where
  settled := by
    intro candid member
    rcases kept.settled candid member with old | none | done | ⟨stage, inWorkers, isOwed⟩
    · exact .inl old
    · exact .inr (.inl none)
    · exact .inr (.inr (.inl done))
    · -- the workers of the run before have ended
      have isOver := kept.rest idle stage inWorkers
      cases stage with
      | failed lost => exact .inr (.inl (noneLost _ inWorkers lost rfl candid isOwed))
      | finished => cases isOwed
      | _ => cases isOver
  sound := by
    intro stage member
    rw [(List.mem_replicate.mp member).2]
    trivial
  tracked := fun _ alert member _ => .inr (.inl ((whole alert).mpr member))
  drained := by
    intro finished
    cases (List.mem_replicate.mp finished).2
  workers := by
    intro _ none
    have empty : params.nWorkers = 0 := by simpa [submit] using none
    exact absurd empty (Nat.ne_of_gt params.validWorkers.1)
  rest := nofun
  imported := nofun

theorem kept_abandon {outcome : Outcome} (notOk : outcome ≠ .ok) :
    (state.abandon outcome).Kept source always initial where
  settled := by
    intro candid member
    rcases kept.settled candid member with old | none | done | ⟨stage, inWorkers, isOwed⟩
    · exact .inl old
    · exact .inr (.inl none)
    · exact .inr (.inr (.inl done))
    · exact .inr (.inr (.inr ⟨.failed stage.owed, List.mem_map_of_mem inWorkers, isOwed⟩))
  sound := by
    intro stage member
    obtain ⟨_, _, rfl⟩ := List.mem_map.mp member
    trivial
  tracked := fun running => absurd rfl running
  drained := fun _ running => absurd rfl running
  workers := fun running => absurd rfl running
  rest := by
    intro _ stage member
    obtain ⟨_, _, rfl⟩ := List.mem_map.mp member
    rfl
  imported := fun ok => absurd (Option.some.inj ok) notOk

theorem kept_conclude {error : Option ReadError}
    (stopped : state.reader = .stopped error) (ended : ∀ stage ∈ state.workers, stage.ended = true) :
    (state.conclude error).Kept source always initial where
  settled := kept.settled
  sound := kept.sound
  tracked := fun running => absurd rfl running
  drained := fun _ running => absurd rfl running
  workers := fun running => absurd rfl running
  rest := fun _ => ended
  imported := by
    intro ok alert member known isNew has
    have running : state.reader ≠ .idle := by simp [stopped]
    -- only a run without an error of its own or of a worker ends well
    have well : error = none ∧ state.workers.any Stage.isFailed = false := by
      simp only [conclude, Option.some.injEq] at ok
      cases error with
      | some error => cases error <;> cases ok
      | none =>
        cases failed : state.workers.any Stage.isFailed with
        | false => exact ⟨rfl, rfl⟩
        | true => simp [failed] at ok
    have allFinished : ∀ stage ∈ state.workers, stage = .finished := by
      intro stage inWorkers
      have isOver := ended stage inWorkers
      have intact := List.any_eq_false.mp well.2 stage inWorkers
      cases stage with
      | finished => rfl
      | failed lost => exact absurd rfl intact
      | _ => cases isOver
    obtain ⟨worker, inWorkers⟩ := List.exists_mem_of_ne_nil _ (kept.workers running)
    have drained := (kept.drained (allFinished worker inWorkers ▸ inWorkers) running).1
    have inserted : alert.candid ∈ state.alerts := by
      rcases kept.tracked running alert member known with done | unread | queued | ⟨stage, held, waits⟩ | ⟨other, early⟩
      · exact done
      · rw [stopped] at unread
        cases unread
      · rw [drained] at queued
        cases queued
      · rw [allFinished stage held] at waits
        rcases waits with waits | failed
        · cases waits
        · cases failed
      · rw [stopped, well.1] at early
        cases early
    refine ⟨inserted, ?_⟩
    rcases kept.settled _ inserted with old | none | done | ⟨stage, held, isOwed⟩
    · exact absurd old isNew
    · rw [has] at none
      cases none
    · exact done
    · rw [allFinished stage held] at isOwed
      cases isOwed

end

/-! ## Runs -/

theorem kept_step (enrich : params.enrich = true) (kept : state.Kept source always initial)
    (noneLost : NoneLost source state) (step : Step params source always state after) :
    after.Kept source always initial := by
  cases step with
  | submit idle whole => exact kept_submit kept idle noneLost whole
  | openFails _ => exact kept_abandon kept nofun
  | opened opening =>
    refine kept_reader kept _ state.channel (by simp [opening]) (by simp [opening]) nofun (fun _ member => member) ?_
    rw [opening]
    exact fun alert member => .inl member
  | cancel reading =>
    exact kept_reader kept _ state.channel (by simp [reading]) (by simp [reading]) nofun (fun _ member => member)
      fun _ _ => .inr (.inr ⟨_, rfl⟩)
  | read reading =>
    refine kept_reader kept _ state.channel (by simp [reading]) (by simp [reading]) nofun (fun _ member => member) ?_
    rw [reading]
    exact fun alert member => .inl member
  | @send alert unread sending _ _ =>
    refine kept_reader kept _ (state.channel ++ [alert]) (by simp [sending]) (by simp [sending]) nofun
      (fun _ member => List.mem_append_left _ member) ?_
    rw [sending]
    intro other member
    rcases List.mem_cons.mp member with rfl | later
    · exact .inr (.inl (by simp))
    · exact .inl later
  | refuse sending gone =>
    exact {
      settled := kept.settled
      sound := kept.sound
      tracked := fun running => absurd rfl running
      drained := fun _ running => absurd rfl running
      workers := fun running => absurd rfl running
      rest := fun _ => gone
      imported := nofun }
  | cursorFails reading =>
    exact kept_reader kept _ state.channel (by simp [reading]) (by simp [reading]) nofun (fun _ member => member)
      fun _ _ => .inr (.inr ⟨_, rfl⟩)
  | exhausted reading =>
    refine kept_reader kept _ state.channel (by simp [reading]) (by simp [reading]) nofun (fun _ member => member) ?_
    rw [reading]
    exact nofun
  | conclude stopped ended => exact kept_conclude kept stopped ended
  | crash => exact kept_abandon kept nofun
  | start at_ => exact kept_stage kept at_ rfl nofun trivial nofun nofun
  | @collect index batch rest alert at_ head _ =>
    refine kept_worker kept at_ rfl rfl rfl rfl (fun _ member => member) (fun _ member => member)
      (fun _ member => member) (fun _ member => .inl member) nofun trivial ?_ ?_ ?_ nofun
    · intro other member
      rw [head] at member
      rcases List.mem_cons.mp member with rfl | later
      · exact .inr (List.mem_append_right _ (by simp))
      · exact .inl later
    · intro empty
      rw [head] at empty
      cases empty
    · exact fun other _ held => .inl (List.mem_append_left _ held)
  | collected at_ _ _ => exact kept_stage kept at_ rfl nofun trivial (fun _ _ held => .inl held) nofun
  | close at_ empty stopped =>
    exact kept_stage kept at_ rfl nofun trivial nofun fun _ => ⟨empty, _, stopped⟩
  | query at_ includes => exact kept_query kept at_ includes
  | insertOne at_ next => exact kept_insertOne kept at_ next
  | refuseOne at_ next other => exact kept_refuseOne kept at_ next other
  | inserted at_ => exact kept_inserted kept at_
  | fetch at_ =>
    refine kept_stage kept at_ rfl (fun _ member => member) ?_ nofun nofun
    exact fun candid member has => List.mem_filter.mpr ⟨member, has⟩
  | store at_ => exact kept_store kept enrich at_
  | push at_ => exact kept_push kept at_ (fun _ _ => trivial) nofun
  | fail at_ going _ =>
    exact kept_worker kept at_ going rfl rfl rfl (fun _ member => member)
      (fun _ member => List.mem_append_left _ member) (fun _ member => member) (fun _ member => .inl member)
      (fun _ member => .inl member) trivial (fun _ member => .inl member) id (fun _ _ _ => .inr (.inl rfl)) nofun
  | pushUnanswered at_ => exact kept_push kept at_ (fun _ _ => trivial) nofun

/-- While no worker is stopped between an insert and its push, a run that ends well
    completes the import. -/
theorem imported_of_whole (enrich : params.enrich = true)
    (reachable : Reachable (Starts initial) (WholeStep params source always) state) :
    Imported source always initial state := by
  have kept : state.Kept source always initial := by
    refine reachable.invariant (fun state => state.Kept source always initial) ?_ ?_
    · intro state starts
      refine ⟨fun candid member => .inl (starts.alerts ▸ member), ?_, ?_, ?_, ?_, ?_, ?_⟩
      · simp [starts.workers]
      · exact fun running => absurd starts.reader running
      · exact fun _ running => absurd starts.reader running
      · exact fun running => absurd starts.reader running
      · simp [starts.workers]
      · simp [Imported, starts.outcome]
    · exact fun _ _ _ kept step => kept_step enrich kept step.2 step.1
  exact kept.imported

/-! ### An interrupted run and another one -/

def oneByOne : StreamKowalskiParams := ⟨true, 1, 1, by decide, by decide⟩

def oneAlert : KowalskiZtfAlert := ⟨1, "ZTF18aaaaaaa"⟩

def kowalski : Source := ⟨[oneAlert], fun _ => true⟩

def allKnown : String → Bool := fun _ => true

def untouched : Import := ⟨[], [], [], .idle, [], [], none⟩

def working (state : Import) (stage : Stage) : Import :=
  { state with reader := .reading [], channel := [], workers := [stage], outcome := none }

variable {allowed : Import → Prop}

theorem reachable_working
    (early : ∀ (state : Import) stage, state.workers = [stage] → stage.isFailed = false → allowed state)
    (reachable : Reachable (Starts []) (fun state after => Step oneByOne kowalski allKnown state after ∧ allowed state)
      state) (idle : state.reader = .idle) (ready : allowed state) :
    Reachable (Starts []) (fun state after => Step oneByOne kowalski allKnown state after ∧ allowed state)
      (working state (.inserting [1] 0 [])) := by
  have submitted := reachable.next ⟨@Step.submit _ _ _ _ [oneAlert] idle (fun _ => Iff.rfl), ready⟩
  have opened := submitted.next ⟨.opened rfl, early _ _ rfl rfl⟩
  have read := opened.next ⟨.read rfl, early _ _ rfl rfl⟩
  have sent := read.next ⟨.send rfl (by simp [submit, oneByOne]) ⟨_, .head _, rfl⟩, early _ _ rfl rfl⟩
  have started := sent.next ⟨@Step.start _ _ _ _ 0 rfl, early _ _ rfl rfl⟩
  have taken := started.next ⟨@Step.collect _ _ _ _ 0 _ _ _ rfl rfl (.inl rfl), early _ _ rfl rfl⟩
  have full := taken.next ⟨@Step.collected _ _ _ _ 0 _ rfl nofun (.inl (Nat.le_refl 1)), early _ _ rfl rfl⟩
  have known := full.next ⟨@Step.query _ _ _ _ 0 _ allKnown rfl (fun _ known => known), early _ _ rfl rfl⟩
  exact known

theorem reachable_ended (state : Import)
    (early : ∀ (state : Import) stage, state.workers = [stage] → stage.isFailed = false → allowed state)
    (reachable : Reachable (Starts []) (fun state after => Step oneByOne kowalski allKnown state after ∧ allowed state)
      (working state (.collecting []))) :
    Reachable (Starts []) (fun state after => Step oneByOne kowalski allKnown state after ∧ allowed state)
      { state with reader := .idle, channel := [], workers := [.finished], outcome := some .ok } := by
  have isOver := reachable.next ⟨.exhausted rfl, early _ _ rfl rfl⟩
  have closed := isOver.next ⟨@Step.close _ _ _ _ 0 _ rfl rfl rfl, early _ _ rfl rfl⟩
  have allEnded : ∀ stage ∈ [Stage.finished], stage.ended = true := by decide
  have done := closed.next ⟨.conclude rfl allEnded, early _ _ rfl rfl⟩
  exact done

def completed : Import := ⟨[1], [1], [1], .idle, [], [.finished], some .ok⟩

theorem early_whole (state : Import) (stage : Stage) (only : state.workers = [stage])
    (intact : stage.isFailed = false) : NoneLost kowalski state := by
  rintro other member lost rfl
  rw [only] at member
  rw [← List.mem_singleton.mp member] at intact
  cases intact

theorem reachable_completed : Reachable (Starts []) (WholeStep oneByOne kowalski allKnown) completed := by
  have start : Reachable (Starts []) (WholeStep oneByOne kowalski allKnown) untouched := .start ⟨rfl, rfl, rfl, rfl⟩
  have first := reachable_working early_whole start rfl nofun
  have crashed := first.next ⟨.crash, early_whole _ _ rfl rfl⟩
  have nothingOwed : NoneLost kowalski ((working untouched (.inserting [1] 0 [])).abandon .crashed) := by
    rintro stage member lost same candid owed
    have shape : stage = .failed [] := List.mem_singleton.mp member
    rw [shape] at same
    cases same
    cases owed
  have second := reachable_working early_whole crashed rfl nothingOwed
  have inserted := second.next ⟨@Step.insertOne _ _ _ _ 0 _ _ _ _ rfl rfl, early_whole _ _ rfl rfl⟩
  have answered := inserted.next ⟨@Step.inserted _ _ _ _ 0 _ _ rfl, early_whole _ _ rfl rfl⟩
  have fetched := answered.next ⟨@Step.fetch _ _ _ _ 0 _ rfl, early_whole _ _ rfl rfl⟩
  have stored := fetched.next ⟨@Step.store _ _ _ _ 0 _ _ rfl, early_whole _ _ rfl rfl⟩
  have pushed := stored.next ⟨@Step.push _ _ _ _ 0 _ rfl, early_whole _ _ rfl rfl⟩
  exact reachable_ended completed early_whole pushed

theorem imported_of_whole_completed : Imported kowalski allKnown [] completed :=
  imported_of_whole rfl reachable_completed

def leftBehind : Import := ⟨[1], [], [], .idle, [], [.finished], some .ok⟩

theorem reachable_leftBehind : Reachable (Starts []) (Step oneByOne kowalski allKnown) leftBehind := by
  have early : ∀ (state : Import) stage, state.workers = [stage] → stage.isFailed = false → True :=
    fun _ _ _ _ => trivial
  have start : Reachable (Starts []) (fun state after => Step oneByOne kowalski allKnown state after ∧ True)
      untouched := .start ⟨rfl, rfl, rfl, rfl⟩
  have first := reachable_working early start rfl trivial
  have inserted := first.next ⟨@Step.insertOne _ _ _ _ 0 _ _ _ _ rfl rfl, trivial⟩
  have crashed := inserted.next ⟨.crash, trivial⟩
  have second := reachable_working early crashed rfl trivial
  have found := second.next ⟨@Step.insertOne _ _ _ _ 0 _ _ _ _ rfl rfl, trivial⟩
  have skipped := found.next ⟨@Step.inserted _ _ _ _ 0 _ _ rfl, trivial⟩
  exact (reachable_ended leftBehind early skipped).mono fun _ _ step => step.1

/-- A rerun does not complete the import: the alert has no cutouts and was never queued. -/
theorem duplicate_left_behind :
    ¬ ∀ params source always initial state, params.enrich = true →
      Reachable (Starts initial) (Step params source always) state → Imported source always initial state := by
  intro holds
  have imported := holds oneByOne kowalski allKnown [] leftBehind rfl reachable_leftBehind rfl oneAlert
    (by simp [kowalski]) rfl (by simp) rfl
  exact absurd imported.2.1 (by simp [leftBehind])

end Import

end Boom.Tasks.Kowalski
