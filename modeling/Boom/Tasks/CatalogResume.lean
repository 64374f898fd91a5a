import Boom.Tasks.CatalogCheckpoint

/-! # Runs that resume

Whatever the order of the workers and wherever the process stops, the stored
checkpoint claims no more than was done, and a run that resumes from it collects the
matches a run without interruption would have collected.  This takes that a run that
starts over drops the buffer only where no checkpoint claims anything of it. -/

namespace Boom.Tasks.Crossmatch

open Boom.Foundations

variable {Id Aux : Type} [LinearOrder Id]

/-! ## The checkpoint goes forward -/

def System.NotBehind (system after : System Id Aux) : Prop :=
  system.starts < after.starts ∨ after.starts = system.starts ∧
    ∀ stored ∈ system.state.checkpoint, ∃ last ∈ after.state.checkpoint, stored ≤ last

theorem System.NotBehind.refl (system : System Id Aux) : system.NotBehind system :=
  .inr ⟨rfl, fun stored isStored => ⟨stored, isStored, le_refl stored⟩⟩

theorem System.NotBehind.trans {first second third : System Id Aux} (earlier : first.NotBehind second)
    (later : second.NotBehind third) : first.NotBehind third := by
  rcases earlier with new | ⟨same, grown⟩
  · rcases later with newer | ⟨same', _⟩
    · exact .inl (by omega)
    · exact .inl (by omega)
  · rcases later with newer | ⟨same', grown'⟩
    · exact .inl (by omega)
    · refine .inr ⟨same'.trans same, fun stored isStored => ?_⟩
      obtain ⟨middle, isMiddle, upTo⟩ := grown stored isStored
      obtain ⟨last, isLast, upTo'⟩ := grown' middle isMiddle
      exact ⟨last, isLast, le_trans upTo upTo'⟩

variable [DecidableEq Aux] {catalog : Catalog Id Aux} {system after : System Id Aux}

theorem System.takeMatching_checkpoint {matching : Matching Id Aux}
    {action : MatchAction Id Aux} (taken : system.takeMatching catalog matching action = some after) :
    after.starts = system.starts ∧ (after.state.checkpoint = system.state.checkpoint ∨
      ∃ slot last, matching.workers slot = .recording last ∧ after.state.checkpoint = some last) := by
  cases action <;> grind [System.takeMatching, System.feed, System.inMatching, System.inserted,
    System.checkpointed, System.completePage]

variable {action : Action Id Aux}

theorem System.take_checkpoint (taken : system.take catalog action = some after) :
    after.starts = system.starts + 1 ∨ after.starts = system.starts ∧
      (after.state.checkpoint = system.state.checkpoint ∨ ∃ matching slot last,
        system.phase = .matching matching ∧ matching.workers slot = .recording last ∧
          after.state.checkpoint = some last) := by
  cases action with
  | matching action =>
    cases phase : system.phase with
    | matching matching =>
      simp only [System.take, phase] at taken
      obtain ⟨starts, same | ⟨slot, last, recording, written⟩⟩ := System.takeMatching_checkpoint taken
      · exact .inr ⟨starts, .inl same⟩
      · exact .inr ⟨starts, .inr ⟨matching, slot, last, rfl, recording, written⟩⟩
    | _ => simp [System.take, phase] at taken
  | _ => grind [System.take, System.launched, System.concluded, System.mergedGroup, System.merged, System.statused,
      Option.map_eq_some_iff]

theorem System.Kept.notBehind (kept : system.Kept catalog) (taken : system.take catalog action = some after) :
    system.NotBehind after := by
  rcases System.take_checkpoint taken with started | ⟨starts, same | ⟨matching, slot, last, phase, recording, written⟩⟩
  · exact .inl (by omega)
  · exact .inr ⟨starts, fun stored isStored => ⟨stored, same ▸ isStored, le_refl stored⟩⟩
  · obtain ⟨popped, pending, progress⟩ := kept.progress phase
    exact .inr ⟨starts, fun stored isStored => ⟨last, written, (progress.record recording).2 stored isStored⟩⟩

/-! ## Restarts -/

def claimsNothing (system : System Id Aux) : Action Id Aux → Bool
  | .dropBuffer => system.state.status ≠ some .matching ∨ system.state.checkpoint = none
  | _ => true

structure System.Sound (catalog : Catalog Id Aux) (system : System Id Aux) : Prop where
  kept : system.Kept catalog
  wiped : system.wiped = true → system.state.status = some .matching → system.state.checkpoint = none

theorem System.takeMatching_unwiped {matching : Matching Id Aux}
    {action : MatchAction Id Aux} (taken : system.takeMatching catalog matching action = some after) :
    after.wiped = false := by
  cases action <;> grind [System.takeMatching, System.feed, System.inMatching, System.completePage,
    System.wiped]

theorem System.take_wiped (taken : system.take catalog action = some after) (wiped : after.wiped = true) :
    after.state = system.state ∧ (action = .dropBuffer ∨ system.wiped = true) := by
  cases action with
  | matching action =>
    cases phase : system.phase with
    | matching matching =>
      simp only [System.take, phase] at taken
      rw [System.takeMatching_unwiped taken] at wiped
      cases wiped
    | _ => simp [System.take, phase] at taken
  | _ => grind [System.take, System.wiped, System.launched, System.concluded, System.mergedGroup, System.merged, System.statused,
      Option.map_eq_some_iff]

variable {system : System Id Aux}

theorem System.Sound.start (initial : system.Initial) : system.Sound catalog where
  kept := .start initial
  wiped wiped := by simp [System.wiped, initial.1] at wiped

theorem System.Sound.take (sound : system.Sound catalog) (careful : claimsNothing system action = true)
    (taken : system.take catalog action = some after) : after.Sound catalog := by
  refine ⟨sound.kept.take (fun _ => sound.wiped) taken, fun wiped isMatching => ?_⟩
  obtain ⟨same, rfl | before⟩ := System.take_wiped taken wiped
  · rw [same] at isMatching ⊢
    simpa [claimsNothing, isMatching] using careful
  · rw [same] at isMatching ⊢
    exact sound.wiped before isMatching

theorem sound_of_reached (reached : Reachable System.Initial (System.Step catalog claimsNothing) system) :
    system.Sound catalog := by
  refine reached.invariant _ (fun _ initial => .start initial) fun state after _ sound step => ?_
  obtain ⟨action, careful, taken⟩ := step
  exact sound.take careful taken

/-! ## What a checkpoint claims -/

def System.CheckpointCovered (catalog : Catalog Id Aux) (system : System Id Aux) : Prop :=
  ∀ runStartJd last, system.state.status = some .matching → system.state.runStartJd = some runStartJd →
    system.state.checkpoint = some last → ∀ row ∈ catalog.rows, row ≤ last →
      ∀ aux, system.Finds catalog runStartJd aux row → (aux, row) ∈ system.buffer

def System.MatchedAll (catalog : Catalog Id Aux) (system : System Id Aux) : Prop :=
  ∀ run, system.phase = .matched run true →
    ∀ aux row, (aux, row) ∈ system.buffer ↔ system.Finds catalog run.runStartJd aux row

theorem System.Sound.covered (sound : system.Sound catalog) :
    system.CheckpointCovered catalog := by
  intro runStartJd last isMatching stored isLast row listed upTo aux hit
  cases wiped : system.wiped with
  | false => exact sound.kept.covered _ isMatching stored wiped last isLast row listed upTo aux hit
  | true =>
    rw [sound.wiped wiped isMatching] at isLast
    cases isLast

theorem System.Kept.matchedAll (kept : system.Kept catalog) :
    system.MatchedAll catalog := by
  intro run phase aux row
  have process := kept.process
  rw [phase] at process
  obtain ⟨status, stored, buffered⟩ := process
  constructor
  · intro member
    exact kept.sound _ ⟨.inl status, stored⟩ (aux, row) member
  · intro hit
    exact buffered rfl row hit.1 aux hit

structure System.Resumable (catalog : Catalog Id Aux)
    (permit : System Id Aux → Action Id Aux → Bool) (system : System Id Aux) : Prop where
  covered : system.CheckpointCovered catalog
  forward : ∀ after, Relation.ReflTransGen (System.Step catalog permit) system after →
    after.starts = system.starts → ∀ stored ∈ system.state.checkpoint,
      ∃ last ∈ after.state.checkpoint, stored ≤ last
  matched : system.MatchedAll catalog

theorem checkpoint_claims_done {system : System Id Aux}
    (reached : Reachable System.Initial (System.Step catalog claimsNothing) system) :
    system.Resumable catalog claimsNothing where
  covered := (sound_of_reached reached).covered
  forward after run same := by
    have grown : system.NotBehind after := by
      refine Reachable.grows _ System.NotBehind.refl (fun _ _ _ => System.NotBehind.trans) ?_ reached run
      intro before next reached' step
      obtain ⟨action, _, taken⟩ := step
      exact (sound_of_reached reached').kept.notBehind taken
    rcases grown with newer | ⟨_, forward⟩
    · omega
    · exact forward
  matched := (sound_of_reached reached).kept.matchedAll

/-! ## A restart over a checkpoint -/

def oneRow : Catalog Nat String where
  rows := [1]
  sorted := List.pairwise_singleton _ 1
  near _ _ := true
  sortedMatches := id

def oneRecord : System Nat String where
  records := ⟨[("object", { createdAt := some ⟨0⟩, crossMatches := some [1], legacyTemp := false })], by simp⟩
  state := { status := none, runStartJd := none, checkpoint := none }
  starts := 0
  buffer := []
  grouped := []
  options := { batchSize := 1, processes := 1, skipEmpty := false }
  canceled := false
  phase := .idle

theorem initial_oneRecord : oneRecord.Initial := ⟨rfl, nofun, nofun⟩

def firstPage : List (Action Nat String) :=
  [.launch false oneRecord.options, .dropBuffer, .dropGrouped, .saveFresh ⟨1⟩, .matching .feed, .matching .send,
    .matching (.receive 0), .matching (.matchPage 0), .matching (.insert 0 ("object", 1)),
    .matching (.inserted 0), .matching (.complete 0), .matching (.record 0 .answered)]

def restarted : List (Action Nat String) := [.halt, .launch true oneRecord.options, .dropBuffer, .halt]

def matchedFirst : System Nat String :=
  (oneRecord.run oneRow claimsNothing firstPage).getD oneRecord

theorem run_firstPage : oneRecord.run oneRow claimsNothing firstPage = some matchedFirst := by rfl

theorem reached_matchedFirst :
    Reachable System.Initial (System.Step oneRow claimsNothing) matchedFirst :=
  System.reach_run (.start initial_oneRecord) run_firstPage

def droppedFirst : System Nat String :=
  (matchedFirst.run oneRow (fun _ _ => true) restarted).getD matchedFirst

theorem run_restarted : matchedFirst.run oneRow (fun _ _ => true) restarted = some droppedFirst := by rfl

theorem checkpoint_without_matches : ¬ ∀ system : System Nat String,
    Reachable System.Initial (System.Step oneRow fun _ _ => true) system →
      system.Resumable oneRow fun _ _ => true := by
  intro always
  have matched := reached_matchedFirst.mono fun _ _ => System.Step.unrestricted
  have dropped := System.reach_run matched run_restarted
  have claimed := (always droppedFirst dropped).covered ⟨1⟩ 1 rfl rfl rfl 1 (List.mem_singleton.mpr rfl)
    (le_refl 1) "object" ⟨List.mem_singleton.mpr rfl, rfl, _, rfl, rfl⟩
  cases claimed

theorem checkpoint_claims_done_matchedFirst : matchedFirst.state.checkpoint = some 1 ∧
    matchedFirst.Resumable oneRow claimsNothing :=
  ⟨by rfl, checkpoint_claims_done reached_matchedFirst⟩

end Boom.Tasks.Crossmatch
