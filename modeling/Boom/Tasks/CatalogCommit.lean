import Boom.Tasks.CatalogResume
import Mathlib.Data.List.Dedup

/-! # What is committed

While the stored state says `committing`, and whenever the second phase writes the
matches of a record, the buffer holds every match there is.  So a record gets the list
of all rows that match it, and an empty list only if none does.

A run breaks this in three ways: the first phase also ends well when it was canceled
with rows left to feed; a run that starts over can drop the buffer of one that is
committing; and it can stop after dropping the buffer of one with a checkpoint. -/

namespace Boom.Tasks.Crossmatch

open Boom.Foundations

variable {Id Aux : Type}

/-! ## What ends the first phase -/

def Matching.Lost (processes : Nat) (matching : Matching Id Aux) : Prop :=
  matching.producer = .ended false → ∃ slot < processes, matching.workers slot = .failed

variable [LinearOrder Id] [DecidableEq Aux] {catalog : Catalog Id Aux}

def leavesNothingOut (catalog : Catalog Id Aux) (system : System Id Aux) : Action Id Aux → Bool
  | .matching .feed =>
    match system.phase with
    | .matching matching => !system.canceled || (catalog.after matching.lastId).isEmpty
    | _ => true
  | .dropBuffer => system.state.status ≠ some .committing
  | .halt => !system.wiped || system.state.status ≠ some .matching || system.state.checkpoint = none
  | _ => true

variable {system after : System Id Aux} {matching next : Matching Id Aux} {action : MatchAction Id Aux}

theorem System.takeMatching_failed (taken : system.takeMatching catalog matching action = some after)
    (phase : after.phase = .matching next) {slot : Nat} (failed : matching.workers slot = .failed) :
    next.workers slot = .failed := by
  cases action <;> grind [System.takeMatching, System.feed, System.inMatching, System.inserted,
    System.checkpointed, System.completePage, Matching.workers_setWorker, Worker.isOver]

theorem System.takeMatching_ended (taken : system.takeMatching catalog matching action = some after)
    (phase : after.phase = .matching next) (ended : next.producer = .ended false) :
    matching.producer = .ended false ∨
      (action = .feed ∧ system.canceled = true ∧ (catalog.after matching.lastId).isEmpty = false) ∨
      ∃ page, matching.producer = .sending page ∧ matching.allOver system.options.processes = true := by
  cases action <;> grind [System.takeMatching, System.feed, System.inMatching, System.inserted,
    System.checkpointed, System.completePage, Matching.setWorker]

theorem System.takeMatching_options {matching : Matching Id Aux}
    (taken : system.takeMatching catalog matching action = some after) :
    after.options = system.options := by
  cases action <;> grind [System.takeMatching, System.feed, System.inMatching, System.inserted,
    System.checkpointed, System.completePage]

theorem System.Kept.lost (kept : system.Kept catalog) (phase : system.phase = .matching matching)
    (lost : matching.Lost system.options.processes)
    (permitted : leavesNothingOut catalog system (.matching action) = true)
    (taken : system.takeMatching catalog matching action = some after) (phase' : after.phase = .matching next) :
    next.Lost after.options.processes := by
  intro ended
  have failed : ∃ slot < system.options.processes, matching.workers slot = .failed := by
    rcases System.takeMatching_ended taken phase' ended with before | ⟨rfl, canceled, left⟩ | ⟨page, sending, allOver⟩
    · exact lost before
    · simp [leavesNothingOut, phase, canceled, left] at permitted
    · obtain ⟨popped, pending, progress⟩ := kept.progress phase
      exact ⟨0, progress.positive, progress.failed sending allOver⟩
  obtain ⟨slot, below, failed⟩ := failed
  exact ⟨slot, System.takeMatching_options taken ▸ below, System.takeMatching_failed taken phase' failed⟩

/-! ## The invariant -/

def System.BufferComplete (catalog : Catalog Id Aux) (system : System Id Aux) : Prop :=
  ∀ runStartJd, system.state.runStartJd = some runStartJd →
    Buffered (system.Finds catalog runStartJd) system.buffer catalog.rows

structure System.Whole (catalog : Catalog Id Aux) (system : System Id Aux) : Prop where
  kept : system.Kept catalog
  committing : system.state.status = some .committing → system.BufferComplete catalog
  lost : ∀ matching, system.phase = .matching matching → matching.Lost system.options.processes
  matched : ∀ run exhausted, system.phase = .matched run exhausted → exhausted = true

variable {action : Action Id Aux}

section

variable (taken : system.take catalog action = some after)
include taken

theorem System.take_frame
    : (after.state = system.state ∧ after.buffer = system.buffer) ∨
      (after.state = system.state ∧ (action = .dropBuffer ∨ system.phase = .discarding)) ∨
      (∃ matching, system.phase = .matching matching ∧ after.state.status = system.state.status) ∨
      (∃ run exhausted, system.phase = .matched run exhausted ∧
        after.state.runStartJd = system.state.runStartJd ∧ after.buffer = system.buffer) ∨
      after.state.status ≠ some .committing := by
  cases action with
  | matching action =>
    cases phase : system.phase with
    | matching matching =>
      simp only [System.take, phase] at taken
      refine .inr (.inr (.inl ⟨matching, rfl, ?_⟩))
      cases action <;> grind [System.takeMatching, System.feed, System.inMatching, System.inserted,
        System.checkpointed, System.completePage]
    | _ => simp [System.take, phase] at taken
  | _ => grind [System.take, System.launched, System.concluded, System.mergedGroup, System.merged,
      System.statused, Option.map_eq_some_iff]

theorem System.take_toMatching {next : Matching Id Aux} (phase : after.phase = .matching next) :
    (∃ run, next = .fresh run) ∨ (system.phase = .matching next ∧ after.options = system.options) ∨
      ∃ matching step, system.phase = .matching matching ∧ action = .matching step ∧
        system.takeMatching catalog matching step = some after := by
  cases action <;> grind [System.take, System.launched, System.concluded, System.mergedGroup, System.merged,
      System.statused, Option.map_eq_some_iff]

theorem System.take_toMatched {run : CatalogRun Id} {exhausted : Bool}
    (phase : after.phase = .matched run exhausted) :
    system.phase = .matched run exhausted ∨ ∃ matching, system.phase = .matching matching ∧
      matching.producer = .ended exhausted ∧ matching.noneFailed system.options.processes = true := by
  cases action with
  | matching action =>
    cases at_ : system.phase with
    | matching matching =>
      simp only [System.take, at_] at taken
      cases action <;> grind [System.takeMatching, System.feed, System.inMatching, System.inserted,
        System.checkpointed, System.completePage]
    | _ => simp [System.take, at_] at taken
  | _ => grind [System.take, System.launched, System.concluded, System.mergedGroup, System.merged,
      System.statused, Option.map_eq_some_iff]

end

namespace System.Whole

variable {system after : System Id Aux}

theorem start (initial : system.Initial) : system.Whole catalog where
  kept := .start initial
  committing isCommitting := absurd isCommitting initial.2.2
  lost matching phase := by simp [initial.1] at phase
  matched run exhausted phase := by simp [initial.1] at phase

theorem committing_take (whole : system.Whole catalog) (permitted : leavesNothingOut catalog system action = true)
    (taken : system.take catalog action = some after)
    (isCommitting : after.state.status = some .committing) : after.BufferComplete catalog := by
  intro runStartJd stored
  have process := whole.kept.process
  have keeps (running : system.state.Running runStartJd)
      (buffered : Buffered (system.Finds catalog runStartJd) system.buffer catalog.rows)
      (buffer : after.buffer = system.buffer) :
      Buffered (after.Finds catalog runStartJd) after.buffer catalog.rows := by
    rw [System.finds_take taken running, buffer]
    exact buffered
  rcases System.take_frame taken with
    ⟨state, buffer⟩ | ⟨state, rfl | discarding⟩ | ⟨matching, phase, status⟩ | ⟨run, exhausted, phase, same, buffer⟩ | other
  · rw [state] at isCommitting stored
    exact keeps ⟨.inr isCommitting, stored⟩ (whole.committing isCommitting runStartJd stored) buffer
  · rw [state] at isCommitting
    simp [leavesNothingOut, isCommitting] at permitted
  · rw [state] at isCommitting
    rw [discarding] at process
    exact absurd (isCommitting.symm.trans process) (by simp)
  · rw [status] at isCommitting
    rw [phase] at process
    exact absurd (isCommitting.symm.trans process.1) (by simp)
  · rw [same] at stored
    rw [phase] at process
    obtain ⟨isMatching, started, buffered⟩ := process
    obtain rfl : run.runStartJd = runStartJd := Option.some.inj (started.symm.trans stored)
    exact keeps ⟨.inl isMatching, stored⟩ (buffered (whole.matched run exhausted phase)) buffer
  · exact absurd isCommitting other

theorem take (whole : system.Whole catalog) (permitted : leavesNothingOut catalog system action = true)
    (taken : system.take catalog action = some after) : after.Whole catalog := by
  refine ⟨?_, whole.committing_take permitted taken, fun next phase => ?_, fun run exhausted phase => ?_⟩
  · refine whole.kept.take (fun halts wiped isMatching => ?_) taken
    simpa [leavesNothingOut, halts, wiped, isMatching] using permitted
  · rcases System.take_toMatching taken phase with ⟨run, rfl⟩ | ⟨before, same⟩ | ⟨matching, step, before, rfl, stepped⟩
    · intro ended
      cases ended
    · rw [same]
      exact whole.lost next before
    · exact whole.kept.lost before (whole.lost matching before) permitted stepped phase
  · rcases System.take_toMatched taken phase with before | ⟨matching, before, ended, noneFailed⟩
    · exact whole.matched run exhausted before
    · cases exhausted with
      | true => rfl
      | false =>
        obtain ⟨slot, below, failed⟩ := whole.lost matching before ended
        have lives := List.all_eq_true.mp noneFailed slot (List.mem_range.mpr below)
        rw [failed] at lives
        cases lives

end System.Whole

theorem whole_of_reached {system : System Id Aux}
    (reached : Reachable System.Initial (System.Step catalog (leavesNothingOut catalog)) system) :
    system.Whole catalog := by
  refine reached.invariant _ (fun _ initial => .start initial) fun state after _ whole step => ?_
  obtain ⟨action, permitted, taken⟩ := step
  exact whole.take permitted taken

/-! ## What the second phase writes -/

def bufferedRows (buffer : List (Aux × Id)) (aux : Aux) : List Id :=
  (buffer.filter fun found => found.1 = aux).map Prod.snd

variable {aux : Aux}

omit [LinearOrder Id] in
theorem mem_bufferedRows {buffer : List (Aux × Id)} {row : Id} :
    row ∈ bufferedRows buffer aux ↔ (aux, row) ∈ buffer := by
  simp [bufferedRows]

theorem keys_group (catalog : Catalog Id Aux) (buffer : List (Aux × Id)) :
    (catalog.group buffer).map Prod.fst = (buffer.map Prod.fst).dedup := by
  simp [Catalog.group, Function.comp_def]

theorem mem_keys_group {buffer : List (Aux × Id)} :
    aux ∈ (catalog.group buffer).map Prod.fst ↔ ∃ row, (aux, row) ∈ buffer := by
  simp [keys_group]

theorem lookup_group {buffer : List (Aux × Id)} (grouped : aux ∈ (catalog.group buffer).map Prod.fst) :
    (catalog.group buffer).lookup aux = some (catalog.sortedMatches (bufferedRows buffer aux)) := by
  rw [keys_group] at grouped
  exact List.lookup_graph _ grouped

omit [LinearOrder Id] in
theorem System.crossMatches_mergedGroup {system : System Id Aux} {matches_ : List Id}
    (grouped : system.grouped.lookup aux = some matches_) {record : AuxRecord Id}
    (stored : (system.mergedGroup aux).records.get aux = some record) :
    record.crossMatches = some matches_ := by
  rw [System.mergedGroup, grouped] at stored
  simp only [System.merged, Collection.get_updateOne_self, if_true] at stored
  obtain ⟨before, _, rfl⟩ := Option.map_eq_some_iff.mp stored
  rfl

/-- What is claimed of a state, and of the writes that can follow it. -/
structure System.CommitsWhole (catalog : Catalog Id Aux) (system : System Id Aux) : Prop where
  committing : system.state.status = some .committing → system.BufferComplete catalog
  merge : ∀ aux after, system.take catalog (.merge aux) = some after →
    system.BufferComplete catalog ∧ ∃ runStartJd rows, system.state.runStartJd = some runStartJd ∧
      (∀ row, row ∈ rows ↔ system.Finds catalog runStartJd aux row) ∧
      ∀ record, after.records.get aux = some record →
        record.crossMatches = some (catalog.sortedMatches rows)
  empty : ∀ aux after, system.take catalog (.empty aux) = some after →
    system.BufferComplete catalog ∧ ∃ runStartJd, system.state.runStartJd = some runStartJd ∧
      ∀ row, ¬ system.Finds catalog runStartJd aux row

theorem System.Whole.merge (whole : system.Whole catalog) (taken : system.take catalog (.merge aux) = some after) :
    system.BufferComplete catalog ∧ ∃ runStartJd rows, system.state.runStartJd = some runStartJd ∧
      (∀ row, row ∈ rows ↔ system.Finds catalog runStartJd aux row) ∧
      ∀ record, after.records.get aux = some record →
        record.crossMatches = some (catalog.sortedMatches rows) := by
  have process := whole.kept.process
  cases phase : system.phase with
  | merging run remaining =>
    simp only [System.take, phase] at taken
    obtain ⟨listed, same⟩ := Option.ite_none_right_eq_some.mp taken
    rw [phase] at process
    obtain ⟨isCommitting, stored, grouped, all⟩ := process
    have complete := whole.committing isCommitting
    rw [grouped] at all
    refine ⟨complete, run.runStartJd, bufferedRows system.buffer aux, stored, fun row => ?_, fun record written => ?_⟩
    · rw [mem_bufferedRows]
      constructor
      · exact whole.kept.sound _ ⟨.inr isCommitting, stored⟩ (aux, row)
      · exact fun hit => complete _ stored row hit.1 aux hit
    · rw [← Option.some.inj same] at written
      exact System.crossMatches_mergedGroup (grouped ▸ lookup_group (all aux listed)) written
  | _ => simp [System.take, phase] at taken

theorem System.Whole.empty (whole : system.Whole catalog) (taken : system.take catalog (.empty aux) = some after) :
    system.BufferComplete catalog ∧ ∃ runStartJd, system.state.runStartJd = some runStartJd ∧
      ∀ row, ¬ system.Finds catalog runStartJd aux row := by
  have process := whole.kept.process
  cases phase : system.phase with
  | emptying run remaining =>
    simp only [System.take, phase] at taken
    obtain ⟨listed, _⟩ := Option.ite_none_right_eq_some.mp taken
    rw [phase] at process
    obtain ⟨isCommitting, stored, grouped, all⟩ := process
    have complete := whole.committing isCommitting
    refine ⟨complete, run.runStartJd, stored, fun row hit => ?_⟩
    have buffered := complete _ stored row hit.1 aux hit
    rw [grouped] at all
    exact (all aux listed).1 (mem_keys_group.mpr ⟨row, buffered⟩)
  | _ => simp [System.take, phase] at taken

theorem commits_whole {system : System Id Aux}
    (reached : Reachable System.Initial (System.Step catalog (leavesNothingOut catalog)) system) :
    system.CommitsWhole catalog where
  committing := (whole_of_reached reached).committing
  merge _ _ := (whole_of_reached reached).merge
  empty _ _ := (whole_of_reached reached).empty

/-! ## A canceled run -/

def canceledEarly : List (Action Nat String) :=
  [.launch false oneRecord.options, .dropBuffer, .dropGrouped, .saveFresh ⟨1⟩, .cancel, .matching .feed,
    .matching (.finish 0), .conclude, .saveCommitting]

def committedNothing : System Nat String :=
  (oneRecord.run oneRow (fun _ _ => true) canceledEarly).getD oneRecord

theorem run_canceledEarly :
    oneRecord.run oneRow (fun _ _ => true) canceledEarly = some committedNothing := by rfl

theorem commits_partial_matches : ¬ ∀ system : System Nat String,
    Reachable System.Initial (System.Step oneRow fun _ _ => true) system → system.CommitsWhole oneRow := by
  intro always
  have reached := System.reach_run (.start initial_oneRecord) run_canceledEarly
  have buffered := (always committedNothing reached).committing rfl ⟨1⟩ rfl 1 (List.mem_singleton.mpr rfl)
    "object" ⟨List.mem_singleton.mpr rfl, rfl, _, rfl, rfl⟩
  cases buffered

def toTheEnd : List (Action Nat String) :=
  firstPage ++ [.matching .feed, .matching (.finish 0), .conclude, .saveCommitting, .group]

def groupedFirst : System Nat String :=
  (oneRecord.run oneRow (leavesNothingOut oneRow) toTheEnd).getD oneRecord

theorem run_toTheEnd : oneRecord.run oneRow (leavesNothingOut oneRow) toTheEnd = some groupedFirst := by rfl

theorem commits_whole_groupedFirst : groupedFirst.state.status = some .committing ∧
    (groupedFirst.take oneRow (.merge "object")).isSome = true ∧ groupedFirst.CommitsWhole oneRow :=
  ⟨by rfl, by rfl, commits_whole (System.reach_run (.start initial_oneRecord) run_toTheEnd)⟩

end Boom.Tasks.Crossmatch
