import Boom.Tasks.CatalogProgress

/-! # What the stored checkpoint claims

A state that says `matching`, with a checkpoint, claims that every match of the rows
up to it is in the buffer.  The steps of the first phase keep that claim, crashes
included.  It is false from when a run that starts over has dropped the buffer until
it has stored its own state, if the state before had a checkpoint. -/

namespace Boom.Tasks.Crossmatch

open Boom.Foundations

variable {Id Aux : Type}

/-! ## Runs -/

def ReprocessState.Running (state : ReprocessState Id) (runStartJd : F64) : Prop :=
  (state.status = some .matching ∨ state.status = some .committing) ∧ state.runStartJd = some runStartJd

theorem loadCatalogRun_eq_some_iff {state : ReprocessState Id} {run : CatalogRun Id} :
    loadCatalogRun state = some run ↔ state.runStartJd = some run.runStartJd ∧
      run.checkpoint = state.checkpoint ∧
      state.status = some (if run.committing then .committing else .matching) := by
  obtain ⟨status, runStartJd, checkpoint⟩ := state
  obtain ⟨startedAt, resumed, committing⟩ := run
  cases runStartJd with
  | none => cases status with
    | none => simp [loadCatalogRun]
    | some status => cases status <;> simp [loadCatalogRun]
  | some stored => cases status with
    | none => simp [loadCatalogRun]
    | some status => cases status <;> cases committing <;> simp [loadCatalogRun, eq_comm]

variable (system : System Id Aux)

theorem System.launched_phase (restart : Bool) (options : Options) :
    (system.launched restart options).phase = .dropping ∨
      ∃ run, loadCatalogRun system.state = some run ∧
        ((run.committing = true ∧ (system.launched restart options).phase = .grouping run) ∨
          (run.committing = false ∧ (system.launched restart options).phase = .matching (.fresh run))) := by
  cases restart with
  | true => exact .inl rfl
  | false =>
    cases loaded : loadCatalogRun system.state with
    | none => exact .inl (by simp [System.launched, loaded])
    | some run =>
      cases committing : run.committing with
      | true => exact .inr ⟨run, rfl, .inl ⟨committing, by simp [System.launched, loaded, committing]⟩⟩
      | false => exact .inr ⟨run, rfl, .inr ⟨committing, by simp [System.launched, loaded, committing]⟩⟩

variable [LinearOrder Id] [DecidableEq Aux] {catalog : Catalog Id Aux}

/-! ## Matches -/

def System.Finds (catalog : Catalog Id Aux) (system : System Id Aux) (runStartJd : F64) (aux : Aux)
    (row : Id) : Prop :=
  row ∈ catalog.rows ∧ catalog.near row aux = true ∧
    ∃ record, system.records.get aux = some record ∧ record.createdBefore runStartJd = true

variable {records : Collection Aux (AuxRecord Id)}

theorem mem_matchPage {runStartJd : F64} {rows : List Id} {document : Aux × Id} :
    document ∈ catalog.matchPage records runStartJd rows ↔
      document.2 ∈ rows ∧ catalog.near document.2 document.1 = true ∧
        ∃ record, records.get document.1 = some record ∧ record.createdBefore runStartJd = true := by
  obtain ⟨aux, row⟩ := document
  simp only [Catalog.matchPage, Catalog.processCatDoc, List.mem_flatMap, List.mem_map]
  constructor
  · rintro ⟨searched, listed, ⟨found, record⟩, member, same⟩
    obtain ⟨rfl, rfl⟩ := Prod.mk.inj same
    obtain ⟨stored, both⟩ := Collection.mem_find.mp member
    simp only [Bool.and_eq_true] at both
    exact ⟨listed, both.1, record, stored, both.2⟩
  · rintro ⟨listed, near, record, stored, before⟩
    exact ⟨row, listed, (aux, record), Collection.mem_find.mpr ⟨stored, by simp [near, before]⟩, rfl⟩

omit [LinearOrder Id] in
theorem System.created_merged (aux : Aux) (matches_ : List Id) (runStartJd : F64) (other : Aux) :
    (∃ record, (system.merged aux matches_).records.get other = some record ∧
        record.createdBefore runStartJd = true) ↔
      ∃ record, system.records.get other = some record ∧ record.createdBefore runStartJd = true := by
  simp only [System.merged, Collection.get_updateOne]
  by_cases same : other = aux
  · subst same
    cases stored : system.records.get other <;> simp [AuxRecord.createdBefore]
  · simp [same]

theorem System.finds_merged (aux : Aux) (matches_ : List Id) (runStartJd : F64) :
    (system.merged aux matches_).Finds catalog runStartJd = system.Finds catalog runStartJd := by
  funext other row
  simp only [System.Finds, System.created_merged]

theorem System.finds_mergedGroup (aux : Aux) (runStartJd : F64) :
    (system.mergedGroup aux).Finds catalog runStartJd = system.Finds catalog runStartJd := by
  unfold System.mergedGroup
  cases system.grouped.lookup aux with
  | none => rfl
  | some matches_ => exact system.finds_merged aux matches_ runStartJd

theorem System.mem_unmatched {system : System Id Aux} {runStartJd : F64} {aux : Aux}
    (member : aux ∈ system.unmatched runStartJd) : aux ∉ system.grouped.map Prod.fst ∧
      ∃ record, system.records.get aux = some record ∧ record.createdBefore runStartJd = true := by
  obtain ⟨⟨found, record⟩, listed, rfl⟩ := List.mem_map.mp member
  obtain ⟨stored, selected⟩ := Collection.mem_find.mp listed
  simp only [Bool.and_eq_true, Bool.not_eq_true', List.contains_eq_mem, decide_eq_false_iff_not] at selected
  exact ⟨selected.2, record, stored, selected.1.1⟩

theorem System.finds_ingest {system : System Id Aux} {aux : Aux} {record : AuxRecord Id}
    (inserted : system.records.insertOne aux record = some records)
    {runStartJd : F64} (late : record.createdBefore runStartJd = false) :
    System.Finds catalog { system with records := records } runStartJd = system.Finds catalog runStartJd := by
  funext other row
  simp only [System.Finds, Collection.get_insertOne inserted]
  by_cases same : other = aux
  · subst same
    simp [late, Collection.absent_of_insertOne inserted]
  · simp [same]

variable {matching : Matching Id Aux}

theorem System.takeMatching_records {system after : System Id Aux}
    {action : MatchAction Id Aux} (taken : system.takeMatching catalog matching action = some after) :
    after.records = system.records := by
  cases action <;> grind [System.takeMatching, System.feed, System.inMatching, System.inserted,
    System.checkpointed, System.completePage]

theorem System.finds_take {system after : System Id Aux} {action : Action Id Aux}
    (taken : system.take catalog action = some after) {runStartJd : F64} (running : system.state.Running runStartJd) :
    after.Finds catalog runStartJd = system.Finds catalog runStartJd := by
  have same (records : after.records = system.records) :
      after.Finds catalog runStartJd = system.Finds catalog runStartJd := by
    unfold System.Finds
    rw [records]
  cases action with
  | ingest aux record =>
    obtain ⟨late, inserted⟩ := Option.ite_none_right_eq_some.mp taken
    obtain ⟨records, stored, rfl⟩ := Option.map_eq_some_iff.mp inserted
    refine System.finds_ingest stored ?_
    have loaded : loadCatalogRun system.state = some ⟨runStartJd, system.state.checkpoint,
        system.state.status = some .committing⟩ := by
      refine loadCatalogRun_eq_some_iff.mpr ⟨running.2, rfl, ?_⟩
      rcases running.1 with same | same <;> simp [same]
    simpa [loaded] using late
  | matching action =>
    cases phase : system.phase with
    | matching matching =>
      simp only [System.take, phase] at taken
      exact same (System.takeMatching_records taken)
    | _ => simp [System.take, phase] at taken
  | merge aux =>
    cases phase : system.phase with
    | merging run remaining =>
      simp only [System.take, phase] at taken
      obtain ⟨_, merged⟩ := Option.ite_none_right_eq_some.mp taken
      rw [← Option.some.inj merged]
      exact system.finds_mergedGroup aux runStartJd
    | _ => simp [System.take, phase] at taken
  | empty aux =>
    cases phase : system.phase with
    | emptying run remaining =>
      simp only [System.take, phase] at taken
      obtain ⟨_, merged⟩ := Option.ite_none_right_eq_some.mp taken
      rw [← Option.some.inj merged]
      exact system.finds_merged aux [] runStartJd
    | _ => simp [System.take, phase] at taken
  | _ => exact same (by grind [System.take, System.launched, System.concluded, System.statused])

/-! ## The invariant -/

def System.wiped (system : System Id Aux) : Bool :=
  match system.phase with
  | .dropped | .starting => true
  | _ => false

def System.Agrees (catalog : Catalog Id Aux) (system : System Id Aux) : Phase Id Aux → Prop
  | .matching matching => system.state.status = some .matching ∧
    system.state.runStartJd = some matching.run.runStartJd ∧ ∃ popped pending,
      Progress catalog (system.Finds catalog matching.run.runStartJd) system.buffer system.state.checkpoint
        system.options.processes matching popped pending
  | .matched run exhausted => system.state.status = some .matching ∧
    system.state.runStartJd = some run.runStartJd ∧ (exhausted = true →
      Buffered (system.Finds catalog run.runStartJd) system.buffer catalog.rows)
  | .grouping run => system.state.status = some .committing ∧ system.state.runStartJd = some run.runStartJd
  | .merging run remaining => system.state.status = some .committing ∧
    system.state.runStartJd = some run.runStartJd ∧ system.grouped = catalog.group system.buffer ∧
    ∀ aux ∈ remaining, aux ∈ system.grouped.map Prod.fst
  | .emptying run remaining => system.state.status = some .committing ∧
    system.state.runStartJd = some run.runStartJd ∧ system.grouped = catalog.group system.buffer ∧
    ∀ aux ∈ remaining, aux ∉ system.grouped.map Prod.fst ∧
      ∃ record, system.records.get aux = some record ∧ record.createdBefore run.runStartJd = true
  | .discarding | .tidying => system.state.status = some .clean
  | .idle | .dropping | .dropped | .starting | .cleaning => True

structure System.Kept (catalog : Catalog Id Aux) (system : System Id Aux) : Prop where
  valid : system.phase ≠ .idle → 0 < system.options.batchSize ∧ 0 < system.options.processes
  dated : system.state.status = some .matching ∨ system.state.status = some .committing →
    system.state.runStartJd.isSome
  wiped : system.wiped = true → system.buffer = []
  sound : ∀ runStartJd, system.state.Running runStartJd →
    ∀ document ∈ system.buffer, system.Finds catalog runStartJd document.1 document.2
  covered : ∀ runStartJd, system.state.status = some .matching →
    system.state.runStartJd = some runStartJd → system.wiped = false →
    ∀ last ∈ system.state.checkpoint, ∀ row ∈ catalog.rows, row ≤ last →
      ∀ aux, system.Finds catalog runStartJd aux row → (aux, row) ∈ system.buffer
  process : system.Agrees catalog system.phase

namespace System.Kept

variable {system after : System Id Aux}

section

variable (kept : system.Kept catalog)
include kept

theorem matching_step {matching next : Matching Id Aux}
    (phase : system.phase = .matching matching) (records : after.records = system.records)
    (options : after.options = system.options) (status : after.state.status = system.state.status)
    (runStart : after.state.runStartJd = system.state.runStartJd) (phase' : after.phase = .matching next)
    (run : next.run = matching.run) (buffer : ∀ document ∈ after.buffer, document ∈ system.buffer ∨
      system.Finds catalog matching.run.runStartJd document.1 document.2)
    (progress : ∃ popped pending, Progress catalog (system.Finds catalog matching.run.runStartJd)
      after.buffer after.state.checkpoint after.options.processes next popped pending) :
    after.Kept catalog := by
  have agrees := kept.process
  rw [phase] at agrees
  obtain ⟨isMatching, started, _⟩ := agrees
  have finds (runStartJd : F64) : after.Finds catalog runStartJd = system.Finds catalog runStartJd := by
    unfold System.Finds
    rw [records]
  have same {runStartJd : F64} (stored : after.state.runStartJd = some runStartJd) :
      runStartJd = matching.run.runStartJd :=
    Option.some.inj (stored.symm.trans (runStart.trans started))
  refine ⟨fun _ => ?_, fun _ => by rw [runStart, started]; rfl, fun wiped => ?_, ?_, ?_, ?_⟩
  · rw [options]
    exact kept.valid (by simp [phase])
  · unfold System.wiped at wiped
    rw [phase'] at wiped
    cases wiped
  · rintro runStartJd ⟨_, stored⟩ document member
    rw [finds, same stored]
    rcases buffer document member with old | new
    · exact kept.sound _ ⟨.inl isMatching, started⟩ document old
    · exact new
  · intro runStartJd _ stored _ last isLast row listed upTo aux hit
    rw [finds, same stored] at hit
    obtain ⟨popped, pending, progress⟩ := progress
    exact progress.covered isLast listed upTo hit
  · rw [phase']
    refine ⟨status.trans isMatching, runStart.trans (started.trans (by rw [run])), ?_⟩
    rw [run, finds]
    exact progress

theorem progress (phase : system.phase = .matching matching) :
    ∃ popped pending, Progress catalog (system.Finds catalog matching.run.runStartJd) system.buffer
      system.state.checkpoint system.options.processes matching popped pending := by
  have agrees := kept.process
  rw [phase] at agrees
  exact agrees.2.2

theorem inMatching {matching next : Matching Id Aux}
    (phase : system.phase = .matching matching) (run : next.run = matching.run)
    {popped : List (Page Id)} {pending : List (Page Id × Id × Bool)}
    (progress : Progress catalog (system.Finds catalog matching.run.runStartJd) system.buffer
      system.state.checkpoint system.options.processes next popped pending) : (system.inMatching next).Kept catalog :=
  kept.matching_step phase rfl rfl rfl rfl rfl run (fun _ member => .inl member) ⟨popped, pending, progress⟩

theorem feed (phase : system.phase = .matching matching) (feeding : matching.producer = .feeding) :
    (system.feed catalog matching).Kept catalog := by
  obtain ⟨popped, pending, progress⟩ := kept.progress phase
  have positive := (kept.valid (by simp [phase])).1
  simp only [System.feed]
  split
  next canceled =>
    exact kept.inMatching phase rfl (progress.stop feeding rfl (by simp))
  next =>
    split
    next nothing =>
      have drained : catalog.after matching.lastId = [] := by
        have empty := List.getLast?_eq_none_iff.mp nothing
        have size : system.options.batchSize ≠ 0 := by omega
        simpa [List.take_eq_nil_iff, size] using empty
      exact kept.inMatching phase rfl (progress.stop feeding rfl fun _ => drained)
    next last isLast => exact kept.inMatching phase rfl (progress.feed feeding isLast)

theorem matchPage (phase : system.phase = .matching matching) {slot : Nat} {page : Page Id}
    (searching : matching.workers slot = .matching page) :
    (system.inMatching (matching.setWorker slot (.inserting page
      (catalog.matchPage system.records matching.run.runStartJd page.rows)))).Kept catalog := by
  obtain ⟨popped, pending, progress⟩ := kept.progress phase
  have fed := progress.workers slot
  rw [searching] at fed
  refine kept.inMatching phase rfl (progress.setWorker (progress.inRange (by simp [searching])) ?_ ?_ ?_)
  · refine ⟨fed, fun document member => ?_, fun row listed aux hit => .inr ?_⟩
    · obtain ⟨inPage, near, older⟩ := mem_matchPage.mp member
      exact ⟨progress.rows_listed fed document.2 inPage, near, older⟩
    · exact mem_matchPage.mpr ⟨listed, hit.2⟩
  · simp [searching]
  · intro held hands
    rw [searching] at hands
    exact .inl hands

theorem insert (phase : system.phase = .matching matching) {slot : Nat} {page : Page Id}
    {documents : List (Aux × Id)} {document : Aux × Id}
    (inserting : matching.workers slot = .inserting page documents) (member : document ∈ documents) :
    ((system.inserted document).inMatching
      (matching.setWorker slot (.inserting page (documents.erase document)))).Kept catalog := by
  obtain ⟨popped, pending, progress⟩ := kept.progress phase
  have agrees := progress.workers slot
  rw [inserting] at agrees
  obtain ⟨fed, sound, all⟩ := agrees
  refine kept.matching_step phase rfl rfl rfl rfl rfl rfl (fun other inserted => ?_) ⟨popped, pending, ?_⟩
  · rcases List.mem_insert_iff.mp inserted with rfl | old
    · exact .inr (sound other member)
    · exact .inl old
  · have grown := progress.grow fun other (old : other ∈ system.buffer) =>
      (List.mem_insert_of_mem old : other ∈ system.buffer.insert document)
    refine grown.setWorker (progress.inRange (by simp [inserting])) ⟨fed, ?_, ?_⟩ ?_ ?_
    · exact fun other listed => sound other (List.mem_of_mem_erase listed)
    · intro row inPage aux hit
      rcases all row inPage aux hit with stored | listed
      · exact .inl (List.mem_insert_of_mem stored)
      · by_cases same : (aux, row) = document
        · exact .inl (same ▸ List.mem_insert_self)
        · exact .inr ((List.mem_erase_of_ne same).mpr listed)
    · simp [inserting]
    · intro held hands
      rw [inserting] at hands
      exact .inl hands

theorem inserted (phase : system.phase = .matching matching) {slot : Nat} {page : Page Id}
    (inserting : matching.workers slot = .inserting page []) :
    (system.inMatching (matching.setWorker slot (.completing page))).Kept catalog := by
  obtain ⟨popped, pending, progress⟩ := kept.progress phase
  have agrees := progress.workers slot
  rw [inserting] at agrees
  obtain ⟨fed, _, all⟩ := agrees
  have buffered : Buffered (system.Finds catalog matching.run.runStartJd) system.buffer page.rows := by
    intro row inPage aux hit
    simpa using all row inPage aux hit
  refine kept.inMatching phase rfl
    (progress.setWorker (progress.inRange (by simp [inserting])) ⟨fed, buffered⟩ ?_ ?_)
  · simp [inserting]
  · intro held hands
    rw [inserting] at hands
    exact .inl hands

theorem record (phase : system.phase = .matching matching) {slot : Nat} {last : Id} {worker : Worker Id Aux}
    (recording : matching.workers slot = .recording last) (ends : worker = .waiting ∨ worker = .failed) :
    ((system.checkpointed last).inMatching (matching.setWorker slot worker)).Kept catalog := by
  obtain ⟨popped, pending, progress⟩ := kept.progress phase
  have written := (progress.record recording).1
  refine kept.matching_step phase rfl rfl rfl rfl rfl rfl (fun _ member => .inl member)
    ⟨popped, pending, written.setWorker (progress.inRange (by simp [recording])) ?_ ?_ ?_⟩
  · rcases ends with rfl | rfl <;> trivial
  · simp [recording]
  · simp [recording, Worker.hands]

theorem fail (phase : system.phase = .matching matching) {slot : Nat} (inRange : slot < system.options.processes)
    (alive : matching.workers slot ≠ .failed) :
    (system.inMatching (matching.setWorker slot .failed)).Kept catalog := by
  obtain ⟨popped, pending, progress⟩ := kept.progress phase
  exact kept.inMatching phase rfl
    (progress.setWorker inRange trivial alive fun _ _ => .inr (.inl rfl))

theorem takeMatching (phase : system.phase = .matching matching) {action : MatchAction Id Aux}
    (taken : system.takeMatching catalog matching action = some after) : after.Kept catalog := by
  obtain ⟨popped, pending, progress⟩ := kept.progress phase
  cases action with
  | feed =>
    obtain ⟨⟨feeding, _⟩, same⟩ := Option.ite_none_right_eq_some.mp taken
    rw [← Option.some.inj same]
    exact kept.feed phase feeding
  | feedFailed =>
    obtain ⟨feeding, same⟩ := Option.ite_none_right_eq_some.mp taken
    rw [← Option.some.inj same]
    exact kept.inMatching phase rfl (progress.stop feeding rfl (by simp))
  | send =>
    cases sending : matching.producer with
    | sending page =>
      simp only [System.takeMatching, sending] at taken
      obtain ⟨_, same⟩ := Option.ite_none_right_eq_some.mp taken
      rw [← Option.some.inj same]
      exact kept.inMatching phase rfl (progress.send sending)
    | _ => simp [System.takeMatching, sending] at taken
  | sendClosed =>
    cases sending : matching.producer with
    | sending page =>
      simp only [System.takeMatching, sending] at taken
      obtain ⟨allOver, same⟩ := Option.ite_none_right_eq_some.mp taken
      rw [← Option.some.inj same]
      exact kept.inMatching phase rfl (progress.sendClosed sending allOver)
    | _ => simp [System.takeMatching, sending] at taken
  | receive slot =>
    cases waiting : matching.workers slot with
    | waiting =>
      cases queued : matching.channel with
      | nil => simp [System.takeMatching, waiting, queued] at taken
      | cons page rest =>
        simp only [System.takeMatching, waiting, queued] at taken
        obtain ⟨inRange, same⟩ := Option.ite_none_right_eq_some.mp taken
        rw [← Option.some.inj same]
        exact kept.inMatching phase rfl (progress.receive inRange waiting queued)
    | _ => simp [System.takeMatching, waiting] at taken
  | matchPage slot =>
    cases searching : matching.workers slot with
    | matching page =>
      simp only [System.takeMatching, searching] at taken
      rw [← Option.some.inj taken]
      exact kept.matchPage phase searching
    | _ => simp [System.takeMatching, searching] at taken
  | insert slot document =>
    cases inserting : matching.workers slot with
    | inserting page documents =>
      simp only [System.takeMatching, inserting] at taken
      obtain ⟨member, same⟩ := Option.ite_none_right_eq_some.mp taken
      rw [← Option.some.inj same]
      exact kept.insert phase inserting member
    | _ => simp [System.takeMatching, inserting] at taken
  | inserted slot =>
    cases inserting : matching.workers slot with
    | inserting page documents =>
      cases documents with
      | nil =>
        simp only [System.takeMatching, inserting] at taken
        rw [← Option.some.inj taken]
        exact kept.inserted phase inserting
      | cons => simp [System.takeMatching, inserting] at taken
    | _ => simp [System.takeMatching, inserting] at taken
  | complete slot =>
    cases completing : matching.workers slot with
    | completing page =>
      simp only [System.takeMatching, completing] at taken
      obtain ⟨unlocked, same⟩ := Option.ite_none_right_eq_some.mp taken
      rw [← Option.some.inj same]
      obtain ⟨popped', pending', progress'⟩ := progress.complete completing unlocked
      exact kept.inMatching phase rfl progress'
    | _ => simp [System.takeMatching, completing] at taken
  | record slot delivery =>
    cases recording : matching.workers slot with
    | recording last =>
      simp only [System.takeMatching, recording] at taken
      rw [← Option.some.inj taken]
      cases delivery with
      | answered => exact kept.record phase recording (.inl rfl)
      -- An answer that is lost has been recorded all the same.
      | lost => exact kept.record phase recording (.inr rfl)
      | refused => exact kept.fail phase (progress.inRange (by simp [recording])) (by simp [recording])
    | _ => simp [System.takeMatching, recording] at taken
  | finish slot =>
    cases waiting : matching.workers slot with
    | waiting =>
      -- A worker finishes only with the channel empty and the producer over.
      cases queued : matching.channel with
      | nil =>
        simp only [System.takeMatching, waiting, queued] at taken
        obtain ⟨⟨inRange, drained⟩, same⟩ := Option.ite_none_right_eq_some.mp taken
        rw [← Option.some.inj same]
        exact kept.inMatching phase rfl
          (progress.setWorker inRange ⟨queued, drained⟩ (by simp [waiting]) (by simp [waiting, Worker.hands]))
      | cons => simp [System.takeMatching, waiting, queued] at taken
    | _ => simp [System.takeMatching, waiting] at taken
  | fail slot =>
    obtain ⟨⟨inRange, running⟩, same⟩ := Option.ite_none_right_eq_some.mp taken
    rw [← Option.some.inj same]
    refine kept.fail phase inRange fun failed => ?_
    simp [failed, Worker.isOver] at running

/-! ### The other steps -/

theorem carry (state : after.state = system.state) (buffer : after.buffer = system.buffer)
    (finds : ∀ runStartJd, system.state.Running runStartJd →
      after.Finds catalog runStartJd = system.Finds catalog runStartJd)
    (stays : after.wiped = true → system.wiped = true) (unwiped : system.wiped = true → after.wiped = true ∨
      (system.state.status = some .matching → system.state.checkpoint = none))
    (valid : after.phase ≠ .idle → 0 < after.options.batchSize ∧ 0 < after.options.processes)
    (process : after.Agrees catalog after.phase) : after.Kept catalog := by
  refine ⟨valid, ?_, ?_, ?_, ?_, process⟩
  · rw [state]
    exact kept.dated
  · intro wiped
    rw [buffer]
    exact kept.wiped (stays wiped)
  · intro runStartJd running document member
    rw [state] at running
    rw [buffer] at member
    rw [finds _ running]
    exact kept.sound _ running document member
  · intro runStartJd isMatching stored open_ last isLast row listed upTo aux hit
    rw [state] at isMatching stored isLast
    rw [finds _ ⟨.inl isMatching, stored⟩] at hit
    rw [buffer]
    cases before : system.wiped with
    | false => exact kept.covered _ isMatching stored before last isLast row listed upTo aux hit
    | true =>
      rcases unwiped before with still | none_
      · simp [still] at open_
      · simp [none_ isMatching] at isLast

theorem advance (records : after.records = system.records)
    (state : after.state = system.state) (buffer : after.buffer = system.buffer)
    (options : after.options = system.options) (busy : system.phase ≠ .idle)
    (unwiped : system.wiped = false) (unwiped' : after.wiped = false)
    (process : after.Agrees catalog after.phase) : after.Kept catalog := by
  refine kept.carry state buffer (fun _ _ => ?_) ?_ ?_ ?_ process
  · unfold System.Finds
    rw [records]
  · simp [unwiped']
  · simp [unwiped]
  · intro _
    rw [options]
    exact kept.valid busy

theorem launched (idle : system.phase = .idle) (restart : Bool)
    {options : Options} (valid : 0 < options.batchSize ∧ 0 < options.processes) :
    (system.launched restart options).Kept catalog := by
  have unwiped : system.wiped = false := by simp [System.wiped, idle]
  have goOn (unwiped' : (system.launched restart options).wiped = false)
      (process : (system.launched restart options).Agrees catalog (system.launched restart options).phase) :
      (system.launched restart options).Kept catalog :=
    kept.carry rfl rfl (fun _ _ => rfl) (by simp [unwiped']) (by simp [unwiped]) (fun _ => valid) process
  rcases system.launched_phase restart options with phase | ⟨run, loaded, ⟨committing, phase⟩ | ⟨matching, phase⟩⟩
  · refine goOn (by simp [System.wiped, phase]) ?_
    rw [phase]
    trivial
  · obtain ⟨stored, _, status⟩ := loadCatalogRun_eq_some_iff.mp loaded
    rw [committing] at status
    refine goOn (by simp [System.wiped, phase]) ?_
    rw [phase]
    exact ⟨status, stored⟩
  · obtain ⟨stored, checkpoint, status⟩ := loadCatalogRun_eq_some_iff.mp loaded
    rw [matching] at status
    refine goOn (by simp [System.wiped, phase]) ?_
    rw [phase]
    have progress : Progress catalog (system.Finds catalog run.runStartJd) system.buffer run.checkpoint
        options.processes (.fresh run) [] [] := by
      refine .fresh valid.2 fun row listed before aux hit => ?_
      obtain ⟨last, isLast, upTo⟩ := before
      exact kept.covered _ status stored unwiped last (checkpoint ▸ isLast) row listed upTo aux hit
    rw [checkpoint] at progress
    exact ⟨status, stored, [], [], progress⟩

theorem halt (safe : system.wiped = true → system.state.status = some .matching → system.state.checkpoint = none) :
    ({ system with phase := .idle } : System Id Aux).Kept catalog :=
  kept.carry rfl rfl (fun _ _ => rfl) (by simp [System.wiped]) (fun wiped => .inr (safe wiped))
    (fun busy => absurd rfl busy) trivial

theorem concluded (phase : system.phase = .matching matching) (taken : system.concluded matching = some after) :
    after.Kept catalog := by
  have unwiped : system.wiped = false := by simp [System.wiped, phase]
  obtain ⟨allOver, decided⟩ := Option.ite_none_right_eq_some.mp taken
  cases ended : matching.producer with
  | ended exhausted =>
    rw [ended] at decided
    rw [← Option.some.inj decided]
    cases noneFailed : matching.noneFailed system.options.processes with
    | false => exact kept.halt (by simp [unwiped])
    | true =>
      have process := kept.process
      rw [phase] at process
      obtain ⟨status, stored, popped, pending, progress⟩ := process
      refine kept.advance rfl rfl rfl rfl (by simp [phase]) unwiped rfl ⟨status, stored, ?_⟩
      rintro rfl
      exact progress.conclude ended allOver noneFailed
  | failed =>
    rw [ended] at decided
    rw [← Option.some.inj decided]
    exact kept.halt (by simp [unwiped])
  | _ =>
    rw [ended] at decided
    cases decided

theorem ingest {aux : Aux} {record : AuxRecord Id} (inserted : system.records.insertOne aux record = some records)
    (taken : system.take catalog (.ingest aux record) = some { system with records := records }) :
    ({ system with records := records } : System Id Aux).Kept catalog := by
  have finds (runStartJd : F64) (running : system.state.Running runStartJd) :
      System.Finds catalog { system with records := records } runStartJd = system.Finds catalog runStartJd :=
    System.finds_take taken running
  have present {other : Aux} {held : AuxRecord Id} (stored : system.records.get other = some held) :
      records.get other = some held := by
    rw [Collection.get_insertOne inserted]
    by_cases same : other = aux
    · subst same
      rw [Collection.absent_of_insertOne inserted] at stored
      cases stored
    · simp [same, stored]
  have process (phase : Phase Id Aux) (agrees : system.Agrees catalog phase) :
      System.Agrees catalog { system with records := records } phase := by
    cases phase with
    | matching matching =>
      obtain ⟨status, stored, progress⟩ := agrees
      exact ⟨status, stored, (finds _ ⟨.inl status, stored⟩).symm ▸ progress⟩
    | matched run exhausted =>
      obtain ⟨status, stored, buffered⟩ := agrees
      exact ⟨status, stored, (finds _ ⟨.inl status, stored⟩).symm ▸ buffered⟩
    | emptying run remaining =>
      obtain ⟨status, stored, grouped, all⟩ := agrees
      refine ⟨status, stored, grouped, fun other listed => ?_⟩
      obtain ⟨notGrouped, held, has, older⟩ := all other listed
      exact ⟨notGrouped, held, present has, older⟩
    | _ => exact agrees
  exact kept.carry rfl rfl finds id (fun wiped => .inl wiped) kept.valid (process _ kept.process)

theorem merged (unwiped : system.wiped = false) (busy : system.phase ≠ .idle)
    {aux : Aux} {matches_ : List Id} {phase : Phase Id Aux}
    (unwiped' : ({ system.merged aux matches_ with phase := phase } : System Id Aux).wiped = false)
    (process : System.Agrees catalog { system.merged aux matches_ with phase := phase } phase) :
    ({ system.merged aux matches_ with phase := phase } : System Id Aux).Kept catalog :=
  kept.carry rfl rfl (fun runStartJd _ => System.finds_merged system aux matches_ runStartJd)
    (by simp [unwiped']) (by simp [unwiped]) (fun _ => kept.valid busy) process

theorem mergedGroup (unwiped : system.wiped = false)
    (busy : system.phase ≠ .idle) {aux : Aux} {run : CatalogRun Id} {remaining : List Aux}
    (status : system.state.status = some .committing)
    (stored : system.state.runStartJd = some run.runStartJd) (grouped : system.grouped = catalog.group system.buffer)
    (all : ∀ other ∈ remaining, other ∈ system.grouped.map Prod.fst) :
    ({ system.mergedGroup aux with phase := .merging run remaining } : System Id Aux).Kept catalog := by
  unfold System.mergedGroup
  cases system.grouped.lookup aux with
  | none => exact kept.advance rfl rfl rfl rfl busy unwiped rfl ⟨status, stored, grouped, all⟩
  | some matches_ => exact kept.merged unwiped busy rfl ⟨status, stored, grouped, all⟩

theorem saveFresh (phase : system.phase = .starting) (now : F64) : ({ system with
        state := { status := some .matching, runStartJd := some now, checkpoint := none }
        starts := system.starts + 1
        phase := .matching (.fresh { runStartJd := now, checkpoint := none, committing := false }) } :
      System Id Aux).Kept catalog := by
  have valid := kept.valid (by simp [phase])
  have empty := kept.wiped (by simp [System.wiped, phase])
  refine ⟨fun _ => valid, fun _ => rfl, by simp [System.wiped], ?_, ?_, rfl, rfl, [], [], ?_⟩
  · intro runStartJd _ document member
    have member : document ∈ system.buffer := member
    simp [empty] at member
  · intro _ _ _ _ last isLast
    cases isLast
  · let run : CatalogRun Id := { runStartJd := now, checkpoint := none, committing := false }
    have fresh : Progress catalog (system.Finds catalog now) system.buffer run.checkpoint
        system.options.processes (.fresh run) [] [] := by
      refine .fresh valid.2 fun row _ before => ?_
      obtain ⟨start, impossible, _⟩ := before
      cases impossible
    exact fresh

theorem saveCommitting {run : CatalogRun Id} {exhausted : Bool} (phase : system.phase = .matched run exhausted) :
    ({ system.statused .committing with phase := .grouping run } : System Id Aux).Kept catalog := by
  have process := kept.process
  rw [phase] at process
  obtain ⟨status, stored, _⟩ := process
  refine ⟨fun _ => kept.valid (by simp [phase]), fun _ => kept.dated (.inl status), by simp [System.wiped],
    fun runStartJd running => ?_, by simp [System.statused], rfl, stored⟩
  exact kept.sound runStartJd ⟨.inl status, running.2⟩

theorem saveClean (phase : system.phase = .cleaning) :
    ({ system.statused .clean with phase := .discarding } : System Id Aux).Kept catalog :=
  ⟨fun _ => kept.valid (by simp [phase]), by simp [System.statused], by simp [System.wiped],
    by simp [System.statused, ReprocessState.Running], by simp [System.statused], rfl⟩

theorem dropBuffer (phase : system.phase = .dropping) :
    ({ system with buffer := [], phase := .dropped } : System Id Aux).Kept catalog :=
  ⟨fun _ => kept.valid (by simp [phase]), kept.dated, fun _ => rfl, by simp, by simp [System.wiped], trivial⟩

theorem discardBuffer (phase : system.phase = .discarding) :
    ({ system with buffer := [], phase := .tidying } : System Id Aux).Kept catalog := by
  have clean := kept.process
  rw [phase] at clean
  have clean : system.state.status = some .clean := clean
  exact ⟨fun _ => kept.valid (by simp [phase]), kept.dated, by simp [System.wiped], by simp, by simp [clean],
    clean⟩

theorem take {action : Action Id Aux}
    (safe : action = .halt → system.wiped = true → system.state.status = some .matching →
      system.state.checkpoint = none) (taken : system.take catalog action = some after) : after.Kept catalog := by
  have process := kept.process
  cases action with
  | ingest aux record =>
    obtain ⟨_, inserted⟩ := Option.ite_none_right_eq_some.mp taken
    obtain ⟨records, stored, rfl⟩ := Option.map_eq_some_iff.mp inserted
    exact kept.ingest stored taken
  | cancel =>
    obtain rfl := Option.some.inj taken
    refine kept.carry rfl rfl (fun _ _ => rfl) id (fun wiped => .inl wiped) kept.valid ?_
    cases phase : system.phase <;> simp only [phase] at process ⊢ <;> exact process
  | halt =>
    obtain rfl := Option.some.inj taken
    -- Between the wiped buffer and the fresh state a halt may leave no checkpoint behind.
    exact kept.halt (safe rfl)
  | launch restart options =>
    cases phase : system.phase with
    | idle =>
      simp only [System.take, phase] at taken
      obtain ⟨valid, same⟩ := Option.ite_none_right_eq_some.mp taken
      rw [← Option.some.inj same]
      exact kept.launched phase restart valid
    | _ => simp [System.take, phase] at taken
  | dropBuffer =>
    cases phase : system.phase with
    | dropping =>
      simp only [System.take, phase] at taken
      rw [← Option.some.inj taken]
      exact kept.dropBuffer phase
    | _ => simp [System.take, phase] at taken
  | dropGrouped =>
    cases phase : system.phase with
    | dropped =>
      simp only [System.take, phase] at taken
      rw [← Option.some.inj taken]
      have wiped : system.wiped = true := by simp [System.wiped, phase]
      exact kept.carry rfl rfl (fun _ _ => rfl) (fun _ => wiped) (fun _ => .inl rfl)
        (fun _ => kept.valid (by simp [phase])) trivial
    | _ => simp [System.take, phase] at taken
  | saveFresh now =>
    cases phase : system.phase with
    | starting =>
      simp only [System.take, phase] at taken
      rw [← Option.some.inj taken]
      exact kept.saveFresh phase now
    | _ => simp [System.take, phase] at taken
  | matching action =>
    cases phase : system.phase with
    | matching matching =>
      simp only [System.take, phase] at taken
      exact kept.takeMatching phase taken
    | _ => simp [System.take, phase] at taken
  | conclude =>
    cases phase : system.phase with
    | matching matching =>
      simp only [System.take, phase] at taken
      exact kept.concluded phase taken
    | _ => simp [System.take, phase] at taken
  | saveCommitting =>
    cases phase : system.phase with
    | matched run exhausted =>
      simp only [System.take, phase] at taken
      rw [← Option.some.inj taken]
      exact kept.saveCommitting phase
    | _ => simp [System.take, phase] at taken
  -- Grouping and merging change no page, so the checkpoint stays what it was.
  | group =>
    cases phase : system.phase with
    | grouping run =>
      simp only [System.take, phase] at taken
      rw [← Option.some.inj taken]
      rw [phase] at process
      exact kept.advance rfl rfl rfl rfl (by simp [phase]) (by simp [System.wiped, phase]) rfl
        ⟨process.1, process.2, rfl, fun _ listed => listed⟩
    | _ => simp [System.take, phase] at taken
  | merge aux =>
    cases phase : system.phase with
    | merging run remaining =>
      simp only [System.take, phase] at taken
      obtain ⟨_, same⟩ := Option.ite_none_right_eq_some.mp taken
      rw [← Option.some.inj same]
      rw [phase] at process
      obtain ⟨status, stored, grouped, all⟩ := process
      exact kept.mergedGroup (by simp [System.wiped, phase]) (by simp [phase]) status stored grouped
        fun other listed => all other (List.mem_of_mem_erase listed)
    | _ => simp [System.take, phase] at taken
  | merged =>
    cases phase : system.phase with
    | merging run remaining =>
      cases remaining with
      | nil =>
        simp only [System.take, phase] at taken
        rw [← Option.some.inj taken]
        rw [phase] at process
        obtain ⟨status, stored, grouped, _⟩ := process
        have unwiped : system.wiped = false := by simp [System.wiped, phase]
        cases skip : system.options.skipEmpty with
        | true => exact kept.advance rfl rfl rfl rfl (by simp [phase]) unwiped rfl trivial
        | false =>
          exact kept.advance rfl rfl rfl rfl (by simp [phase]) unwiped rfl
            ⟨status, stored, grouped, fun _ => System.mem_unmatched⟩
      | cons => simp [System.take, phase] at taken
    | _ => simp [System.take, phase] at taken
  | empty aux =>
    cases phase : system.phase with
    | emptying run remaining =>
      simp only [System.take, phase] at taken
      obtain ⟨_, same⟩ := Option.ite_none_right_eq_some.mp taken
      rw [← Option.some.inj same]
      rw [phase] at process
      obtain ⟨status, stored, grouped, all⟩ := process
      -- A record that had no match keeps its time of creation, and is still older than the run.
      refine kept.merged (by simp [System.wiped, phase]) (by simp [phase]) rfl
        ⟨status, stored, grouped, fun other listed => ?_⟩
      obtain ⟨notGrouped, older⟩ := all other (List.mem_of_mem_erase listed)
      exact ⟨notGrouped, (system.created_merged aux [] run.runStartJd other).mpr older⟩
    | _ => simp [System.take, phase] at taken
  | emptied =>
    cases phase : system.phase with
    | emptying run remaining =>
      cases remaining with
      | nil =>
        simp only [System.take, phase] at taken
        rw [← Option.some.inj taken]
        exact kept.advance rfl rfl rfl rfl (by simp [phase]) (by simp [System.wiped, phase]) rfl trivial
      | cons => simp [System.take, phase] at taken
    | _ => simp [System.take, phase] at taken
  | saveClean =>
    cases phase : system.phase with
    | cleaning =>
      simp only [System.take, phase] at taken
      rw [← Option.some.inj taken]
      exact kept.saveClean phase
    | _ => simp [System.take, phase] at taken
  | discardBuffer =>
    cases phase : system.phase with
    | discarding =>
      simp only [System.take, phase] at taken
      rw [← Option.some.inj taken]
      exact kept.discardBuffer phase
    | _ => simp [System.take, phase] at taken
  | discardGrouped =>
    cases phase : system.phase with
    | tidying =>
      simp only [System.take, phase] at taken
      rw [← Option.some.inj taken]
      exact kept.carry rfl rfl (fun _ _ => rfl) (by simp [System.wiped])
        (by simp [System.wiped, phase]) (by simp) trivial
    | _ => simp [System.take, phase] at taken

end

theorem start (initial : system.Initial) : system.Kept catalog := by
  obtain ⟨idle, notMatching, notCommitting⟩ := initial
  refine ⟨fun busy => absurd idle busy, ?_, ?_, ?_, fun _ isMatching => absurd isMatching notMatching, ?_⟩
  · rintro (isMatching | isCommitting)
    · exact absurd isMatching notMatching
    · exact absurd isCommitting notCommitting
  · simp [System.wiped, idle]
  · rintro runStartJd ⟨isMatching | isCommitting, _⟩
    · exact absurd isMatching notMatching
    · exact absurd isCommitting notCommitting
  · rw [idle]
    trivial

end System.Kept

end Boom.Tasks.Crossmatch
