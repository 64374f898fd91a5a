import Boom.Tasks.CopyCutouts

/-! # Where an interrupted copy resumes

Every document the cursor has returned is in the destination, in the hands of a writer,
or in the pipeline: the channel, the batch being sent and the one being filled, in the
order they were read.  A batch taken off the channel starts before everything still in
it.  So the start of a lost batch is a safe point if no other lost batch starts earlier,
and the reader's own point is one if no batch is lost. -/

namespace Boom.Tasks.Cutouts

open Boom.Foundations

namespace Copy

def sendingOf : Reader → Option Batch
  | .sending item _ => some item
  | .reading | .stopped _ => none

def current (copy : Copy) : Option Batch :=
  if copy.batch = [] then none else some (copy.batch, copy.batchStart)

def pipeline (copy : Copy) : List Batch :=
  copy.queue ++ (sendingOf copy.reader).toList ++ copy.dropped.toList ++ copy.current.toList

def taken (copy : Copy) : List Batch := copy.writers.filterMap Writer.taken

def lost (copy : Copy) : List Batch := copy.writers.filterMap Writer.lost

def Orderly (copy : Copy) : Prop :=
  (∀ resume, copy.reader = .stopped (some (.canceled resume)) → copy.lost = []) ∧
  ∀ first, copy.lost.head? = some first → ∀ item ∈ copy.lost, first.2 ≤ item.2

def OrderlyStep (params : CopyCutoutsParams) (copy after : Copy) : Prop :=
  Step params copy after ∧ copy.Orderly

/-! ## Writers -/

variable {writers : List Writer} {index : Nat} {before after : Writer} {view : Writer → Option Batch} {item : Batch}

theorem mem_filterMap_set (member : item ∈ (writers.set index after).filterMap view) :
    view after = some item ∨ item ∈ writers.filterMap view := by
  obtain ⟨writer, inSet, held⟩ := List.mem_filterMap.mp member
  rcases List.mem_or_eq_of_mem_set inSet with inWriters | rfl
  · exact .inr (List.mem_filterMap.mpr ⟨writer, inWriters, held⟩)
  · exact .inl held

theorem mem_set_of_mem (at_ : writers[index]? = some before) (member : item ∈ writers.filterMap view) :
    view before = some item ∨ item ∈ (writers.set index after).filterMap view := by
  obtain ⟨writer, inWriters, held⟩ := List.mem_filterMap.mp member
  obtain ⟨other, found⟩ := List.mem_iff_getElem?.mp inWriters
  by_cases same : index = other
  · subst same
    rw [at_] at found
    exact .inl (Option.some.inj found ▸ held)
  · refine .inr (List.mem_filterMap.mpr ⟨writer, List.mem_iff_getElem?.mpr ⟨other, ?_⟩, held⟩)
    rw [List.getElem?_set_ne same]
    exact found

theorem mem_set_self (at_ : writers[index]? = some before)
    (held : view after = some item) : item ∈ (writers.set index after).filterMap view := by
  obtain ⟨bound, _⟩ := List.getElem?_eq_some_iff.mp at_
  exact List.mem_filterMap.mpr ⟨after, List.mem_set bound after, held⟩

theorem written {destination batch landed : List Int} {answer : InsertMany}
    (answers : Answers destination batch answer landed) (ok : flushBatch answer = true) :
    ∀ id ∈ batch, id ∈ destination ++ landed := by
  intro id member
  cases answer with
  | inserted => exact List.mem_append_right _ (answers.2 id member)
  | errors writeErrors writeConcernError =>
    obtain ⟨either, present⟩ := answers.2
    rcases either id member with inLanded | ⟨code, failed⟩
    · exact List.mem_append_right _ inLanded
    · simp only [flushBatch, Bool.and_eq_true, Bool.not_eq_true'] at ok
      have duplicate : code = 11000 := by
        by_contra other
        have any : writeErrors.any (·.2 ≠ 11000) = true :=
          List.any_eq_true.mpr ⟨_, failed, by simpa using other⟩
        exact absurd (any.symm.trans ok.1) (by decide)
      exact List.mem_append_left _ (present id (duplicate ▸ failed))
  | other => cases ok

/-! ## The invariant -/

/-- Where the documents read so far are, and in what order. -/
structure Placed (params : CopyCutoutsParams) (source : Source) (copy : Copy) : Prop where
  located : ∀ id ∈ copy.read, id ∈ copy.destination ∨ ∃ item ∈ copy.taken ++ copy.pipeline, id ∈ item.1
  starts : ∀ item ∈ copy.taken ++ copy.pipeline, item.2 ∈ copy.read ∧ ∀ id ∈ item.1, item.2 ≤ id
  ordered : copy.pipeline.Pairwise fun first second => ∀ id ∈ second.1, first.2 ≤ id
  earlier : ∀ item ∈ copy.taken, ∀ later ∈ copy.pipeline, ∀ id ∈ later.1, item.2 ≤ id
  unread : ∀ id ∈ copy.read, ∀ later ∈ copy.unread, id < later
  all : ∀ id ∈ matching params source, id ∈ copy.read ∨ id ∈ copy.unread
  furthest : copy.maxCandidRead = i64Min ∨ copy.maxCandidRead ∈ copy.read

/-- How far the reader and the writers are. -/
structure Copied (params : CopyCutoutsParams) (source : Source) (copy : Copy) : Prop where
  placed : copy.Placed params source
  writers : copy.writers.length = params.parallelism
  drained : Writer.finished ∈ copy.writers → copy.queue = [] ∧ ∃ error, copy.reader = .stopped error
  reading : copy.reader = .reading → copy.dropped = none
  sending : ∀ item last, copy.reader = .sending item last →
    copy.batch = [] ∧ copy.dropped = none ∧ (last = true → copy.unread = [])
  finished : copy.reader = .stopped none → copy.unread = [] ∧ copy.batch = [] ∧ copy.dropped = none
  refused : copy.dropped ≠ none → ∀ writer ∈ copy.writers, writer.ended = true ∧ writer ≠ .finished
  canceled : ∀ resume, copy.reader = .stopped (some (.canceled resume)) → resume = copy.resume
  failed : ∀ resume, copy.reader = .stopped (some (.failed (some resume))) →
    copy.dropped ≠ none ∨ resume = copy.resume
  safe : Safe params source copy

variable {params : CopyCutoutsParams} {source : Source} {copy : Copy}

theorem Placed.frame {after : Copy} (placed : copy.Placed params source) (taken : after.taken = copy.taken)
    (pipeline : after.pipeline = copy.pipeline) (read : after.read = copy.read)
    (unread : after.unread = copy.unread) (furthest : after.maxCandidRead = copy.maxCandidRead)
    (destination : after.destination = copy.destination) : after.Placed params source := by
  constructor
  · rw [taken, pipeline, read, destination]
    exact placed.located
  · rw [taken, pipeline, read]
    exact placed.starts
  · rw [pipeline]
    exact placed.ordered
  · rw [taken, pipeline]
    exact placed.earlier
  · rw [read, unread]
    exact placed.unread
  · rw [read, unread]
    exact placed.all
  · rw [read, furthest]
    exact placed.furthest

theorem copied_start (starts : Starts params source copy) : copy.Copied params source := by
  obtain ⟨unread, read, batch, batchStart, maxCandidRead, reader, queue, dropped, writers, outcome⟩ := starts
  have noneTaken : copy.taken = [] := by
    simp [taken, writers, Writer.taken]
  have noneWaiting : copy.pipeline = [] := by
    simp [pipeline, queue, reader, sendingOf, dropped, current, batch]
  constructor
  · constructor
    · simp [read]
    · simp [noneTaken, noneWaiting]
    · simp [noneWaiting]
    · simp [noneTaken]
    · simp [read]
    · intro id member
      exact .inr (unread ▸ member)
    · exact .inl maxCandidRead
  · simp [writers]
  · simp [writers]
  · exact fun _ => dropped
  · simp [reader]
  · simp [reader]
  · simp [dropped]
  · simp [reader]
  · simp [reader]
  · simp [Safe, outcome]

theorem safe_mono {after : Copy} (safe : Safe params source copy) (outcome : after.outcome = copy.outcome)
    (grown : ∀ id ∈ copy.destination, id ∈ after.destination) : Safe params source after := by
  intro result ended
  obtain ⟨below, done⟩ := safe result (outcome ▸ ended)
  exact ⟨fun resume reported id member bound => grown id (below resume reported id member bound),
    fun resume ok id member => grown id (done resume ok id member)⟩

/-! ## The reader -/

theorem pipeline_reading (reading : copy.reader = .reading) (kept : copy.dropped = none) :
    copy.pipeline = copy.queue ++ copy.current.toList := by
  simp [pipeline, reading, sendingOf, kept]

theorem pipeline_stop (reading : copy.reader = .reading) (error : ReadError) :
    (copy.stop error).pipeline = copy.pipeline := by
  simp only [pipeline, stop, reading, sendingOf, current]
  rfl

theorem copied_stop (copied : copy.Copied params source) (reading : copy.reader = .reading) (error : ReadError)
    (canceled : ∀ resume, error = .canceled resume → resume = copy.resume)
    (failed : ∀ resume, error = .failed (some resume) → resume = copy.resume) :
    (copy.stop error).Copied params source := by
  have same := pipeline_stop reading error
  constructor
  · exact copied.placed.frame rfl same rfl rfl rfl rfl
  · exact copied.writers
  · exact fun ended => ⟨(copied.drained ended).1, _, rfl⟩
  · rintro ⟨⟩
  · rintro _ _ ⟨⟩
  · rintro ⟨⟩
  · exact copied.refused
  · rintro resume ⟨⟩
    exact canceled resume rfl
  · rintro resume ⟨⟩
    exact .inr (failed resume rfl)
  · exact safe_mono copied.safe rfl fun _ member => member

def grownBatch (copy : Copy) (id : Int) : Batch :=
  (copy.batch ++ [id], if copy.batch = [] then id else copy.batchStart)

theorem pipeline_push (params : CopyCutoutsParams) (reading : copy.reader = .reading) (kept : copy.dropped = none) (id : Int) :
    (copy.push params id).pipeline = copy.queue ++ [copy.grownBatch id] := by
  unfold push
  dsimp only
  split
  next => simp [pipeline, sendingOf, kept, current, grownBatch]
  next => simp [pipeline, sendingOf, kept, current, grownBatch, reading]

@[simp] theorem push_taken (id : Int) : (copy.push params id).taken = copy.taken := by
  unfold push
  dsimp only
  split <;> rfl

@[simp] theorem push_read (id : Int) : (copy.push params id).read = copy.read ++ [id] := by
  unfold push
  dsimp only
  split <;> rfl

theorem push_frame (params : CopyCutoutsParams) (copy : Copy) (id : Int) : (copy.push params id).writers = copy.writers ∧
    (copy.push params id).queue = copy.queue ∧ (copy.push params id).dropped = copy.dropped ∧
    (copy.push params id).destination = copy.destination ∧ (copy.push params id).outcome = copy.outcome ∧
    (copy.push params id).unread = copy.unread.filter (· ≠ id) ∧
    (copy.push params id).maxCandidRead = if id > copy.maxCandidRead then id else copy.maxCandidRead := by
  unfold push
  dsimp only
  split <;> exact ⟨rfl, rfl, rfl, rfl, rfl, rfl, rfl⟩

theorem push_reader (params : CopyCutoutsParams) (reading : copy.reader = .reading) (id : Int) :
    (copy.push params id).reader = .reading ∨
    (copy.push params id).batch = [] ∧ ∃ item, (copy.push params id).reader = .sending item false := by
  unfold push
  dsimp only
  split
  next => exact .inr ⟨rfl, _, rfl⟩
  next => exact .inl reading

theorem push_not_stopped (reading : copy.reader = .reading) (id : Int) (error : Option ReadError) :
    (copy.push params id).reader ≠ .stopped error := by
  intro stopped
  rcases push_reader params reading id with goesOn | ⟨_, _, sent⟩
  · rw [goesOn] at stopped
    cases stopped
  · rw [sent] at stopped
    cases stopped

theorem mem_current (filled : copy.batch ≠ []) : (copy.batch, copy.batchStart) ∈ copy.pipeline := by
  simp [pipeline, current, filled]

theorem placed_push (placed : copy.Placed params source) (kept : copy.dropped = none) (reading : copy.reader = .reading) {id : Int}
    (newer : ∀ earlier ∈ copy.read, earlier < id) (least : ∀ later ∈ copy.unread, id ≤ later) :
    (copy.push params id).Placed params source := by
  have before := pipeline_reading reading kept
  have grown := pipeline_push params reading kept id
  obtain ⟨_, _, _, destination, _, unread, furthest⟩ := push_frame params copy id
  have inQueue : ∀ item ∈ copy.queue, item ∈ copy.pipeline := fun item member =>
    before ▸ List.mem_append_left _ member
  -- what starts the batch has been read, and everything in it comes later
  have ownStart : (copy.grownBatch id).2 ∈ copy.read ++ [id] ∧
      ∀ other ∈ (copy.grownBatch id).1, (copy.grownBatch id).2 ≤ other := by
    by_cases empty : copy.batch = []
    · simp [grownBatch, empty]
    · obtain ⟨startRead, within⟩ := placed.starts _ (List.mem_append_right _ (mem_current empty))
      simp only [grownBatch, empty, if_false]
      refine ⟨List.mem_append_left _ startRead, fun other member => ?_⟩
      rcases List.mem_append.mp member with inBatch | isNew
      · exact within other inBatch
      · rw [List.mem_singleton.mp isNew]
        exact Int.le_of_lt (newer _ startRead)
  -- a batch read earlier starts before the new document and before those it joins
  have beforeGrown : ∀ item : Batch, item.2 ∈ copy.read →
      (∀ later ∈ copy.pipeline, later = (copy.batch, copy.batchStart) → ∀ other ∈ later.1, item.2 ≤ other) →
      ∀ other ∈ (copy.grownBatch id).1, item.2 ≤ other := by
    intro item startRead inBatch other member
    rcases List.mem_append.mp member with old | isNew
    · exact inBatch _ (mem_current (List.ne_nil_of_mem old)) rfl other old
    · rw [List.mem_singleton.mp isNew]
      exact Int.le_of_lt (newer _ startRead)
  constructor
  · intro other member
    rw [push_taken, grown, destination]
    rw [push_read] at member
    rcases List.mem_append.mp member with old | isNew
    · rcases placed.located other old with done | ⟨item, inItems, held⟩
      · exact .inl done
      · refine .inr ?_
        rw [before] at inItems
        rcases List.mem_append.mp inItems with inTaken | waiting
        · exact ⟨item, List.mem_append_left _ inTaken, held⟩
        · rcases List.mem_append.mp waiting with queued | filling
          · exact ⟨item, List.mem_append_right _ (List.mem_append_left _ queued), held⟩
          · refine ⟨copy.grownBatch id, by simp, ?_⟩
            have inBatch : other ∈ copy.batch := by
              unfold current at filling
              split at filling
              next => simp at filling
              next =>
                have same : item = (copy.batch, copy.batchStart) := by simpa using filling
                rwa [same] at held
            exact List.mem_append_left _ inBatch
    · refine .inr ⟨copy.grownBatch id, by simp, ?_⟩
      exact List.mem_append_right _ isNew
  · intro item member
    rw [push_taken, grown] at member
    rw [push_read]
    rcases List.mem_append.mp member with inTaken | waiting
    · obtain ⟨startRead, within⟩ := placed.starts item (List.mem_append_left _ inTaken)
      exact ⟨List.mem_append_left _ startRead, within⟩
    · rcases List.mem_append.mp waiting with queued | isNew
      · obtain ⟨startRead, within⟩ := placed.starts item (List.mem_append_right _ (inQueue item queued))
        exact ⟨List.mem_append_left _ startRead, within⟩
      · rw [List.mem_singleton.mp isNew]
        exact ownStart
  · rw [grown]
    have ordered := placed.ordered
    rw [before] at ordered
    refine List.pairwise_append.mpr ⟨(List.pairwise_append.mp ordered).1, List.pairwise_singleton _ _, ?_⟩
    intro item queued later isNew
    rw [List.mem_singleton.mp isNew]
    refine beforeGrown item (placed.starts item (List.mem_append_right _ (inQueue item queued))).1 ?_
    rintro filling - rfl
    by_cases empty : copy.batch = []
    · simp [empty]
    · exact (List.pairwise_append.mp ordered).2.2 item queued _ (by simp [current, empty])
  · intro item inTaken later member
    rw [push_taken] at inTaken
    rw [grown] at member
    rcases List.mem_append.mp member with queued | isNew
    · exact placed.earlier item inTaken later (inQueue later queued)
    · rw [List.mem_singleton.mp isNew]
      refine beforeGrown item (placed.starts item (List.mem_append_left _ inTaken)).1 ?_
      intro filling waiting _
      exact placed.earlier item inTaken filling waiting
  · intro other member later inUnread
    rw [push_read] at member
    rw [unread] at inUnread
    obtain ⟨isUnread, differs⟩ := List.mem_filter.mp inUnread
    rcases List.mem_append.mp member with old | isNew
    · exact placed.unread other old later isUnread
    · rw [List.mem_singleton.mp isNew]
      have distinct : later ≠ id := by simpa using differs
      exact Int.lt_iff_le_and_ne.mpr ⟨least later isUnread, distinct.symm⟩
  · intro other member
    rw [push_read, unread]
    by_cases same : other = id
    · exact .inl (by simp [same])
    · rcases placed.all other member with old | isUnread
      · exact .inl (List.mem_append_left _ old)
      · exact .inr (List.mem_filter.mpr ⟨isUnread, by simpa using same⟩)
  · rw [furthest, push_read]
    split
    next => exact .inr (by simp)
    next => exact placed.furthest.imp_right (List.mem_append_left _)

section

variable (copied : copy.Copied params source)
include copied

theorem copied_push (reading : copy.reader = .reading) {id : Int}
    (newer : ∀ earlier ∈ copy.read, earlier < id) (least : ∀ later ∈ copy.unread, id ≤ later) :
    (copy.push params id).Copied params source := by
  have kept := copied.reading reading
  obtain ⟨writers, _, dropped, destination, outcome, _, _⟩ := push_frame params copy id
  constructor
  · exact placed_push copied.placed kept reading newer least
  · rw [writers]
    exact copied.writers
  · intro ended
    rw [writers] at ended
    obtain ⟨_, error, stopped⟩ := copied.drained ended
    rw [reading] at stopped
    cases stopped
  · intro _
    rw [dropped]
    exact kept
  · intro item last sends
    rcases push_reader params reading id with goesOn | ⟨empty, _, sent⟩
    · rw [goesOn] at sends
      cases sends
    · rw [sent] at sends
      cases sends
      exact ⟨empty, dropped.trans kept, nofun⟩
  · exact fun stopped => absurd stopped (push_not_stopped reading id _)
  · intro refused
    exact absurd (dropped.trans kept) refused
  · exact fun resume stopped => absurd stopped (push_not_stopped reading id _)
  · exact fun resume stopped => absurd stopped (push_not_stopped reading id _)
  · exact safe_mono copied.safe outcome fun _ member => destination ▸ member

theorem copied_exhausted (reading : copy.reader = .reading)
    (ended : copy.unread = []) : copy.exhausted.Copied params source := by
  have kept := copied.reading reading
  have notFinished : Writer.finished ∉ copy.writers := by
    intro finished
    obtain ⟨_, _, stopped⟩ := copied.drained finished
    rw [reading] at stopped
    cases stopped
  unfold exhausted
  split
  next empty =>
    have same : ({ copy with reader := .stopped none } : Copy).pipeline = copy.pipeline := by
      simp [pipeline, current, reading, sendingOf, empty]
    constructor
    · exact copied.placed.frame rfl same rfl rfl rfl rfl
    · exact copied.writers
    · exact fun finished => absurd finished notFinished
    · exact fun _ => kept
    · rintro _ _ ⟨⟩
    · exact fun _ => ⟨ended, empty, kept⟩
    · exact copied.refused
    · rintro _ ⟨⟩
    · rintro _ ⟨⟩
    · exact safe_mono copied.safe rfl fun _ member => member
  next filled =>
    have same : ({ copy with batch := [], reader := .sending (copy.batch, copy.batchStart) true } : Copy).pipeline =
        copy.pipeline := by
      simp [pipeline, current, reading, sendingOf, filled, kept]
    constructor
    · exact copied.placed.frame rfl same rfl rfl rfl rfl
    · exact copied.writers
    · exact fun finished => absurd finished notFinished
    · exact fun _ => kept
    · exact fun _ _ _ => ⟨rfl, kept, fun _ => ended⟩
    · rintro ⟨⟩
    · exact copied.refused
    · rintro _ ⟨⟩
    · rintro _ ⟨⟩
    · exact safe_mono copied.safe rfl fun _ member => member

theorem not_finished_of_sending {last : Bool}
    (sending : copy.reader = .sending item last) : Writer.finished ∉ copy.writers := by
  intro finished
  obtain ⟨_, _, stopped⟩ := copied.drained finished
  rw [sending] at stopped
  cases stopped

theorem copied_send {last : Bool} (sending : copy.reader = .sending item last) : ({ copy with
        queue := copy.queue ++ [item]
        reader := if last then .stopped none else .reading } : Copy).Copied params source := by
  obtain ⟨empty, kept, ended⟩ := copied.sending item last sending
  have notFinished := not_finished_of_sending copied sending
  have same : ({ copy with
      queue := copy.queue ++ [item]
      reader := if last then .stopped none else .reading } : Copy).pipeline = copy.pipeline := by
    cases last <;> simp [pipeline, current, sending, sendingOf, empty, kept]
  constructor
  · exact copied.placed.frame rfl same rfl rfl rfl rfl
  · exact copied.writers
  · exact fun finished => absurd finished notFinished
  · exact fun _ => kept
  · intro other final sends
    cases last <;> cases sends
  · cases last with
    | false => rintro ⟨⟩
    | true => exact fun _ => ⟨ended rfl, empty, kept⟩
  · exact fun refused => absurd kept refused
  · intro resume stopped
    cases last <;> cases stopped
  · intro resume stopped
    cases last <;> cases stopped
  · exact safe_mono copied.safe rfl fun _ member => member

theorem copied_refuse {last : Bool}
    (sending : copy.reader = .sending item last) (gone : ∀ writer ∈ copy.writers, writer.ended = true) : ({ copy with
        dropped := some item
        reader := .stopped (some (.failed (some item.2))) } : Copy).Copied params source := by
  obtain ⟨empty, kept, _⟩ := copied.sending item last sending
  have notFinished := not_finished_of_sending copied sending
  have same : ({ copy with
      dropped := some item
      reader := .stopped (some (.failed (some item.2))) } : Copy).pipeline = copy.pipeline := by
    simp [pipeline, current, sending, sendingOf, empty, kept]
  constructor
  · exact copied.placed.frame rfl same rfl rfl rfl rfl
  · exact copied.writers
  · exact fun finished => absurd finished notFinished
  · rintro ⟨⟩
  · rintro _ _ ⟨⟩
  · rintro ⟨⟩
  · exact fun _ writer member => ⟨gone writer member, ne_of_mem_of_not_mem member notFinished⟩
  · rintro _ ⟨⟩
  · exact fun _ _ => .inl nofun
  · exact safe_mono copied.safe rfl fun _ member => member

/-! ## The writers -/

theorem receiving_not_refused {index : Nat} {writer : Writer}
    (at_ : copy.writers[index]? = some writer) (going : writer.ended = false) : copy.dropped = none := by
  by_contra refused
  obtain ⟨ended, _⟩ := copied.refused refused writer (List.mem_of_getElem? at_)
  rw [going] at ended
  cases ended

theorem copied_take {index : Nat} {rest : List Batch}
    (receiving : copy.writers[index]? = some .receiving) (head : copy.queue = item :: rest) :
    ({ copy.setWriter index (.flushing item) with queue := rest } : Copy).Copied params source := by
  have kept := receiving_not_refused copied receiving rfl
  have front : copy.pipeline =
      item :: ({ copy.setWriter index (.flushing item) with queue := rest } : Copy).pipeline := by
    simp [pipeline, head, setWriter, current]
  -- The batch goes from the queue to a writer, so together they hold what they held.
  have shared : ∀ other, other ∈ copy.taken ++ copy.pipeline ↔
      other ∈ ({ copy.setWriter index (.flushing item) with queue := rest } : Copy).taken ++
        ({ copy.setWriter index (.flushing item) with queue := rest } : Copy).pipeline := by
    intro other
    rw [front]
    constructor
    · intro member
      rcases List.mem_append.mp member with inTaken | waiting
      · rcases mem_set_of_mem receiving inTaken with none | still
        · cases none
        · exact List.mem_append_left _ still
      · rcases List.mem_cons.mp waiting with rfl | later
        · exact List.mem_append_left _ (mem_set_self receiving rfl)
        · exact List.mem_append_right _ later
    · intro member
      rcases List.mem_append.mp member with inTaken | waiting
      · rcases mem_filterMap_set inTaken with isItem | before
        · have same : item = other := Option.some.inj isItem
          simp [same]
        · exact List.mem_append_left _ before
      · exact List.mem_append_right _ (List.mem_cons_of_mem _ waiting)
  have ordered := copied.placed.ordered
  rw [front] at ordered
  -- The batch was first in the queue, so what waits comes after it.
  obtain ⟨first, others⟩ := List.pairwise_cons.mp ordered
  constructor
  · constructor
    · intro id member
      refine (copied.placed.located id member).imp_right ?_
      rintro ⟨other, inItems, held⟩
      exact ⟨other, (shared other).mp inItems, held⟩
    · exact fun other member => copied.placed.starts other ((shared other).mpr member)
    · exact others
    · intro other inTaken later waiting
      rcases mem_filterMap_set inTaken with isItem | before
      · have same : item = other := Option.some.inj isItem
        exact same ▸ first later waiting
      · exact copied.placed.earlier other before later (front ▸ List.mem_cons_of_mem _ waiting)
    · exact copied.placed.unread
    · exact copied.placed.all
    · exact copied.placed.furthest
  · simpa [setWriter] using copied.writers
  · intro finished
    rcases List.mem_or_eq_of_mem_set finished with before | same
    · have drained := (copied.drained before).1
      rw [head] at drained
      cases drained
    · cases same
  · exact copied.reading
  · exact copied.sending
  · exact copied.finished
  · exact fun refused => absurd kept refused
  · exact copied.canceled
  · exact copied.failed
  · exact safe_mono copied.safe rfl fun _ member => member

theorem copied_answer {index : Nat} {writer : Writer}
    {landed : List Int} (flushing : copy.writers[index]? = some (.flushing item)) (going : writer ≠ .finished)
    (either : writer.taken = some item ∨
      writer.taken = none ∧ ∀ id ∈ item.1, id ∈ copy.destination ++ landed) :
    ({ copy.setWriter index writer with destination := copy.destination ++ landed } : Copy).Copied
      params source := by
  have kept := receiving_not_refused copied flushing rfl
  have fewer : ∀ other ∈ (copy.writers.set index writer).filterMap Writer.taken, other ∈ copy.taken := by
    intro other member
    rcases mem_filterMap_set member with own | before
    · rcases either with holds | ⟨none, _⟩
      · rw [holds] at own
        exact List.mem_filterMap.mpr ⟨_, List.mem_of_getElem? flushing, own⟩
      · rw [none] at own
        cases own
    · exact before
  constructor
  · constructor
    · intro id member
      rcases copied.placed.located id member with done | ⟨other, inItems, held⟩
      · exact .inl (List.mem_append_left _ done)
      · rcases List.mem_append.mp inItems with inTaken | waiting
        · rcases mem_set_of_mem flushing inTaken with own | still
          · have same : item = other := Option.some.inj own
            rcases either with holds | ⟨_, inDestination⟩
            · exact .inr ⟨item, List.mem_append_left _ (mem_set_self flushing holds), same ▸ held⟩
            · exact .inl (inDestination id (same ▸ held))
          · exact .inr ⟨other, List.mem_append_left _ still, held⟩
        · exact .inr ⟨other, List.mem_append_right _ waiting, held⟩
    · intro other member
      rcases List.mem_append.mp member with inTaken | waiting
      · exact copied.placed.starts other (List.mem_append_left _ (fewer other inTaken))
      · exact copied.placed.starts other (List.mem_append_right _ waiting)
    · exact copied.placed.ordered
    · exact fun other inTaken => copied.placed.earlier other (fewer other inTaken)
    · exact copied.placed.unread
    · exact copied.placed.all
    · exact copied.placed.furthest
  · simpa [setWriter] using copied.writers
  · intro finished
    rcases List.mem_or_eq_of_mem_set finished with before | same
    · exact copied.drained before
    · exact absurd same.symm going
  · exact copied.reading
  · exact copied.sending
  · exact copied.finished
  · exact fun refused => absurd kept refused
  · exact copied.canceled
  · exact copied.failed
  · exact safe_mono copied.safe rfl fun _ member => List.mem_append_left _ member

theorem copied_close {index : Nat} {error : Option ReadError}
    (receiving : copy.writers[index]? = some .receiving) (drained : copy.queue = [])
    (stopped : copy.reader = .stopped error) : (copy.setWriter index .finished).Copied params source := by
  have kept := receiving_not_refused copied receiving rfl
  have same : ∀ other, other ∈ (copy.setWriter index .finished).taken ↔ other ∈ copy.taken := by
    intro other
    constructor
    · intro member
      rcases mem_filterMap_set member with none | before
      · cases none
      · exact before
    · intro member
      rcases mem_set_of_mem receiving member with none | still
      · cases none
      · exact still
  have shared : ∀ other, other ∈ (copy.setWriter index .finished).taken ++
      (copy.setWriter index .finished).pipeline ↔ other ∈ copy.taken ++ copy.pipeline := by
    intro other
    rw [List.mem_append, List.mem_append, same other]
    rfl
  constructor
  · constructor
    · intro id member
      refine (copied.placed.located id member).imp_right ?_
      rintro ⟨other, inItems, held⟩
      exact ⟨other, (shared other).mpr inItems, held⟩
    · exact fun other member => copied.placed.starts other ((shared other).mp member)
    · exact copied.placed.ordered
    · exact fun other inTaken => copied.placed.earlier other ((same other).mp inTaken)
    · exact copied.placed.unread
    · exact copied.placed.all
    · exact copied.placed.furthest
  · simpa [setWriter] using copied.writers
  · exact fun _ => ⟨drained, error, stopped⟩
  · exact copied.reading
  · exact copied.sending
  · exact copied.finished
  · exact fun refused => absurd kept refused
  · exact copied.canceled
  · exact copied.failed
  · exact safe_mono copied.safe rfl fun _ member => member

end

/-! ## The end of the run -/

theorem lost_eq_taken (ended : ∀ writer ∈ copy.writers, writer.ended = true) : copy.lost = copy.taken := by
  refine List.filterMap_congr fun writer member => ?_
  have isOver := ended writer member
  cases writer with
  | receiving => cases isOver
  | flushing item => cases isOver
  | finished => rfl
  | failed item => rfl
  | panicked item => rfl

theorem error_spec (writers : List Writer) :
    (writers.findSome? Writer.error = none → writers.filterMap Writer.lost = []) ∧
    ∀ resume, writers.findSome? Writer.error = some (some resume) →
      ∃ first, (writers.filterMap Writer.lost).head? = some first ∧ first.2 = resume := by
  induction writers with
  | nil => simp
  | cons writer rest ih =>
    simp only [List.findSome?_cons, List.filterMap_cons]
    cases writer with
    | failed item =>
      refine ⟨nofun, ?_⟩
      rintro _ ⟨⟩
      exact ⟨item, rfl, rfl⟩
    | panicked item => exact ⟨nofun, nofun⟩
    | receiving => exact ih
    | flushing item => exact ih
    | finished => exact ih

theorem drained_of_none_lost (copied : copy.Copied params source)
    (ended : ∀ writer ∈ copy.writers, writer.ended = true) (intact : copy.lost = []) :
    copy.queue = [] ∧ copy.dropped = none := by
  have some_ : copy.writers ≠ [] := by
    intro empty
    have count := copied.writers
    rw [empty] at count
    exact absurd count (Nat.ne_of_lt params.validParallelism.1)
  obtain ⟨writer, member⟩ := List.exists_mem_of_ne_nil copy.writers some_
  have finished : writer = .finished := by
    have isOver := ended writer member
    have kept : writer.lost = .none := List.filterMap_eq_nil_iff.mp intact writer member
    cases writer with
    | finished => rfl
    | receiving => cases isOver
    | flushing item => cases isOver
    | failed item => cases kept
    | panicked item => cases kept
  refine ⟨(copied.drained (finished ▸ member)).1, ?_⟩
  by_contra refused
  exact (copied.refused refused writer member).2 finished

theorem word_of_matching {id : Int} (member : id ∈ matching params source) : i64Min ≤ id :=
  source.words id (List.mem_of_mem_filter member)

section

variable (copied : copy.Copied params source)
include copied

theorem safe_resume {error : Option ReadError}
    (stopped : copy.reader = .stopped error) (ended : ∀ writer ∈ copy.writers, writer.ended = true)
    (intact : copy.lost = []) : ∀ id ∈ matching params source, id < copy.resume → id ∈ copy.destination := by
  intro id member below
  obtain ⟨empty, kept⟩ := drained_of_none_lost copied ended intact
  have waiting : copy.pipeline = copy.current.toList := by
    simp [pipeline, empty, stopped, sendingOf, kept]
  have nothingTaken : copy.taken = [] := by rw [← lost_eq_taken ended, intact]
  have starts := copied.placed.starts
  have located := copied.placed.located
  rw [nothingTaken, waiting] at starts located
  rcases copied.placed.all id member with wasRead | isUnread
  · rcases located id wasRead with done | ⟨item, current, held⟩
    · exact done
    · -- what is still in the batch is not below its start
      exfalso
      have within := (starts item current).2 id held
      unfold Copy.current at current
      split at current
      next => simp at current
      next filled =>
        have same : item = (copy.batch, copy.batchStart) := by simpa using current
        rw [resume, if_pos filled] at below
        rw [same] at within
        exact absurd within (Int.not_le.mpr below)
  · exfalso
    by_cases filled : copy.batch ≠ []
    · have start := (starts (copy.batch, copy.batchStart) (by simp [current, filled])).1
      rw [resume, if_pos filled] at below
      exact absurd (copied.placed.unread _ start id isUnread) (Int.lt_asymm below)
    · rw [resume, if_neg filled] at below
      rcases copied.placed.furthest with nothing | wasRead
      · rw [nothing] at below
        exact absurd (word_of_matching member) (Int.not_le.mpr below)
      · exact absurd (copied.placed.unread _ wasRead id isUnread) (Int.lt_asymm below)

theorem safe_first (ended : ∀ writer ∈ copy.writers, writer.ended = true)
    {first : Batch} (isFirst : copy.lost.head? = some first) (least : ∀ item ∈ copy.lost, first.2 ≤ item.2) :
    ∀ id ∈ matching params source, id < first.2 → id ∈ copy.destination := by
  intro id member below
  have same := lost_eq_taken ended
  have inTaken : first ∈ copy.taken := same ▸ List.mem_of_head? isFirst
  obtain ⟨startRead, _⟩ := copied.placed.starts first (List.mem_append_left _ inTaken)
  rcases copied.placed.all id member with wasRead | isUnread
  · rcases copied.placed.located id wasRead with done | ⟨item, inItems, held⟩
    · exact done
    · exfalso
      rcases List.mem_append.mp inItems with lostItem | waiting
      · have within := (copied.placed.starts item inItems).2 id held
        have order := least item (same ▸ lostItem)
        omega
      · have within := copied.placed.earlier first inTaken item waiting id held
        omega
  · exact absurd (copied.placed.unread _ startRead id isUnread) (Int.lt_asymm below)

theorem copied_conclude {error : Option ReadError}
    (stopped : copy.reader = .stopped error) (ended : ∀ writer ∈ copy.writers, writer.ended = true)
    (orderly : copy.Orderly) : ({ copy with outcome := some (copy.result error) } : Copy).Copied params source := by
  refine { copied with placed := copied.placed.frame rfl rfl rfl rfl rfl rfl, safe := ?_ }
  rintro _ ⟨⟩
  obtain ⟨noneFailed, someFailed⟩ := error_spec copy.writers
  have fromFirst : ∀ resume, copy.writers.findSome? Writer.error = some (some resume) →
      ∀ id ∈ matching params source, id < resume → id ∈ copy.destination := by
    intro resume found
    obtain ⟨first, isFirst, rfl⟩ := someFailed resume found
    exact safe_first copied ended isFirst (orderly.2 first isFirst)
  unfold result
  split
  next resume =>
    refine ⟨?_, nofun⟩
    rintro _ ⟨⟩
    rw [copied.canceled resume stopped]
    exact safe_resume copied stopped ended (orderly.1 resume stopped)
  next resume _ found =>
    refine ⟨?_, nofun⟩
    rintro point ⟨⟩
    exact fromFirst point found
  next resume found =>
    refine ⟨?_, nofun⟩
    rintro point ⟨⟩
    have intact : copy.lost = [] := noneFailed found
    rcases copied.failed point stopped with refused | same
    · exact absurd (drained_of_none_lost copied ended intact).2 refused
    · rw [same]
      exact safe_resume copied stopped ended intact
  next found =>
    have intact : copy.lost = [] := noneFailed found
    obtain ⟨nothingLeft, empty, kept⟩ := copied.finished stopped
    have all : ∀ id ∈ matching params source, id ∈ copy.destination := by
      intro id member
      rcases copied.placed.all id member with wasRead | isUnread
      · rcases copied.placed.located id wasRead with done | ⟨item, inItems, _⟩
        · exact done
        · have nothing : copy.taken ++ copy.pipeline = [] := by
            rw [← lost_eq_taken ended, intact]
            simp [pipeline, (drained_of_none_lost copied ended intact).1, stopped, sendingOf, kept, current, empty]
          rw [nothing] at inItems
          cases inItems
      · rw [nothingLeft] at isUnread
        cases isUnread
    exact ⟨fun _ _ id member _ => all id member, fun _ _ => all⟩

/-! ## Runs -/

theorem copied_step {after : Copy} (orderly : copy.Orderly)
    (step : Step params copy after) : after.Copied params source := by
  cases step with
  | cancel reading =>
    refine copied_stop copied reading _ ?_ nofun
    rintro _ ⟨⟩
    rfl
  | next reading _ newer least => exact copied_push copied reading newer least
  | malformed reading => exact copied_stop copied reading _ nofun nofun
  | exhausted reading ended => exact copied_exhausted copied reading ended
  | cursorFails reading =>
    refine copied_stop copied reading _ nofun ?_
    intro resume same
    split at same
    next => cases same
    next => cases same; rfl
  | send sending _ _ => exact copied_send copied sending
  | refuse sending gone => exact copied_refuse copied sending gone
  | take receiving head => exact copied_take copied receiving head
  | close receiving drained stopped => exact copied_close copied receiving drained stopped
  | @flush index item answer landed flushing answers =>
    cases ok : flushBatch answer with
    | true => exact copied_answer copied flushing nofun (.inr ⟨rfl, written answers ok⟩)
    | false => exact copied_answer copied flushing nofun (.inl rfl)
  | panic flushing => exact copied_answer copied flushing nofun (.inl rfl)
  | conclude stopped ended => exact copied_conclude copied stopped ended orderly

end

/-- The point a run reports is safe to resume from, and a run that succeeds has copied everything. -/
theorem safe_of_orderly (reachable : Reachable (Starts params source) (OrderlyStep params) copy) :
    Safe params source copy := by
  have copied : copy.Copied params source := by
    refine reachable.invariant (fun copy => copy.Copied params source) ?_ ?_
    · exact fun _ starts => copied_start starts
    · exact fun _ _ _ copied step => copied_step copied step.2 step.1
  exact copied.safe

/-! ### One batch is lost -/

def oneByOne : CopyCutoutsParams := ⟨1, none, 2, by decide, by decide⟩

def twoCutouts : Source := ⟨[1, 2], by decide⟩

def opened : Copy where
  unread := [1, 2]
  read := []
  batch := []
  batchStart := i64Min
  maxCandidRead := i64Min
  reader := .reading
  queue := []
  dropped := none
  writers := [.receiving, .receiving]
  destination := []
  outcome := none

theorem starts_opened : Starts oneByOne twoCutouts opened :=
  ⟨rfl, rfl, rfl, rfl, rfl, rfl, rfl, rfl, rfl, rfl⟩

def handed (first second : Nat) : Copy where
  unread := []
  read := [1, 2]
  batch := []
  batchStart := i64Min
  maxCandidRead := 2
  reader := .stopped none
  queue := []
  dropped := none
  writers := ([Writer.receiving, .receiving].set first (.flushing ([1], 1))).set second (.flushing ([2], 2))
  destination := []
  outcome := none

theorem reachable_handed (allowed : Copy → Prop) {first second : Nat}
    (distinct : (first = 0 ∧ second = 1) ∨ (first = 1 ∧ second = 0))
    (early : ∀ copy : Copy, copy.lost = [] → (∀ resume, copy.reader ≠ .stopped (some (.canceled resume))) →
      allowed copy) :
    Reachable (Starts oneByOne twoCutouts) (fun copy after => Step oneByOne copy after ∧ allowed copy)
      (handed first second) := by
  have start : Reachable (Starts oneByOne twoCutouts)
      (fun copy after => Step oneByOne copy after ∧ allowed copy) opened := .start starts_opened
  have one := start.next ⟨@Step.next _ _ 1 rfl (by decide) (by decide) (by decide), early _ rfl nofun⟩
  have sent := one.next ⟨.send rfl (by decide) ⟨_, .head _, rfl⟩, early _ rfl nofun⟩
  have two := sent.next ⟨@Step.next _ _ 2 rfl (by decide) (by decide) (by decide), early _ rfl nofun⟩
  have both := two.next ⟨.send rfl (by decide) ⟨_, .head _, rfl⟩, early _ rfl nofun⟩
  have isOver := both.next ⟨.exhausted rfl rfl, early _ rfl nofun⟩
  rcases distinct with ⟨rfl, rfl⟩ | ⟨rfl, rfl⟩
  · have taken := isOver.next ⟨@Step.take _ _ 0 _ _ rfl rfl, early _ rfl nofun⟩
    exact taken.next ⟨@Step.take _ _ 1 _ _ rfl rfl, early _ rfl nofun⟩
  · have taken := isOver.next ⟨@Step.take _ _ 1 _ _ rfl rfl, early _ rfl nofun⟩
    exact taken.next ⟨@Step.take _ _ 0 _ _ rfl rfl, early _ rfl nofun⟩

theorem orderly_of_one (one : copy.lost.length ≤ 1)
    (going : ∀ resume, copy.reader ≠ .stopped (some (.canceled resume))) : copy.Orderly := by
  refine ⟨fun resume canceled => absurd canceled (going resume), ?_⟩
  intro first isFirst item member
  cases shape : copy.lost with
  | nil =>
    rw [shape] at member
    cases member
  | cons head rest =>
    rw [shape] at isFirst member one
    have alone : rest = [] := List.length_eq_zero_iff.mp (by simpa using one)
    rw [alone] at member
    have same : head = first := Option.some.inj isFirst
    simp only [List.mem_singleton.mp member, same, Int.le_refl]

def secondLost : Copy :=
  { handed 0 1 with
    writers := [.finished, .failed ([2], 2)]
    destination := [1]
    outcome := some (.failed (some 2)) }

theorem reachable_secondLost : Reachable (Starts oneByOne twoCutouts) (OrderlyStep oneByOne) secondLost := by
  have taken := reachable_handed Orderly (.inl ⟨rfl, rfl⟩)
    fun copy intact going => orderly_of_one (by simp [intact]) going
  have wrote := taken.next
    ⟨@Step.flush _ _ 0 _ .inserted [1] rfl ⟨by decide, by decide⟩, orderly_of_one (by decide) nofun⟩
  have failed := wrote.next
    ⟨@Step.flush _ _ 1 _ .other [] rfl ⟨nofun, trivial⟩, orderly_of_one (by decide) nofun⟩
  have closed := failed.next ⟨@Step.close _ _ 0 _ rfl rfl rfl, orderly_of_one (by decide) nofun⟩
  have done := closed.next ⟨.conclude rfl (by decide), orderly_of_one (by decide) nofun⟩
  exact done

theorem safe_of_orderly_secondLost :
    secondLost.outcome = some (.failed (some 2)) ∧ Safe oneByOne twoCutouts secondLost :=
  ⟨rfl, safe_of_orderly reachable_secondLost⟩

/-! ### Two batches are lost -/

def bothLost : Copy :=
  { handed 1 0 with
    writers := [.failed ([2], 2), .failed ([1], 1)]
    outcome := some (.failed (some 2)) }

theorem reachable_bothLost : Reachable (Starts oneByOne twoCutouts) (Step oneByOne) bothLost := by
  have taken := reachable_handed (fun _ => True) (.inr ⟨rfl, rfl⟩) fun _ _ _ => trivial
  have first := taken.next ⟨@Step.flush _ _ 1 _ .other [] rfl ⟨nofun, trivial⟩, trivial⟩
  have second := first.next ⟨@Step.flush _ _ 0 _ .other [] rfl ⟨nofun, trivial⟩, trivial⟩
  have done := second.next
    ⟨.conclude rfl (by decide), trivial⟩
  exact done.mono fun _ _ step => step.1

/-- The reported point is that of the first handle, not of the first batch. -/
theorem resume_past_lost_batch :
    ¬ ∀ params source copy, Reachable (Starts params source) (Step params) copy → Safe params source copy := by
  intro always
  obtain ⟨below, _⟩ := always oneByOne twoCutouts bothLost reachable_bothLost _ rfl
  exact absurd (below 2 rfl 1 (by decide) (by decide)) (by decide)

end Copy

end Boom.Tasks.Cutouts
