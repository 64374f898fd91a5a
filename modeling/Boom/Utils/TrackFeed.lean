import Mathlib.Algebra.Order.Ring.Nat
import Mathlib.Data.Prod.Lex
import Boom.Foundations.Transition
import Boom.Utils.TrackWrites

/-! # The track feed

A client polls for the tracks written since its last look.  Its cursor is a position in
the order of writing time, then id, and a page is the next few tracks after it. -/

namespace Boom.Utils

open Boom.Foundations

variable {F : Type}

def StoredTrack.explicit (track : StoredTrack F) : StoredTrack F :=
  { track with
    members := track.memberKeys.map Prod.snd
    memberSurveys := track.memberKeys.map Prod.fst }

/-! ## Listing tracks -/

structure TrackQuery (F : Type) where
  updatedSince : F
  afterId : Option String
  unknownOnly : Bool
  minE : Option F
  maxQ : Option F
  minNights : Option Nat
  maxRmsRatio : Option F

structure TrackCursor (F : Type) where
  updatedSince : F
  afterId : String

structure TrackPage (F : Type) where
  tracks : List (StoredTrack F)
  next : Option (TrackCursor F)

section Listing

variable [LinearOrder F]

abbrev TrackDocument (F : Type) := String × StoredTrack F

def position (document : TrackDocument F) : F ×ₗ String :=
  toLex (document.2.updatedAt, document.1)

def cursorAt (document : TrackDocument F) : TrackCursor F where
  updatedSince := document.2.updatedAt
  afterId := document.1

variable {query : TrackQuery F}

namespace TrackQuery

def window (query : TrackQuery F) (document : TrackDocument F) : Bool :=
  query.updatedSince ≤ document.2.updatedAt && !query.afterId.any fun afterId =>
    document.2.updatedAt = query.updatedSince && document.1 ≤ afterId

def filter (elements : StoredOrbit F → F × F) (query : TrackQuery F) (document : TrackDocument F) : Bool :=
  query.window document &&
    (!query.unknownOnly || document.2.designation.isNone) &&
    query.minNights.all (· ≤ document.2.nNights) &&
    query.minE.all (fun least => document.2.orbit.any fun orbit => least ≤ (elements orbit).1) &&
    query.maxQ.all (fun most => document.2.orbit.any fun orbit => (elements orbit).2 ≤ most) &&
    query.maxRmsRatio.all fun most => document.2.rmsRatio.any (· ≤ most)

/-- No cuts: every track in the window passes. -/
structure Uncut (query : TrackQuery F) : Prop where
  unknownOnly : query.unknownOnly = false
  minE : query.minE = none
  maxQ : query.maxQ = none
  minNights : query.minNights = none
  maxRmsRatio : query.maxRmsRatio = none

theorem Uncut.filter (uncut : query.Uncut) (elements : StoredOrbit F → F × F) :
    query.filter elements = query.window := by
  funext document
  simp [TrackQuery.filter, uncut.unknownOnly, uncut.minE, uncut.maxQ, uncut.minNights, uncut.maxRmsRatio]

end TrackQuery

def newestCursor (store : TrackStore F) (query : TrackQuery F) : Option (TrackCursor F) :=
  ((store.tracks.entries.filter query.window).mergeSort fun first second =>
    position second ≤ position first).head?.map cursorAt

def pageDocuments (elements : StoredOrbit F → F × F) (store : TrackStore F) (query : TrackQuery F) (limit : Nat) :
    List (TrackDocument F) :=
  ((store.tracks.entries.filter (query.filter elements)).mergeSort fun first second =>
    position first ≤ position second).take limit

def readPage (elements : StoredOrbit F → F × F) (store : TrackStore F) (query : TrackQuery F) (limit : Nat)
    (newest : Option (TrackCursor F)) : TrackPage F :=
  let documents := pageDocuments elements store query limit
  { tracks := documents.map fun document => document.2.explicit
    next := if documents.length = limit then documents.getLast?.map cursorAt else newest }

/-! ### What a page holds -/

variable {document : TrackDocument F}

theorem window_iff :
    query.window document = true ↔ query.updatedSince ≤ document.2.updatedAt ∧
      ∀ afterId ∈ query.afterId, document.2.updatedAt = query.updatedSince → afterId < document.1 := by
  unfold TrackQuery.window
  cases query.afterId with
  | none => simp
  | some afterId =>
    simp only [Option.any_some, Bool.and_eq_true, Bool.not_eq_true', Bool.and_eq_false_imp, decide_eq_true_eq,
      decide_eq_false_iff_not, not_le, Option.mem_some_iff, forall_eq']

theorem window_cursor {last document : TrackDocument F}
    (since : query.updatedSince = last.2.updatedAt) (afterId : query.afterId = some last.1) :
    query.window document = true ↔ position last < position document := by
  rw [window_iff, since, afterId, position, position, Prod.Lex.toLex_lt_toLex]
  simp only [Option.mem_some_iff, forall_eq']
  constructor
  · rintro ⟨atLeast, later⟩
    rcases lt_or_eq_of_le atLeast with newer | same
    · exact .inl newer
    · exact .inr ⟨same, later same.symm⟩
  · rintro (newer | ⟨same, later⟩)
    · exact ⟨newer.le, fun same => absurd same newer.ne'⟩
    · exact ⟨same.le, fun _ => later⟩

theorem mem_newestCursor {store : TrackStore F} {newest : TrackCursor F}
    (read : newestCursor store query = some newest) :
    ∃ key track, store.tracks.get key = some track ∧ newest.updatedSince = track.updatedAt := by
  obtain ⟨⟨key, track⟩, isHead, rfl⟩ := Option.map_eq_some_iff.mp read
  have listed := List.mem_filter.mp (List.mem_mergeSort.mp (List.mem_of_head? isHead))
  exact ⟨key, track, Collection.mem_entries_iff.mp listed.1, rfl⟩

variable {elements : StoredOrbit F → F × F} {store : TrackStore F} {query : TrackQuery F} {limit : Nat}

theorem mem_pageDocuments (listed : document ∈ pageDocuments elements store query limit) :
    store.tracks.get document.1 = some document.2 := by
  have stored := List.mem_filter.mp (List.mem_mergeSort.mp (List.mem_of_mem_take listed))
  exact Collection.mem_entries_iff.mp stored.1

theorem mem_of_short (uncut : query.Uncut) (short : (pageDocuments elements store query limit).length < limit)
    (stored : store.tracks.get document.1 = some document.2)
    (inside : query.window document = true) : document ∈ pageDocuments elements store query limit := by
  unfold pageDocuments at short ⊢
  rw [uncut.filter] at short ⊢
  rw [List.length_take] at short
  rw [List.take_of_length_le (by omega), List.mem_mergeSort, List.mem_filter]
  exact ⟨Collection.mem_entries_iff.mpr stored, inside⟩

theorem mem_of_before_last (uncut : query.Uncut) {last : TrackDocument F}
    (isLast : (pageDocuments elements store query limit).getLast? = some last)
    (stored : store.tracks.get document.1 = some document.2) (inside : query.window document = true)
    (before : position document ≤ position last) : document ∈ pageDocuments elements store query limit := by
  have atLast := List.mem_of_getLast? isLast
  have storedLast := mem_pageDocuments atLast
  unfold pageDocuments at atLast ⊢
  rw [uncut.filter] at atLast ⊢
  have ordered := @List.pairwise_mergeSort _ (fun first second : TrackDocument F => decide (position first ≤ position second))
    (fun first second third => by simpa using le_trans) (fun first second => by simpa using le_total _ _)
    (store.tracks.entries.filter query.window)
  have listed : document ∈ (store.tracks.entries.filter query.window).mergeSort
      fun first second => position first ≤ position second :=
    List.mem_mergeSort.mpr (List.mem_filter.mpr ⟨Collection.mem_entries_iff.mpr stored, inside⟩)
  rw [← List.take_append_drop limit (List.mergeSort _ _)] at listed ordered
  rcases List.mem_append.mp listed with here | later
  · exact here
  · -- Not before the last track of the page either, so it is that track.
    have after := (List.pairwise_append.mp ordered).2.2 last atLast document later
    have same : position document = position last := le_antisymm before (by simpa using after)
    have sameKey : document.1 = last.1 := (Prod.mk.inj (toLex.injective same)).2
    have sameTrack : document.2 = last.2 := by
      rw [sameKey, storedLast] at stored
      exact (Option.some.inj stored).symm
    exact Prod.ext sameKey sameTrack ▸ atLast

end Listing

/-! ## A client among commits -/

/-- A client that polls without cuts, and the commit in progress. -/
structure Feed (F : Type) where
  store : TrackStore F
  /-- The operations of the commit still to come. -/
  pending : List (TrackWrite F)
  /-- The latest time a commit took from the clock. -/
  clock : F
  query : TrackQuery F
  /-- The call in progress: its limit, and the newest position it has read. -/
  call : Option (Nat × Option (TrackCursor F))
  received : List (StoredTrack F)

def TrackQuery.following (query : TrackQuery F) (next : Option (TrackCursor F)) : TrackQuery F :=
  next.elim query fun cursor =>
    { query with updatedSince := cursor.updatedSince, afterId := some cursor.afterId }

def Stamped (writes : List (TrackWrite F)) (now : F) : Prop :=
  ∀ id track, .replace id track ∈ writes → track.id = id ∧ track.updatedAt = now

namespace Feed

variable [LinearOrder F]

def commit (feed : Feed F) (writes : List (TrackWrite F)) (now : F) : Feed F :=
  { feed with pending := writes, clock := now }

def write (feed : Feed F) (operation : TrackWrite F) (rest : List (TrackWrite F)) : Feed F :=
  { feed with store := operation.apply feed.store, pending := rest }

def readNewest (feed : Feed F) (limit : Nat) : Feed F :=
  { feed with call := some (limit, newestCursor feed.store feed.query) }

def page (elements : StoredOrbit F → F × F) (feed : Feed F) (limit : Nat) (newest : Option (TrackCursor F)) :
    TrackPage F :=
  readPage elements feed.store feed.query limit newest

def finishCall (elements : StoredOrbit F → F × F) (feed : Feed F) (limit : Nat)
    (newest : Option (TrackCursor F)) : Feed F :=
  { feed with
    query := feed.query.following (feed.page elements limit newest).next
    call := none
    received := feed.received ++ (feed.page elements limit newest).tracks }

def Ahead (feed : Feed F) : TrackWrite F → Prop
  | .replace id track =>
    track.updatedAt = feed.query.updatedSince → ∀ afterId ∈ feed.query.afterId, afterId < id
  | _ => True

inductive Step (elements : StoredOrbit F → F × F) (permit : Feed F → TrackWrite F → Prop) (feed : Feed F) :
    Feed F → Prop where
  | commit {writes : List (TrackWrite F)} {now : F} (idle : feed.pending = []) (later : feed.clock ≤ now)
      (stamped : Stamped writes now) : Step elements permit feed (feed.commit writes now)
  | write {operation : TrackWrite F} {rest : List (TrackWrite F)} (next : feed.pending = operation :: rest)
      (permitted : permit feed operation) : Step elements permit feed (feed.write operation rest)
  | readNewest {limit : Nat} (idle : feed.call = none) (positive : 1 ≤ limit) :
      Step elements permit feed (feed.readNewest limit)
  | finishCall {limit : Nat} {newest : Option (TrackCursor F)} (calling : feed.call = some (limit, newest)) :
      Step elements permit feed (feed.finishCall elements limit newest)

structure Start [Zero F] (feed : Feed F) : Prop where
  pending : feed.pending = []
  clock : 0 ≤ feed.clock
  stamps : ∀ key track, feed.store.tracks.get key = some track →
    0 ≤ track.updatedAt ∧ track.updatedAt ≤ feed.clock
  uncut : feed.query.Uncut
  since : feed.query.updatedSince = 0
  afterId : feed.query.afterId = none
  call : feed.call = none

abbrev Run [Zero F] (elements : StoredOrbit F → F × F) (permit : Feed F → TrackWrite F → Prop)
    (feed : Feed F) : Prop :=
  Reachable Start (Step elements permit) feed

structure Sound (feed : Feed F) : Prop where
  uncut : feed.query.Uncut
  received : ∀ key track, feed.store.tracks.get key = some track → feed.query.window (key, track) = false →
    track.explicit ∈ feed.received
  stamps : ∀ key track, feed.store.tracks.get key = some track → track.updatedAt ≤ feed.clock
  writes : Stamped feed.pending feed.clock
  cursor : feed.query.updatedSince ≤ feed.clock
  newest : ∀ limit newest, feed.call = some (limit, some newest) → newest.updatedSince ≤ feed.clock
  limit : ∀ limit newest, feed.call = some (limit, newest) → 1 ≤ limit

variable {feed : Feed F}

theorem Sound.commit (sound : Sound feed) {writes : List (TrackWrite F)} {now : F}
    (later : feed.clock ≤ now) (stamped : Stamped writes now) : Sound (feed.commit writes now) where
  uncut := sound.uncut
  received := sound.received
  stamps key track stored := (sound.stamps key track stored).trans later
  writes := stamped
  cursor := sound.cursor.trans later
  newest limit newest calling := (sound.newest limit newest calling).trans later
  limit := sound.limit

theorem Sound.write (sound : Sound feed) {operation : TrackWrite F} {rest : List (TrackWrite F)}
    (next : feed.pending = operation :: rest) (ahead : feed.Ahead operation) :
    Sound (feed.write operation rest) := by
  have later : Stamped rest feed.clock := fun key track listed =>
    sound.writes key track (next ▸ List.mem_cons_of_mem _ listed)
  -- A track found after the operation was there before, or is the one it writes.
  have found {key : String} {track : StoredTrack F}
      (stored : (operation.apply feed.store).tracks.get key = some track) :
      feed.store.tracks.get key = some track ∨ operation = .replace key track := by
    cases operation with
    | replace id written =>
      simp only [TrackWrite.apply, Collection.get_replaceOne] at stored
      split at stored
      next same => exact .inr (by rw [same, Option.some.inj stored])
      next => exact .inl stored
    | delete ids =>
      simp only [TrackWrite.apply, Collection.get_deleteMany, Option.filter_eq_some_iff] at stored
      exact .inl stored.1
    | unstamp | repoint | writeAlias => exact .inl stored
  refine ⟨sound.uncut, fun key track stored outside => ?_, fun key track stored => ?_, later, sound.cursor,
    sound.newest, sound.limit⟩
  · rcases found stored with old | rfl
    · exact sound.received key track old outside
    · have inside : feed.query.window (key, track) = true := by
        refine window_iff.mpr ⟨?_, fun afterId isAfter same => ahead same afterId isAfter⟩
        rw [(sound.writes key track (next ▸ List.mem_cons_self)).2]
        exact sound.cursor
      have outside : feed.query.window (key, track) = false := outside
      rw [inside] at outside
      cases outside
  · rcases found stored with old | rfl
    · exact sound.stamps key track old
    · exact le_of_eq (sound.writes key track (next ▸ List.mem_cons_self)).2

theorem Sound.readNewest (sound : Sound feed) {limit : Nat} (positive : 1 ≤ limit) :
    Sound (feed.readNewest limit) where
  uncut := sound.uncut
  received := sound.received
  stamps := sound.stamps
  writes := sound.writes
  cursor := sound.cursor
  newest same newest calling := by
    obtain ⟨key, track, stored, since⟩ := mem_newestCursor (Prod.mk.inj (Option.some.inj calling)).2
    exact since ▸ sound.stamps key track stored
  limit same newest calling := (Prod.mk.inj (Option.some.inj calling)).1 ▸ positive

variable {elements : StoredOrbit F → F × F}

theorem Sound.receives (sound : Sound feed) {limit : Nat}
    {newest : Option (TrackCursor F)} (calling : feed.call = some (limit, newest)) {key : String}
    {track : StoredTrack F} (stored : feed.store.tracks.get key = some track)
    (reached : (feed.finishCall elements limit newest).query.window (key, track) = false ∨
      (feed.page elements limit newest).tracks.length < limit) :
    track.explicit ∈ (feed.finishCall elements limit newest).received := by
  by_cases inside : feed.query.window (key, track) = true
  · suffices listed : (key, track) ∈ pageDocuments elements feed.store feed.query limit from
      List.mem_append_right _ (List.mem_map.mpr ⟨_, listed, rfl⟩)
    by_cases full : (pageDocuments elements feed.store feed.query limit).length = limit
    · have positive := sound.limit limit newest calling
      obtain ⟨last, isLast⟩ : ∃ last, (pageDocuments elements feed.store feed.query limit).getLast? = some last := by
        have nonempty : pageDocuments elements feed.store feed.query limit ≠ [] :=
          List.ne_nil_of_length_pos (by omega)
        exact ⟨_, List.getLast?_eq_some_getLast nonempty⟩
      refine mem_of_before_last sound.uncut isLast stored inside ?_
      have past : (feed.finishCall elements limit newest).query.window (key, track) = false := by
        refine reached.resolve_right ?_
        simp [page, readPage, full]
      have next : (feed.page elements limit newest).next = some (cursorAt last) := by
        simp [page, readPage, full, isLast]
      have goesOn : (feed.finishCall elements limit newest).query.window (key, track) = true ↔
          position last < position (key, track) := window_cursor (by simp [Feed.finishCall, next, TrackQuery.following, cursorAt])
        (by simp [Feed.finishCall, next, TrackQuery.following, cursorAt])
      rw [← Bool.not_eq_true, goesOn] at past
      exact not_lt.mp past
    · refine mem_of_short sound.uncut ?_ stored inside
      have atMost : (pageDocuments elements feed.store feed.query limit).length ≤ limit := List.length_take_le _ _
      omega
  · exact List.mem_append_left _ (sound.received key track stored (by simpa using inside))

theorem Sound.finishCall (sound : Sound feed) {limit : Nat}
    {newest : Option (TrackCursor F)} (calling : feed.call = some (limit, newest)) :
    Sound (feed.finishCall elements limit newest) where
  uncut := by
    have uncut := sound.uncut
    simp only [Feed.finishCall]
    cases (feed.page elements limit newest).next with
    | none => exact uncut
    | some cursor => exact ⟨uncut.unknownOnly, uncut.minE, uncut.maxQ, uncut.minNights, uncut.maxRmsRatio⟩
  received key track stored outside := sound.receives calling stored (.inl outside)
  stamps := sound.stamps
  writes := sound.writes
  cursor := by
    simp only [Feed.finishCall]
    cases next : (feed.page elements limit newest).next with
    | none => exact sound.cursor
    | some cursor =>
      change cursor.updatedSince ≤ feed.clock
      simp only [page, readPage] at next
      split at next
      · obtain ⟨last, isLast, rfl⟩ := Option.map_eq_some_iff.mp next
        exact sound.stamps _ _ (mem_pageDocuments (List.mem_of_getLast? isLast))
      · exact sound.newest limit cursor (next ▸ calling)
  newest limit newest impossible := by cases impossible
  limit limit newest impossible := by cases impossible

variable [Zero F]

theorem run_sound (run : Run elements Ahead feed) :
    Sound feed := by
  refine Reachable.invariant Sound ?_ ?_ run
  · intro start isStart
    have inside {key : String} {track : StoredTrack F} (stored : start.store.tracks.get key = some track) :
        start.query.window (key, track) = true := by
      rw [window_iff, isStart.since, isStart.afterId]
      exact ⟨(isStart.stamps key track stored).1, by simp⟩
    refine ⟨isStart.uncut, fun key track stored outside => ?_, fun key track stored => ?_, ?_, ?_, ?_, ?_⟩
    · rw [inside stored] at outside
      cases outside
    · exact (isStart.stamps key track stored).2
    · simp [Stamped, isStart.pending]
    · rw [isStart.since]
      exact isStart.clock
    · simp [isStart.call]
    · simp [isStart.call]
  · intro feed after _ sound step
    cases step with
    | commit _ later stamped => exact sound.commit later stamped
    | write next ahead => exact sound.write next ahead
    | readNewest _ positive => exact sound.readNewest positive
    | finishCall calling => exact sound.finishCall calling

/-- A client that is at the end of the feed has every track as it is stored, if each track
    was written after the position the client had reached by then. -/
theorem feed_misses_nothing {elements : StoredOrbit F → F × F} {feed : Feed F} (run : Run elements Ahead feed)
    {limit : Nat} {newest : Option (TrackCursor F)} (calling : feed.call = some (limit, newest))
    (short : (feed.page elements limit newest).tracks.length < limit) :
    ∀ key track, feed.store.tracks.get key = some track →
      track.explicit ∈ (feed.finishCall elements limit newest).received :=
  fun _ _ stored => (run_sound run).receives calling stored (.inr short)

/-! ## Two writes in one millisecond -/

def put (feed : Feed F) (track : StoredTrack F) : Feed F :=
  (feed.commit [.replace track.id track] track.updatedAt).write (.replace track.id track) []

def poll (elements : StoredOrbit F → F × F) (feed : Feed F) (limit : Nat) : Feed F :=
  (feed.readNewest limit).finishCall elements limit (newestCursor feed.store feed.query)

variable {elements : StoredOrbit F → F × F} {permit : Feed F → TrackWrite F → Prop} {feed : Feed F}

theorem Run.put (run : Run elements permit feed) (idle : feed.pending = []) {track : StoredTrack F}
    (later : feed.clock ≤ track.updatedAt)
    (permitted : permit (feed.commit [.replace track.id track] track.updatedAt) (.replace track.id track)) :
    Run elements permit (feed.put track) := by
  refine .next (.next run (.commit idle later fun id written listed => ?_)) (.write rfl permitted)
  obtain ⟨rfl, rfl⟩ := TrackWrite.replace.inj (List.mem_singleton.mp listed)
  exact ⟨rfl, rfl⟩

theorem Run.poll (run : Run elements permit feed) (idle : feed.call = none) {limit : Nat} (positive : 1 ≤ limit) :
    Run elements permit (feed.poll elements limit) :=
  .next (.next run (.readNewest idle positive)) (.finishCall rfl)

def exampleTrack (id : String) (updatedAt : Nat) : StoredTrack Nat where
  id := id
  members := [1, 2]
  memberSurveys := [.ztf, .ztf]
  epochs := [0, 1]
  boundFit := none
  boundFitResidualArcsec := none
  boundFitDetections := none
  expectedRmsArcsec := none
  rmsRatio := none
  nDetections := 2
  nNights := 2
  arcDays := 1
  firstJd := 0
  lastJd := 1
  designation := none
  kind := none
  nearPlanet := none
  updatedAt := updatedAt
  orbit := none

def newClient : Feed Nat where
  store := TrackStore.empty Nat
  pending := []
  clock := 0
  query := ⟨0, none, false, none, none, none, none⟩
  call := none
  received := []

theorem newClient_start : Start newClient :=
  ⟨rfl, Nat.le_refl _, fun key track stored => (by cases stored), ⟨rfl, rfl, rfl, rfl, rfl⟩, rfl, rfl, rfl⟩

def noElements : StoredOrbit Nat → Nat × Nat := fun _ => (0, 0)

def upToDate : Feed Nat :=
  ((newClient.put (exampleTrack "BT000001" 3)).poll noElements 10 |>.put (exampleTrack "BT000002" 5)).poll
    noElements 10

theorem upToDate_run (permit : Feed Nat → TrackWrite Nat → Prop)
    (permitted : ∀ feed write, Ahead feed write → permit feed write) : Run noElements permit upToDate := by
  refine Run.poll (Run.put (Run.poll (Run.put (.start newClient_start) rfl (by decide) ?_) rfl (by decide))
    rfl (by decide) ?_) rfl (by decide)
  · exact permitted _ _ fun _ afterId impossible => by cases impossible
  · exact permitted _ _ fun same => absurd same (by decide +kernel)

/-- The first track is written again later, and the client asks once more. -/
theorem feed_misses_nothing_extended :
    let feed := (upToDate.put (exampleTrack "BT000001" 6)).readNewest 10
    (feed.page noElements 10 (newestCursor feed.store feed.query)).tracks.length = 1 ∧
      ∀ key track, feed.store.tracks.get key = some track →
        track.explicit ∈ (feed.finishCall noElements 10 (newestCursor feed.store feed.query)).received := by
  have run : Run noElements Ahead (upToDate.put (exampleTrack "BT000001" 6)) :=
    (upToDate_run Ahead fun _ _ => id).put rfl (by decide +kernel) fun same => absurd same (by decide +kernel)
  exact ⟨by decide +kernel, feed_misses_nothing (.next run (.readNewest rfl (by decide))) rfl (by decide +kernel)⟩

def tied : Feed Nat :=
  (upToDate.put (exampleTrack "BT000001" 5)).readNewest 10

/-- The client is told there is nothing more, and has not received it. -/
theorem tie_is_missed : Run noElements (fun _ _ => True) tied ∧
    tied.call = some (10, newestCursor tied.store tied.query) ∧
    (tied.page noElements 10 (newestCursor tied.store tied.query)).tracks.length = 0 ∧
    ∃ track, tied.store.tracks.get "BT000001" = some track ∧
      track.explicit ∉ (tied.finishCall noElements 10 (newestCursor tied.store tied.query)).received := by
  have run : Run noElements (fun _ _ => True) (upToDate.put (exampleTrack "BT000001" 5)) :=
    (upToDate_run _ fun _ _ _ => trivial).put rfl (by decide +kernel) trivial
  refine ⟨.next run (.readNewest rfl (by decide)), rfl, by decide +kernel, exampleTrack "BT000001" 5, by rfl,
    fun listed => ?_⟩
  have given : ("BT000001", 5) ∈ ((tied.finishCall noElements 10 (newestCursor tied.store tied.query)).received.map
      fun track => (track.id, track.updatedAt)) := List.mem_map.mpr ⟨_, listed, rfl⟩
  revert given
  decide +kernel

end Feed

end Boom.Utils
