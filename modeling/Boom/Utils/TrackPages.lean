import Boom.Foundations.Paging
import Boom.Utils.TrackFeed

/-! # Paging through the track feed

Stored rows are queried by their fields and then read as tracks.  Some cannot be read, and
a track that was stored before it had a writing time reads as written at zero, which no
query on the field selects. -/

namespace Boom.Utils

open Boom.Foundations

variable {F : Type}

structure TrackRow (F : Type) [Zero F] where
  id : String
  updatedAt : Option F
  designation : Option String
  nNights : Option Nat
  eccentricity : Option F
  perihelion : Option F
  rmsRatio : Option F
  track : Option (StoredTrack F)
  reads : ∀ read, track = some read → read.id = id ∧ read.updatedAt = updatedAt.getD 0

/-- The rows of the collection. -/
structure TrackRows (F : Type) [Zero F] where
  rows : List (TrackRow F)
  apart : (rows.map TrackRow.id).Nodup

def trackPosition (track : StoredTrack F) : F ×ₗ String := toLex (track.updatedAt, track.id)

@[simp] theorem explicit_id (track : StoredTrack F) : track.explicit.id = track.id := rfl

@[simp] theorem explicit_updatedAt (track : StoredTrack F) : track.explicit.updatedAt = track.updatedAt := rfl

section Rows

variable [LinearOrder F] [Zero F]

def rowPosition (row : TrackRow F) : WithBot F ×ₗ String :=
  toLex (row.updatedAt.elim ⊥ WithBot.some, row.id)

namespace TrackQuery

def inWindow (query : TrackQuery F) (updatedAt : F) (id : String) : Bool :=
  query.updatedSince ≤ updatedAt && !query.afterId.any fun afterId =>
    updatedAt = query.updatedSince && id ≤ afterId

def windowRow (query : TrackQuery F) (row : TrackRow F) : Bool :=
  row.updatedAt.any fun updatedAt => query.inWindow updatedAt row.id

def cuts (query : TrackQuery F) (row : TrackRow F) : Bool :=
  (!query.unknownOnly || row.designation.isNone) &&
    query.minNights.all (fun least => row.nNights.any (least ≤ ·)) &&
    query.minE.all (fun least => row.eccentricity.any (least ≤ ·)) &&
    query.maxQ.all (fun most => row.perihelion.any (· ≤ most)) &&
    query.maxRmsRatio.all fun most => row.rmsRatio.any (· ≤ most)

def filterRow (query : TrackQuery F) (row : TrackRow F) : Bool :=
  query.windowRow row && query.cuts row

end TrackQuery

def newestRow (store : TrackRows F) (query : TrackQuery F) : Option (TrackCursor F) :=
  ((store.rows.filter query.windowRow).mergeSort fun first second =>
    rowPosition second ≤ rowPosition first).head?.bind fun row =>
      row.updatedAt.map fun updatedAt => ⟨updatedAt, row.id⟩

def visible (store : TrackRows F) (query : TrackQuery F) : List (TrackRow F) :=
  (store.rows.filter query.filterRow).mergeSort fun first second => rowPosition first ≤ rowPosition second

omit [LinearOrder F] in
def tracksOf (rows : List (TrackRow F)) : List (StoredTrack F) :=
  (rows.filterMap (·.track)).map (·.explicit)

def listRows (store : TrackRows F) (query : TrackQuery F) (limit : Nat) : TrackPage F :=
  let newest := newestRow store query
  let scanned := (visible store query).take limit
  let tracks := tracksOf scanned
  { tracks := tracks
    next := if scanned.length = limit then tracks.getLast?.map fun track => ⟨track.updatedAt, track.id⟩ else newest }

def queryAt (store : TrackRows F) (limit : Nat) (query : TrackQuery F) : Nat → TrackQuery F
  | 0 => query
  | call + 1 =>
    let before := queryAt store limit query call
    before.following (listRows store before limit).next

def pageAt (store : TrackRows F) (limit : Nat) (query : TrackQuery F) (call : Nat) : List (StoredTrack F) :=
  (listRows store (queryAt store limit query call) limit).tracks

def Matching (store : TrackRows F) (query : TrackQuery F) (given : StoredTrack F) : Prop :=
  ∃ row ∈ store.rows, ∃ track, row.track = some track ∧ query.cuts row = true ∧
    query.inWindow track.updatedAt track.id = true ∧ given = track.explicit

def PagesExactly (store : TrackRows F) (limit : Nat) (query : TrackQuery F) : Prop :=
  ∃ last, (∀ call < last, (pageAt store limit query call).length = limit) ∧
    (pageAt store limit query last).length < limit ∧
    (∀ call > last, pageAt store limit query call = []) ∧
    Ascending trackPosition ((List.range (last + 1)).flatMap (pageAt store limit query)) ∧
    ∀ track, track ∈ (List.range (last + 1)).flatMap (pageAt store limit query) ↔ Matching store query track

def Dated (store : TrackRows F) (query : TrackQuery F) : Prop :=
  ∀ row ∈ store.rows, row.track.isSome → query.cuts row = true → query.inWindow 0 row.id = true → row.updatedAt.isSome

def Unhindered (store : TrackRows F) (limit : Nat) (query : TrackQuery F) : Prop :=
  ∀ i row, (visible store query)[i]? = some row → row.track = none →
    ∀ j later, (visible store query)[j]? = some later → later.track.isSome → j < (i / limit + 1) * limit

/-! ## What a query selects -/

variable {store : TrackRows F} {query : TrackQuery F} {limit : Nat}

theorem mem_visible {row : TrackRow F} : row ∈ visible store query ↔ row ∈ store.rows ∧ query.filterRow row = true := by
  rw [visible, List.mem_mergeSort, List.mem_filter]

theorem visible_ascending (store : TrackRows F) (query : TrackQuery F) : Ascending rowPosition (visible store query) := by
  refine ascending_mergeSort ?_
  have apart : ((store.rows.filter query.filterRow).map TrackRow.id).Nodup :=
    store.apart.sublist (List.filter_sublist.map _)
  refine List.Nodup.of_map (fun position : WithBot F ×ₗ String => (ofLex position).2) ?_
  rwa [List.map_map]

variable {updatedAt : F}

omit [Zero F] in
theorem inWindow_iff {id : String} :
    query.inWindow updatedAt id = true ↔ query.updatedSince ≤ updatedAt ∧
      ∀ afterId ∈ query.afterId, updatedAt = query.updatedSince → afterId < id := by
  unfold TrackQuery.inWindow
  cases query.afterId with
  | none => simp
  | some afterId =>
    simp only [Option.any_some, Bool.and_eq_true, Bool.not_eq_true', Bool.and_eq_false_imp, decide_eq_true_eq,
      decide_eq_false_iff_not, not_le, Option.mem_some_iff, forall_eq']

theorem windowRow_cursor {last row : TrackRow F} (stamped : last.updatedAt = some updatedAt) :
    (query.following (some ⟨updatedAt, last.id⟩)).windowRow row = true ↔
      row.updatedAt.isSome ∧ rowPosition last < rowPosition row := by
  unfold TrackQuery.windowRow
  cases held : row.updatedAt with
  | none => simp
  | some time =>
    rw [Option.any_some, inWindow_iff]
    simp only [TrackQuery.following, Option.elim_some, Option.mem_some_iff, forall_eq', rowPosition, stamped, held,
      Prod.Lex.toLex_lt_toLex, WithBot.coe_lt_coe, WithBot.coe_inj, Option.isSome_some, true_and]
    constructor
    · rintro ⟨atLeast, later⟩
      rcases lt_or_eq_of_le atLeast with newer | same
      · exact .inl newer
      · exact .inr ⟨same, later same.symm⟩
    · rintro (newer | ⟨same, later⟩)
      · exact ⟨newer.le, fun same => absurd same newer.ne'⟩
      · exact ⟨same.le, fun _ => later⟩

theorem updatedAt_of_visible {row : TrackRow F} (seen : row ∈ visible store query) :
    ∃ updatedAt, row.updatedAt = some updatedAt ∧ query.inWindow updatedAt row.id = true := by
  have selected := (mem_visible.mp seen).2
  rw [TrackQuery.filterRow, Bool.and_eq_true, TrackQuery.windowRow, Option.any_eq_true] at selected
  exact selected.1

theorem windowRow_after {last row : TrackRow F} (stamped : last.updatedAt = some updatedAt)
    (inside : query.inWindow updatedAt last.id = true)
    (after : (query.following (some ⟨updatedAt, last.id⟩)).windowRow row = true) : query.windowRow row = true := by
  obtain ⟨present, later⟩ := (windowRow_cursor stamped).mp after
  obtain ⟨time, held⟩ := Option.isSome_iff_exists.mp present
  obtain ⟨since, past⟩ := inWindow_iff.mp inside
  rw [TrackQuery.windowRow, held, Option.any_some, inWindow_iff]
  simp only [rowPosition, stamped, held, Option.elim_some, Prod.Lex.toLex_lt_toLex, WithBot.coe_lt_coe,
    WithBot.coe_inj] at later
  rcases later with newer | ⟨rfl, afterId⟩
  · exact ⟨since.trans newer.le, fun _ _ same => absurd (since.trans_lt newer) (same ▸ lt_irrefl _)⟩
  · exact ⟨since, fun id isAfter same => (past id isAfter same).trans afterId⟩

theorem mem_visible_following {last row : TrackRow F} (seen : last ∈ visible store query)
    (stamped : last.updatedAt = some updatedAt) :
    row ∈ visible store (query.following (some ⟨updatedAt, last.id⟩)) ↔
      row ∈ visible store query ∧ rowPosition last < rowPosition row := by
  obtain ⟨time, held, inside⟩ := updatedAt_of_visible seen
  obtain rfl : time = updatedAt := Option.some.inj (held.symm.trans stamped)
  rw [mem_visible, mem_visible, TrackQuery.filterRow, TrackQuery.filterRow, Bool.and_eq_true, Bool.and_eq_true]
  constructor
  · rintro ⟨stored, after, cut⟩
    exact ⟨⟨stored, windowRow_after stamped inside after, cut⟩, ((windowRow_cursor stamped).mp after).2⟩
  · rintro ⟨⟨stored, window, cut⟩, later⟩
    have present : row.updatedAt.isSome := by
      rw [TrackQuery.windowRow, Option.any_eq_true] at window
      obtain ⟨_, present, _⟩ := window
      simp [present]
    exact ⟨stored, (windowRow_cursor stamped).mpr ⟨present, later⟩, cut⟩

theorem visible_following {last : TrackRow F} {i : Nat}
    (found : (visible store query)[i]? = some last) (stamped : last.updatedAt = some updatedAt) :
    visible store (query.following (some ⟨updatedAt, last.id⟩)) = (visible store query).drop (i + 1) := by
  have ascending := visible_ascending store query
  refine (visible_ascending store _).ext (ascending.drop (i + 1)) fun row => ?_
  rw [mem_visible_following (List.mem_of_getElem? found) stamped, ← ascending.after found, List.mem_filter,
    decide_eq_true_eq]

theorem visible_newest : visible store (query.following (newestRow store query)) = [] ∨
    newestRow store query = none ∧ visible store query = [] := by
  have mem_sorted {row : TrackRow F} : row ∈ (store.rows.filter query.windowRow).mergeSort
      (fun first second => rowPosition second ≤ rowPosition first) ↔ row ∈ store.rows ∧ query.windowRow row = true := by
    rw [List.mem_mergeSort, List.mem_filter]
  have ordered := @List.pairwise_mergeSort _ (fun first second : TrackRow F => decide (rowPosition second ≤ rowPosition first))
    (fun first second third before after => by simpa using le_trans (by simpa using after) (by simpa using before))
    (fun first second => by simpa using le_total _ _) (store.rows.filter query.windowRow)
  unfold newestRow
  cases listed : (store.rows.filter query.windowRow).mergeSort (fun first second => rowPosition second ≤ rowPosition first) with
  | nil =>
    refine .inr ⟨rfl, List.eq_nil_iff_forall_not_mem.mpr fun row seen => ?_⟩
    obtain ⟨stored, selected⟩ := mem_visible.mp seen
    rw [TrackQuery.filterRow, Bool.and_eq_true] at selected
    have inSorted := mem_sorted.mpr ⟨stored, selected.1⟩
    rw [listed] at inSorted
    cases inSorted
  | cons newest rest =>
    have isNewest := mem_sorted.mp (listed ▸ List.mem_cons_self)
    rw [TrackQuery.windowRow, Option.any_eq_true] at isNewest
    obtain ⟨_, updatedAt, stamped, inside⟩ := isNewest
    rw [List.head?_cons, Option.bind_some, stamped, Option.map_some]
    refine .inl (List.eq_nil_iff_forall_not_mem.mpr fun row seen => ?_)
    obtain ⟨stored, selected⟩ := mem_visible.mp seen
    rw [TrackQuery.filterRow, Bool.and_eq_true] at selected
    have inSorted := mem_sorted.mpr ⟨stored, windowRow_after stamped inside selected.1⟩
    have later := ((windowRow_cursor stamped).mp selected.1).2
    rw [listed] at ordered inSorted
    rcases List.mem_cons.mp inSorted with rfl | older
    · exact lt_irrefl _ later
    · have atMost := (List.pairwise_cons.mp ordered).1 row older
      exact absurd later (not_lt.mpr (by simpa using atMost))

/-! ## One call -/

variable {rows : List (TrackRow F)} {given : StoredTrack F}

omit [LinearOrder F] in
theorem mem_tracksOf :
    given ∈ tracksOf rows ↔ ∃ row ∈ rows, ∃ track, row.track = some track ∧ given = track.explicit := by
  simp only [tracksOf, List.mem_map, List.mem_filterMap]
  constructor
  · rintro ⟨track, ⟨row, member, read⟩, rfl⟩
    exact ⟨row, member, track, read, rfl⟩
  · rintro ⟨row, member, track, read, rfl⟩
    exact ⟨track, ⟨row, member, read⟩, rfl⟩

omit [LinearOrder F] in
theorem tracksOf_append (first second : List (TrackRow F)) :
    tracksOf (first ++ second) = tracksOf first ++ tracksOf second := by
  simp [tracksOf]

omit [LinearOrder F] in
theorem tracksOf_eq_nil (unread : ∀ row ∈ rows, row.track = none) : tracksOf rows = [] := by
  rw [tracksOf, List.map_eq_nil_iff, List.filterMap_eq_nil_iff]
  exact unread

omit [LinearOrder F] in
theorem length_tracksOf_eq_iff : (tracksOf rows).length = rows.length ↔ ∀ row ∈ rows, row.track.isSome := by
  rw [tracksOf, List.length_map, List.length_filterMap_eq_countP, List.countP_eq_length]

omit [LinearOrder F] in
theorem length_tracksOf_le (rows : List (TrackRow F)) : (tracksOf rows).length ≤ rows.length := by
  rw [tracksOf, List.length_map]
  exact List.length_filterMap_le _ _

theorem getLast_tracksOf (ascending : Ascending rowPosition rows) (isLast : (tracksOf rows).getLast? = some given) :
    ∃ last ∈ rows, (∃ track, last.track = some track ∧ given = track.explicit) ∧
      ∀ row ∈ rows, row.track.isSome → rowPosition row ≤ rowPosition last := by
  obtain ⟨front, shape⟩ := List.getLast?_eq_some_iff.mp isLast
  obtain ⟨_, ending, split, -, single⟩ := List.map_eq_append_iff.mp shape
  obtain ⟨track, none_, rfl, rfl, nothing⟩ := List.map_eq_cons_iff.mp single
  obtain ⟨early, late, rfl, rfl, read⟩ := List.filterMap_eq_append_iff.mp split
  obtain ⟨skipped, last, after, rfl, unread, isTrack, rest⟩ := List.filterMap_eq_cons_iff.mp read
  rw [List.map_eq_nil_iff.mp nothing, List.filterMap_eq_nil_iff] at rest
  refine ⟨last, by simp, ⟨track, isTrack, rfl⟩, fun row member readable => ?_⟩
  obtain ⟨_, ordered, across⟩ := List.pairwise_append.mp ascending
  rcases List.mem_append.mp member with before | tail
  · exact (across row before last (by simp)).le
  · rcases List.mem_append.mp tail with before | here
    · rw [unread row before] at readable
      cases readable
    · rcases List.mem_cons.mp here with rfl | later
      · exact le_rfl
      · rw [rest row later] at readable
        cases readable

theorem cursor_of_track {row : TrackRow F} (seen : row ∈ visible store query) {track : StoredTrack F}
    (read : row.track = some track) : row.updatedAt = some track.updatedAt ∧ track.id = row.id := by
  obtain ⟨updatedAt, stamped, _⟩ := updatedAt_of_visible seen
  obtain ⟨same, time⟩ := row.reads track read
  rw [stamped, Option.getD_some] at time
  exact ⟨by rw [stamped, time], same⟩

theorem unread_following (unread : ∀ row ∈ (visible store query).drop limit, row.track = none) :
    ∀ row ∈ visible store (query.following (listRows store query limit).next), row.track = none := by
  intro row seen
  by_cases full : ((visible store query).take limit).length = limit
  · have next : (listRows store query limit).next =
        (tracksOf ((visible store query).take limit)).getLast?.map fun track => ⟨track.updatedAt, track.id⟩ := if_pos full
    rw [next] at seen
    cases isLast : (tracksOf ((visible store query).take limit)).getLast? with
    | none =>
      rw [isLast, Option.map_none, TrackQuery.following, Option.elim_none, ← List.take_append_drop limit (visible _ _)] at seen
      rcases List.mem_append.mp seen with here | past
      · cases read : row.track with
        | none => rfl
        | some track =>
          have given := mem_tracksOf.mpr ⟨row, here, track, read, rfl⟩
          rw [List.getLast?_eq_none_iff.mp isLast] at given
          cases given
      · exact unread row past
    | some given =>
      have ascending : Ascending rowPosition ((visible store query).take limit) :=
        (visible_ascending store query).sublist (List.take_sublist _ _)
      obtain ⟨last, member, ⟨track, read, rfl⟩, newest⟩ := getLast_tracksOf ascending isLast
      obtain ⟨stamped, same⟩ := cursor_of_track (List.mem_of_mem_take member) read
      rw [isLast, Option.map_some, explicit_id, explicit_updatedAt, same,
        mem_visible_following (List.mem_of_mem_take member) stamped, ← List.take_append_drop limit (visible _ _)] at seen
      obtain ⟨listed, later⟩ := seen
      rcases List.mem_append.mp listed with here | past
      · by_contra readable
        exact absurd later (not_lt.mpr (newest row here (Option.isSome_iff_ne_none.mpr readable)))
      · exact unread row past
  · have next : (listRows store query limit).next = newestRow store query := if_neg full
    rw [next] at seen
    rcases @visible_newest _ _ _ store query with empty | ⟨none_, empty⟩
    · rw [empty] at seen
      cases seen
    · rw [none_, TrackQuery.following, Option.elim_none, empty] at seen
      cases seen

theorem visible_full (positive : 1 ≤ limit) (full : limit ≤ (visible store query).length)
    (readable : ∀ row ∈ (visible store query).take limit, row.track.isSome) :
    visible store (query.following (listRows store query limit).next) = (visible store query).drop limit := by
  obtain ⟨last, found⟩ : ∃ last, (visible store query)[limit - 1]? = some last :=
    ⟨_, List.getElem?_eq_getElem (by omega)⟩
  have ending : (visible store query).take limit = (visible store query).take (limit - 1) ++ [last] := by
    have step := List.take_add_one (l := visible store query) (i := limit - 1)
    rwa [found, Nat.sub_add_cancel positive] at step
  obtain ⟨track, read⟩ := Option.isSome_iff_exists.mp (readable last (by simp [ending]))
  obtain ⟨stamped, same⟩ := cursor_of_track (List.mem_of_getElem? found) read
  have isLast : (tracksOf ((visible store query).take limit)).getLast? = some track.explicit := by
    rw [ending, tracksOf_append]
    simp [tracksOf, read]
  have next : (listRows store query limit).next = some ⟨track.updatedAt, last.id⟩ := by
    change (if ((visible store query).take limit).length = limit then _ else _) = _
    rw [if_pos (List.length_take_of_le full), isLast, Option.map_some, explicit_id, explicit_updatedAt, same]
  rw [next, visible_following found stamped, Nat.sub_add_cancel positive]

/-! ## A client's calls -/

def Clear (store : TrackRows F) (limit : Nat) (query : TrackQuery F) (calls : Nat) : Prop :=
  calls * limit ≤ (visible store query).length ∧ ∀ row ∈ (visible store query).take (calls * limit), row.track.isSome

theorem Clear.mono {calls earlier : Nat} (clear : Clear store limit query calls) (before : earlier ≤ calls) :
    Clear store limit query earlier := by
  have fewer : earlier * limit ≤ calls * limit := Nat.mul_le_mul_right limit before
  exact ⟨fewer.trans clear.1, fun row member => clear.2 row (List.take_subset_take_left _ fewer member)⟩

theorem Clear.page {calls : Nat} (clear : Clear store limit query (calls + 1)) :
    limit ≤ ((visible store query).drop (calls * limit)).length ∧
      ∀ row ∈ ((visible store query).drop (calls * limit)).take limit, row.track.isSome := by
  obtain ⟨enough, readable⟩ := clear
  rw [Nat.add_mul, Nat.one_mul] at enough readable
  refine ⟨by rw [List.length_drop]; omega, fun row member => readable row ?_⟩
  rw [List.take_add]
  exact List.mem_append_right _ member

theorem visible_queryAt (positive : 1 ≤ limit) {calls : Nat} (clear : Clear store limit query calls) :
    visible store (queryAt store limit query calls) = (visible store query).drop (calls * limit) := by
  induction calls with
  | zero => simp [queryAt]
  | succ calls ih =>
    have before := ih (clear.mono (Nat.le_succ calls))
    obtain ⟨full, readable⟩ := clear.page
    rw [← before] at full readable
    rw [queryAt, visible_full positive full readable, before, List.drop_drop, Nat.add_mul, Nat.one_mul]

theorem pageAt_eq (positive : 1 ≤ limit) {calls : Nat} (clear : Clear store limit query calls) :
    pageAt store limit query calls = tracksOf (((visible store query).drop (calls * limit)).take limit) := by
  rw [← visible_queryAt positive clear]
  rfl

theorem pages_eq (positive : 1 ≤ limit) {calls : Nat} (clear : Clear store limit query calls) :
    (List.range (calls + 1)).flatMap (pageAt store limit query) =
      tracksOf ((visible store query).take ((calls + 1) * limit)) := by
  rw [List.range_succ, List.flatMap_append, List.flatMap_singleton, pageAt_eq positive clear, Nat.add_mul, Nat.one_mul,
    List.take_add, tracksOf_append]
  congr 1
  cases calls with
  | zero => simp [tracksOf]
  | succ calls => exact pages_eq positive (clear.mono (Nat.le_succ calls))

theorem length_pageAt (positive : 1 ≤ limit) {calls : Nat} (clear : Clear store limit query (calls + 1)) :
    (pageAt store limit query calls).length = limit := by
  obtain ⟨full, readable⟩ := clear.page
  rw [pageAt_eq positive (clear.mono (Nat.le_succ calls)), length_tracksOf_eq_iff.mpr readable, List.length_take_of_le full]

theorem length_pageAt_last (positive : 1 ≤ limit) {last : Nat} (clear : Clear store limit query last)
    (ends : ¬ Clear store limit query (last + 1)) : (pageAt store limit query last).length < limit := by
  rw [pageAt_eq positive clear]
  by_contra many
  have atMost := length_tracksOf_le (((visible store query).drop (last * limit)).take limit)
  have atMost' : (((visible store query).drop (last * limit)).take limit).length ≤ limit := List.length_take_le _ _
  have same : (tracksOf (((visible store query).drop (last * limit)).take limit)).length =
      (((visible store query).drop (last * limit)).take limit).length := by omega
  have readable := length_tracksOf_eq_iff.mp same
  rw [List.length_take, List.length_drop] at atMost atMost'
  refine ends ⟨by rw [Nat.add_mul, Nat.one_mul]; omega, fun row member => ?_⟩
  rw [Nat.add_mul, Nat.one_mul, List.take_add] at member
  exact (List.mem_append.mp member).elim (clear.2 row) (readable row)

theorem exists_last (store : TrackRows F) (positive : 1 ≤ limit) (query : TrackQuery F) :
    ∃ last, Clear store limit query last ∧ ¬ Clear store limit query (last + 1) := by
  classical
  have ends : ∃ calls, ¬ Clear store limit query (calls + 1) := by
    refine ⟨(visible store query).length, fun clear => ?_⟩
    have tooMany : ((visible store query).length + 1) * 1 ≤ (visible store query).length :=
      (Nat.mul_le_mul_left _ positive).trans clear.1
    omega
  refine ⟨Nat.find ends, ?_, Nat.find_spec ends⟩
  cases found : Nat.find ends with
  | zero => exact ⟨by simp, by simp⟩
  | succ before => exact not_not.mp (Nat.find_min ends (m := before) (by omega))

theorem pageAt_eq_nil {calls later : Nat}
    (unread : ∀ row ∈ visible store (queryAt store limit query calls), row.track = none) (after : calls ≤ later) :
    pageAt store limit query later = [] := by
  have still : ∀ row ∈ visible store (queryAt store limit query later), row.track = none := by
    induction later, after using Nat.le_induction with
    | base => exact unread
    | succ later _ ih =>
      exact unread_following fun row member => ih row (List.mem_of_mem_drop member)
  exact tracksOf_eq_nil fun row member => still row (List.mem_of_mem_take member)

/-! ## The pages are the matching tracks -/

omit [LinearOrder F] in
theorem row_unique {row other : TrackRow F} (stored : row ∈ store.rows) (stored' : other ∈ store.rows)
    (same : row.id = other.id) : row = other :=
  List.inj_on_of_nodup_map store.apart stored stored' same

theorem matching_of_visible (listed : given ∈ tracksOf (visible store query)) :
    Matching store query given := by
  obtain ⟨row, seen, track, read, rfl⟩ := mem_tracksOf.mp listed
  obtain ⟨updatedAt, stamped, inside⟩ := updatedAt_of_visible seen
  obtain ⟨held, same⟩ := cursor_of_track seen read
  obtain rfl : updatedAt = track.updatedAt := Option.some.inj (stamped.symm.trans held)
  obtain ⟨stored, selected⟩ := mem_visible.mp seen
  rw [TrackQuery.filterRow, Bool.and_eq_true] at selected
  exact ⟨row, stored, track, read, selected.2, same ▸ inside, rfl⟩

theorem matching_iff (dated : Dated store query) :
    Matching store query given ↔ given ∈ tracksOf (visible store query) := by
  refine ⟨?_, matching_of_visible⟩
  rintro ⟨row, stored, track, read, cut, inside, rfl⟩
  obtain ⟨same, time⟩ := row.reads track read
  refine mem_tracksOf.mpr ⟨row, mem_visible.mpr ⟨stored, ?_⟩, track, read, rfl⟩
  rw [TrackQuery.filterRow, Bool.and_eq_true, TrackQuery.windowRow]
  refine ⟨?_, cut⟩
  rw [time, same] at inside
  cases held : row.updatedAt with
  | none =>
    rw [held, Option.getD_none] at inside
    have present := dated row stored (read ▸ rfl) cut inside
    rw [held] at present
    cases present
  | some updatedAt => rwa [held, Option.getD_some] at inside

theorem ascending_tracksOf (n : Nat) : Ascending trackPosition (tracksOf ((visible store query).take n)) := by
  have ascending : Ascending rowPosition ((visible store query).take n) :=
    (visible_ascending store query).sublist (List.take_sublist _ _)
  refine List.pairwise_map.mpr (List.pairwise_filterMap.mpr (ascending.imp_of_mem ?_))
  intro first second member member' before track read track' read'
  obtain ⟨stamped, same⟩ := cursor_of_track (List.mem_of_mem_take member) read
  obtain ⟨stamped', same'⟩ := cursor_of_track (List.mem_of_mem_take member') read'
  simpa only [rowPosition, trackPosition, stamped, stamped', same, same', explicit_id, explicit_updatedAt,
    Option.elim_some, Prod.Lex.toLex_lt_toLex, WithBot.coe_lt_coe, WithBot.coe_inj] using before

theorem row_of_page {calls : Nat} (listed : given ∈ pageAt store limit query calls) :
    ∃ row ∈ store.rows, row.updatedAt.isSome ∧ row.id = given.id := by
  obtain ⟨row, member, track, read, rfl⟩ := mem_tracksOf.mp listed
  have seen := List.mem_of_mem_take member
  obtain ⟨stamped, same⟩ := cursor_of_track seen read
  exact ⟨row, (mem_visible.mp seen).1, by rw [stamped]; rfl, same.symm⟩

theorem dated_of_matching {last : Nat}
    (exact_ : ∀ track, Matching store query track → track ∈ (List.range (last + 1)).flatMap (pageAt store limit query)) :
    Dated store query := by
  intro row stored readable cut inside
  obtain ⟨track, read⟩ := Option.isSome_iff_exists.mp readable
  obtain ⟨same, time⟩ := row.reads track read
  rw [← Option.ne_none_iff_isSome]
  intro undated
  rw [undated, Option.getD_none] at time
  have given := exact_ track.explicit ⟨row, stored, track, read, cut, by rwa [time, same], rfl⟩
  obtain ⟨calls, _, listed⟩ := List.mem_flatMap.mp given
  obtain ⟨other, stored', present, sameId⟩ := row_of_page listed
  obtain rfl := row_unique stored' stored (sameId.trans same)
  rw [undated] at present
  cases present

theorem unhindered_of_matching (positive : 1 ≤ limit) {last : Nat} (clear : Clear store limit query last)
    (exact_ : ∀ track, Matching store query track → track ∈ (List.range (last + 1)).flatMap (pageAt store limit query)) :
    Unhindered store limit query := by
  intro i row found unread j later found' readable
  by_contra past
  obtain ⟨bound', isLater⟩ := List.getElem?_eq_some_iff.mp found'
  obtain ⟨bound, isRow⟩ := List.getElem?_eq_some_iff.mp found
  -- the page with the row that cannot be read is not clear, so the last page is not after it
  have within : i < (i / limit + 1) * limit := by
    have := Nat.div_add_mod i limit
    have := Nat.mod_lt i positive
    rw [Nat.add_mul, Nat.one_mul, Nat.mul_comm]
    omega
  have early : last ≤ i / limit := by
    by_contra later_
    obtain ⟨_, all⟩ := clear.mono (show i / limit + 1 ≤ last by omega)
    have listed : row ∈ (visible store query).take ((i / limit + 1) * limit) :=
      List.mem_take_iff_getElem.mpr ⟨i, by omega, isRow⟩
    have readable := all row listed
    rw [unread] at readable
    cases readable
  have rows : (last + 1) * limit ≤ j := by
    have scaled : (last + 1) * limit ≤ (i / limit + 1) * limit := Nat.mul_le_mul_right limit (Nat.add_le_add_right early 1)
    omega
  obtain ⟨track, read⟩ := Option.isSome_iff_exists.mp readable
  have seen : later ∈ visible store query := List.mem_of_getElem? found'
  have given := exact_ _ (matching_of_visible (mem_tracksOf.mpr ⟨later, seen, track, read, rfl⟩))
  rw [pages_eq positive clear] at given
  obtain ⟨other, listed, track', read', same⟩ := mem_tracksOf.mp given
  have sameId : other.id = later.id := by
    rw [← (cursor_of_track (List.mem_of_mem_take listed) read').2, ← (cursor_of_track seen read).2]
    exact (congrArg StoredTrack.id same).symm
  obtain rfl := row_unique (mem_visible.mp (List.mem_of_mem_take listed)).1 (mem_visible.mp seen).1 sameId
  obtain ⟨k, bound'', isOther⟩ := List.mem_take_iff_getElem.mp listed
  have index := ((visible_ascending store query).nodup.getElem_inj_iff.mp (isOther.trans isLater.symm))
  omega

theorem pagesExactly_of (positive : 1 ≤ limit) (dated : Dated store query) (unhindered : Unhindered store limit query) :
    PagesExactly store limit query := by
  obtain ⟨last, clear, ends⟩ := exists_last store positive query
  have tail : ∀ row ∈ (visible store query).drop ((last + 1) * limit), row.track = none := by
    intro later past
    obtain ⟨k, bound, isLater⟩ := List.mem_drop_iff_getElem.mp past
    by_contra readable
    refine ends ⟨by omega, fun row member => ?_⟩
    obtain ⟨i, early, isRow⟩ := List.mem_take_iff_getElem.mp member
    by_contra unread
    have before := unhindered i row (List.getElem?_eq_some_iff.mpr ⟨by omega, isRow⟩) (by simpa using unread)
      ((last + 1) * limit + k) later (List.getElem?_eq_some_iff.mpr ⟨by omega, isLater⟩)
      (Option.isSome_iff_ne_none.mpr readable)
    have inPage : i < (last + 1) * limit := by omega
    have page : i / limit ≤ last := Nat.le_of_lt_succ ((Nat.div_lt_iff_lt_mul positive).mpr inPage)
    have scaled : (i / limit + 1) * limit ≤ (last + 1) * limit := Nat.mul_le_mul_right limit (Nat.add_le_add_right page 1)
    omega
  have all : tracksOf ((visible store query).take ((last + 1) * limit)) = tracksOf (visible store query) := by
    conv_rhs => rw [← List.take_append_drop ((last + 1) * limit) (visible store query), tracksOf_append]
    rw [tracksOf_eq_nil tail, List.append_nil]
  refine ⟨last, fun call before => length_pageAt positive (clear.mono before), length_pageAt_last positive clear ends,
    fun call after => ?_, ?_, fun track => ?_⟩
  · refine @pageAt_eq_nil _ _ _ _ _ _ (last + 1) _ (unread_following ?_) after
    rw [visible_queryAt positive clear, List.drop_drop]
    rwa [Nat.add_mul, Nat.one_mul] at tail
  · rw [pages_eq positive clear]
    exact ascending_tracksOf _
  · rw [pages_eq positive clear, all, matching_iff dated]

theorem PagesExactly.conditions (positive : 1 ≤ limit) (exactly : PagesExactly store limit query) :
    Dated store query ∧ Unhindered store limit query := by
  obtain ⟨end_, full, short, -, -, exact_⟩ := exactly
  obtain ⟨last, clear, ends⟩ := exists_last store positive query
  obtain rfl : end_ = last := by
    refine le_antisymm (not_lt.mp fun after => ?_) (not_lt.mp fun before => ?_)
    · exact absurd (full last after) (length_pageAt_last positive clear ends).ne
    · exact absurd short (by rw [length_pageAt positive (clear.mono before)]; exact lt_irrefl _)
  exact ⟨dated_of_matching fun track => (exact_ track).mpr,
    unhindered_of_matching positive clear fun track => (exact_ track).mpr⟩

/-- A client that follows the feed gets the matching tracks exactly, unless a track lacks
    its writing time or comes after a page with a row that cannot be read. -/
theorem pagesExactly_iff (positive : 1 ≤ limit) :
    PagesExactly store limit query ↔ Dated store query ∧ Unhindered store limit query :=
  ⟨fun exactly => exactly.conditions positive, fun conditions => pagesExactly_of positive conditions.1 conditions.2⟩

end Rows

/-! ### Three tracks -/

def exampleRow (id : String) (updatedAt : Option Nat) (readable : Bool) : TrackRow Nat where
  id := id
  updatedAt := updatedAt
  designation := none
  nNights := some 2
  eccentricity := none
  perihelion := none
  rmsRatio := none
  track := if readable then some (Feed.exampleTrack id (updatedAt.getD 0)) else none
  reads read isRead := by
    cases readable with
    | true => obtain rfl := Option.some.inj isRead; exact ⟨rfl, rfl⟩
    | false => cases isRead

def fromZero : TrackQuery Nat := ⟨0, none, false, none, none, none, none⟩

theorem visible_eq_rows {store : TrackRows Nat} {query : TrackQuery Nat} (ascending : Ascending rowPosition store.rows)
    (selected : ∀ row ∈ store.rows, query.filterRow row = true) : visible store query = store.rows := by
  refine (visible_ascending store query).ext ascending fun row => ?_
  rw [mem_visible]
  exact ⟨And.left, fun stored => ⟨stored, selected row stored⟩⟩

/-- Three tracks of one moment, read one by one. -/
theorem pagesExactly_iff_tied :
    PagesExactly ⟨[exampleRow "BT1" (some 5) true, exampleRow "BT2" (some 5) true, exampleRow "BT3" (some 5) true],
      by decide⟩ 1 fromZero := by
  refine (pagesExactly_iff (by decide)).mpr ⟨fun row stored _ _ _ => ?_, fun i row found unread => ?_⟩
  · revert row
    decide
  · obtain ⟨stored, -⟩ := mem_visible.mp (List.mem_of_getElem? found)
    have readable : ∀ row ∈ [exampleRow "BT1" (some 5) true, exampleRow "BT2" (some 5) true, exampleRow "BT3" (some 5) true],
        row.track.isSome := by decide
    exact absurd unread (Option.isSome_iff_ne_none.mp (readable row stored))

/-- A track without a writing time is never given out, and neither is one after a page that
    cannot be read. -/
theorem pages_miss_tracks :
    ¬ PagesExactly ⟨[exampleRow "BT1" none true], by decide⟩ 10 fromZero ∧
    ¬ PagesExactly ⟨[exampleRow "BT1" (some 5) false, exampleRow "BT2" (some 6) true], by decide⟩ 1 fromZero := by
  constructor
  · intro exactly
    have dated := (exactly.conditions (by decide)).1 _ List.mem_cons_self rfl (by decide) (by decide)
    cases dated
  · intro exactly
    have unhindered := (exactly.conditions (by decide)).2
    have ascending : Ascending rowPosition [exampleRow "BT1" (some 5) false, exampleRow "BT2" (some 6) true] := by
      have earlier : WithBot.some 5 < WithBot.some 6 := WithBot.coe_lt_coe.mpr (by decide)
      exact List.pairwise_pair.mpr (Prod.Lex.toLex_lt_toLex.mpr (.inl earlier))
    rw [Unhindered, visible_eq_rows ascending (by decide)] at unhindered
    exact absurd (unhindered 0 _ rfl rfl 1 _ rfl rfl) (by decide)

end Boom.Utils
