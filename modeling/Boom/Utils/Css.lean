import Boom.Filter.Base
import Boom.Foundations.Decimal
import Boom.Foundations.Gathered
import Boom.Utils.DetectionIds
import Mathlib.Data.List.Pairwise
import Mathlib.Data.List.Sort

/-! # Tracklets of a Catalina file

A file lists the detections of a night with the tracklet that each is of.  A row joins the
tracklet of the row before it or begins another one, and each is then fitted; a tracklet whose
rows are apart is fitted in parts.

The fit and the sorting of a tracklet's detections are given: a fit of detections is a motion, or
none, and sorting leaves the detections the same. -/

namespace Boom.Utils.Css

open Foundations

/-! ## Sites -/

structure Site where
  mpcCode : String
  astrometricSigmaArcsec : F64
deriving DecidableEq

def sites : List Site :=
  [⟨"I41", .ofRat 0.25⟩, ⟨"X05", .ofRat 0.09⟩, ⟨"703", .ofRat 1.97⟩, ⟨"G96", .ofRat 0.48⟩, ⟨"I52", .ofRat 0.48⟩,
    ⟨"V00", .ofRat 0.24⟩, ⟨"V06", .ofRat 0.48⟩, ⟨"E12", .ofRat 1.36⟩, ⟨"W84", .ofRat 0.15⟩, ⟨"675", .ofRat 0.5⟩]

def fromMpcCode (code : String) : Option Site := sites.find? (·.mpcCode = code)

/-! ## Detections and tracklets -/

structure Detection where
  id : Int64
  jd : F64
  ra : F64
  dec : F64
  mag : Option F64
  magErr : Option F64
  band : Option Char
  site : Option Site
deriving DecidableEq

structure TrackletConfig (C : Type) where
  maxRmsArcsec : F64
  rest : C

structure Tracklet (M : Type) where
  ids : List Int64
  motion : M

structure CssTracklets (M : Type) where
  mpcCode : String
  site : Site
  tracklets : List (Tracklet M)
  detections : List Detection

structure Sorting where
  sort : List Detection → List Detection
  perm : ∀ members, (sort members).Perm members
  stable : ∀ members, (∀ member ∈ members, member.jd.isNan = false) →
    sort members = members.insertionSort fun first second => ¬ second.jd.lt first.jd = true

/-! ## Files -/

inductive Refusal where
  | unknownSite (code : String)
  | notDets (header : Text)
  | outOfRange (line : Text)
deriving DecidableEq

def isWithin (low high value : F64) : Bool := low.le value && value.le high

def readRow (site : Site) (keep : Option (List Text)) (line : Text) : Except Refusal (Option (Text × Detection)) :=
  match line.words Filter.isWhiteSpace with
  | key :: _ :: source :: epoch :: hours :: degrees :: _ :: _ :: magnitude :: _ =>
    match Decimal.parseF64 epoch, Decimal.parseF64 hours, Decimal.parseF64 degrees, Decimal.parseInt 64 source with
    | some jd, some raHours, some dec, some sourceId =>
      if sourceId ≤ 0 ∨ keep.any fun keep => !keep.contains key then .ok none
      else
        let ra := raHours.mul (.ofInt 15)
        if ¬ isWithin .zero (.ofInt 360) ra ∨ ¬ isWithin (.ofInt (-90)) (.ofInt 90) dec then .error (.outOfRange line)
        else
          .ok (some (key, {
            id := catalinaDetectionId (.ofInt sourceId) jd
            jd, ra, dec
            mag := (Decimal.parseF64 magnitude).filter fun mag => F64.zero.lt mag && mag.lt (.ofInt 40)
            magErr := none
            band := some 'G'
            site := some site }))
    | _, _, _, _ => .ok none
  | _ => .ok none

def readRows (site : Site) (keep : Option (List Text)) (lines : List Text) : Except Refusal (List (Text × Detection)) := do
  let rows ← lines.mapM (readRow site keep)
  pure (rows.filterMap id)

def rowsOfFile (mpcCode : String) (keep : Option (List Text)) (text : Text) :
    Except Refusal (Site × List (Text × Detection)) :=
  match fromMpcCode mpcCode with
  | none => .error (.unknownSite mpcCode)
  | some site =>
    let header := (text.lines.headD []).trimBy Filter.isWhiteSpace
    if ¬ "DETSV".toList.isPrefixOf header then .error (.notDets header)
    else do
      let rows ← readRows site keep text.lines.tail
      pure (site, rows)

section

variable {C M : Type} (sorting : Sorting) (fit : TrackletConfig C → List Detection → Option M)

def settingsAt (site : Site) (cfg : TrackletConfig C) : TrackletConfig C :=
  { cfg with maxRmsArcsec := cfg.maxRmsArcsec.maximum ((F64.ofInt 3).mul site.astrometricSigmaArcsec) }

def trackletOf (cfg : TrackletConfig C) (members : List Detection) : Option (Tracklet M) :=
  (fit cfg (sorting.sort members)).map fun motion => ⟨(sorting.sort members).map (·.id), motion⟩

def trackletsOf (cfg : TrackletConfig C) (rows : List (Text × Detection)) : List (Tracklet M) :=
  (consecutive rows).filterMap fun group => trackletOf sorting fit cfg group.2

def parseDets (text : Text) (mpcCode : String) (cfg : TrackletConfig C) (keep : Option (List Text)) :
    Except Refusal (CssTracklets M) := do
  let read ← rowsOfFile mpcCode keep text
  pure {
    mpcCode, site := read.1
    tracklets := trackletsOf sorting fit (settingsAt read.1 cfg) read.2
    detections := read.2.map Prod.snd }

end

/-! ## What grouping by tracklet means -/

section

variable {C M : Type} {sorting : Sorting}

def trackletsById (sorting : Sorting) (fit : TrackletConfig C → List Detection → Option M) (cfg : TrackletConfig C)
    (rows : List (Text × Detection)) : List (Tracklet M) :=
  (keysOf rows).filterMap fun key => trackletOf sorting fit cfg (membersOf key rows)

def GroupAlike (sorting : Sorting) (mpcCode : String) (cfg : TrackletConfig C) (keep : Option (List Text))
    (first second : Text) : Prop :=
  ∀ (M : Type) (fit : TrackletConfig C → List Detection → Option M),
    (¬ Runs (parseDets sorting fit first mpcCode cfg keep) ∧ ¬ Runs (parseDets sorting fit second mpcCode cfg keep)) ∨
      ∃ site rows read read', rowsOfFile mpcCode keep first = .ok (site, rows) ∧
        parseDets sorting fit first mpcCode cfg keep = .ok read ∧
        parseDets sorting fit second mpcCode cfg keep = .ok read' ∧
        read.detections.Perm read'.detections ∧ read.tracklets.Perm read'.tracklets ∧
        read.tracklets.Perm (trackletsById sorting fit (settingsAt site cfg) rows) ∧
        read.tracklets.Pairwise fun one other => one.ids.Disjoint other.ids

structure RowsAlike (sorting : Sorting) (rows rows' : List (Text × Detection)) : Prop where
  gathered : IsGathered rows
  gathered' : IsGathered rows'
  apart : ∀ row ∈ rows, ∀ other ∈ rows, row.1 ≠ other.1 → row.2.id ≠ other.2.id
  sorted : ∀ key, sorting.sort (membersOf key rows) = sorting.sort (membersOf key rows')

/-! ## Rows in two orders -/

variable {rows rows' : List (Text × Detection)} (fit : TrackletConfig C → List Detection → Option M) (cfg : TrackletConfig C)

theorem trackletsOf_perm (gathered : IsGathered rows) :
    (trackletsOf sorting fit cfg rows).Perm (trackletsById sorting fit cfg rows) := by
  have perm := (groups_perm gathered).filterMap (trackletOf sorting fit cfg)
  rwa [List.filterMap_map, List.filterMap_map] at perm

theorem ids_of_tracklet {members : List Detection} {tracklet : Tracklet M}
    (isTracklet : trackletOf sorting fit cfg members = some tracklet) :
    tracklet.ids = (sorting.sort members).map (·.id) := by
  obtain ⟨motion, -, rfl⟩ := Option.map_eq_some_iff.mp isTracklet
  rfl

theorem disjoint_trackletsById (apart : ∀ row ∈ rows, ∀ other ∈ rows, row.1 ≠ other.1 → row.2.id ≠ other.2.id) :
    (trackletsById sorting fit cfg rows).Pairwise fun one other => one.ids.Disjoint other.ids := by
  refine List.pairwise_filterMap.mpr ((List.nodup_dedup _).imp fun {key other} differ => ?_)
  intro tracklet isTracklet tracklet' isTracklet' id there there'
  rw [ids_of_tracklet fit cfg isTracklet] at there
  rw [ids_of_tracklet fit cfg isTracklet'] at there'
  obtain ⟨member, isMember, rfl⟩ := List.mem_map.mp there
  obtain ⟨member', isMember', same⟩ := List.mem_map.mp there'
  have isRow := mem_membersOf.mp ((sorting.perm _).mem_iff.mp isMember)
  have isRow' := mem_membersOf.mp ((sorting.perm _).mem_iff.mp isMember')
  exact apart _ isRow _ isRow' differ same.symm

theorem trackletsById_congr (perm : rows.Perm rows')
    (sorted : ∀ key, sorting.sort (membersOf key rows) = sorting.sort (membersOf key rows')) :
    (trackletsById sorting fit cfg rows).Perm (trackletsById sorting fit cfg rows') := by
  have each (key : Text) : trackletOf sorting fit cfg (membersOf key rows) = trackletOf sorting fit cfg (membersOf key rows') := by
    rw [trackletOf, trackletOf, sorted]
  simp only [trackletsById, each]
  exact (keysOf_perm perm).filterMap _

def TrackletsAlike (sorting : Sorting) (cfg : TrackletConfig C) (rows rows' : List (Text × Detection)) : Prop :=
  ∀ (M : Type) (fit : TrackletConfig C → List Detection → Option M),
    (trackletsOf sorting fit cfg rows).Perm (trackletsOf sorting fit cfg rows') ∧
      (trackletsOf sorting fit cfg rows).Perm (trackletsById sorting fit cfg rows) ∧
      (trackletsOf sorting fit cfg rows).Pairwise fun one other => one.ids.Disjoint other.ids

theorem trackletsAlike_of_rowsAlike (perm : rows.Perm rows') (alike : RowsAlike sorting rows rows') :
    TrackletsAlike sorting cfg rows rows' := by
  intro M fit
  have first := @trackletsOf_perm C M sorting rows fit cfg alike.gathered
  have second := @trackletsOf_perm C M sorting rows' fit cfg alike.gathered'
  refine ⟨first.trans ((trackletsById_congr fit cfg perm alike.sorted).trans second.symm), first, ?_⟩
  have disjoint := @disjoint_trackletsById C M sorting rows fit cfg alike.apart
  exact (first.pairwise_iff fun {_ _} apart => apart.symm).mpr disjoint

def keepAll (_ : TrackletConfig C) (members : List Detection) : Option (List Detection) := some members

theorem trackletOf_keepAll (members : List Detection) : trackletOf sorting keepAll cfg members =
    some ⟨(sorting.sort members).map (·.id), sorting.sort members⟩ := rfl

theorem trackletsById_keepAll (rows : List (Text × Detection)) : trackletsById sorting keepAll cfg rows =
    (keysOf rows).map fun key => ⟨(sorting.sort (membersOf key rows)).map (·.id), sorting.sort (membersOf key rows)⟩ := by
  simp only [trackletsById, trackletOf_keepAll]
  exact congrFun List.filterMap_eq_map' _

theorem length_trackletsOf_keepAll (rows : List (Text × Detection)) :
    (trackletsOf sorting keepAll cfg rows).length = (consecutive rows).length := by
  simp only [trackletsOf, trackletOf_keepAll]
  rw [List.filterMap_eq_map', List.length_map]

theorem mem_sorted {key : Text} {member : Detection} :
    member ∈ sorting.sort (membersOf key rows) ↔ (key, member) ∈ rows :=
  (sorting.perm _).mem_iff.trans mem_membersOf

theorem mem_keysOf {row : Text × Detection} (isRow : row ∈ rows) : row.1 ∈ keysOf rows :=
  List.mem_dedup.mpr (List.mem_map_of_mem isRow)

theorem apart_of_disjoint (disjoint : (trackletsById sorting keepAll cfg rows).Pairwise fun one other => one.ids.Disjoint other.ids)
    {row other : Text × Detection} (isRow : row ∈ rows) (isOther : other ∈ rows) (differ : row.1 ≠ other.1) :
    row.2.id ≠ other.2.id := by
  rw [trackletsById_keepAll, List.pairwise_map] at disjoint
  have symmetric : Std.Symm fun key key' : Text =>
      ((sorting.sort (membersOf key rows)).map (·.id)).Disjoint ((sorting.sort (membersOf key' rows)).map (·.id)) :=
    ⟨fun _ _ apart => apart.symm⟩
  have apart := disjoint.forall (mem_keysOf isRow) (mem_keysOf isOther) differ
  intro same
  exact apart (List.mem_map_of_mem (mem_sorted.mpr isRow)) (same ▸ List.mem_map_of_mem (mem_sorted.mpr isOther))

theorem sorted_of_perm (perm : rows.Perm rows')
    (apart : ∀ row ∈ rows, ∀ other ∈ rows, row.1 ≠ other.1 → row.2.id ≠ other.2.id)
    (byId : (trackletsById sorting keepAll cfg rows).Perm (trackletsById sorting keepAll cfg rows')) (key : Text) :
    sorting.sort (membersOf key rows) = sorting.sort (membersOf key rows') := by
  cases isMembers : membersOf key rows with
  | nil =>
    have none_ := membersOf_perm perm key
    rw [isMembers] at none_
    rw [none_.nil_eq]
  | cons member rest =>
    have isRow : (key, member) ∈ rows := mem_membersOf.mp (isMembers ▸ List.mem_cons_self)
    rw [← isMembers]
    rw [trackletsById_keepAll, trackletsById_keepAll] at byId
    obtain ⟨key', -, same⟩ := List.mem_map.mp (byId.subset (List.mem_map_of_mem (mem_keysOf isRow)))
    have same : sorting.sort (membersOf key' rows') = sorting.sort (membersOf key rows) := congrArg Tracklet.motion same
    have isRow' : (key', member) ∈ rows := by
      rw [perm.mem_iff, ← mem_sorted, same, mem_sorted]
      exact isRow
    by_cases differ : key = key'
    · rw [differ] at same ⊢
      exact same.symm
    · exact absurd rfl (apart (key, member) isRow (key', member) isRow' differ)

theorem rowsAlike_of_trackletsAlike (perm : rows.Perm rows') (alike : TrackletsAlike sorting cfg rows rows') :
    RowsAlike sorting rows rows' := by
  obtain ⟨same, byId, disjoint⟩ := alike _ keepAll
  have length := byId.length_eq
  rw [length_trackletsOf_keepAll, trackletsById_keepAll, List.length_map] at length
  have length' := same.length_eq
  rw [length_trackletsOf_keepAll, length_trackletsOf_keepAll, length, (keysOf_perm perm).length_eq] at length'
  have gathered' := isGathered_of_length length'.symm
  have apart := (byId.pairwise_iff fun {_ _} apart => apart.symm).mp disjoint
  have apart : ∀ row ∈ rows, ∀ other ∈ rows, row.1 ≠ other.1 → row.2.id ≠ other.2.id :=
    fun row isRow other isOther => apart_of_disjoint cfg apart isRow isOther
  exact ⟨isGathered_of_length length, gathered', apart,
    sorted_of_perm cfg perm apart (byId.symm.trans (same.trans (trackletsOf_perm keepAll cfg gathered')))⟩

/-! ## Files -/

structure Permuted (first second : Text) : Prop where
  header : first.lines.head? = second.lines.head?
  body : first.lines.tail.Perm second.lines.tail

theorem Permuted.symm {first second : Text} (permuted : Permuted first second) : Permuted second first :=
  ⟨permuted.header.symm, permuted.body.symm⟩

theorem exists_rowsOfFile {mpcCode : String} {keep : Option (List Text)} {first second : Text} {site : Site}
    (permuted : Permuted first second) (read : rowsOfFile mpcCode keep first = .ok (site, rows)) :
    ∃ rows', rowsOfFile mpcCode keep second = .ok (site, rows') ∧ rows.Perm rows' := by
  unfold rowsOfFile at read ⊢
  split at read
  · cases read
  · dsimp only at read ⊢
    rw [List.headD_eq_head?_getD, permuted.header] at read
    rw [List.headD_eq_head?_getD]
    split at read
    · cases read
    · next isDets =>
      rw [if_neg isDets]
      obtain ⟨kept, isKept, same⟩ := bind_eq_ok.mp read
      obtain ⟨all, isAll, same'⟩ := bind_eq_ok.mp isKept
      obtain ⟨rfl, rfl⟩ := Prod.mk.inj (Except.ok.inj same)
      obtain rfl := Except.ok.inj same'
      obtain ⟨all', isAll', perm⟩ := exists_mapM_of_perm permuted.body isAll
      exact ⟨all'.filterMap id, bind_eq_ok.mpr ⟨_, bind_eq_ok.mpr ⟨all', isAll', rfl⟩, rfl⟩, perm.filterMap id⟩

/-- The reading of two files groups their rows by tracklet exactly when the rows of each tracklet come together in both,
    different tracklets share no detection, and the detections of each are sorted to the same. -/
theorem groupAlike_iff {sorting : Sorting} {mpcCode : String} {cfg : TrackletConfig C} {keep : Option (List Text)}
    {first second : Text} (permuted : Permuted first second) : GroupAlike sorting mpcCode cfg keep first second ↔
      ∀ site rows rows', rowsOfFile mpcCode keep first = .ok (site, rows) →
        rowsOfFile mpcCode keep second = .ok (site, rows') → RowsAlike sorting rows rows' := by
  constructor
  · intro alike site rows rows' read read'
    obtain ⟨_, again, perm⟩ := exists_rowsOfFile permuted read
    obtain rfl := (Prod.mk.inj (Except.ok.inj (again.symm.trans read'))).2
    refine rowsAlike_of_trackletsAlike (settingsAt site cfg) perm fun M fit => ?_
    have parsed : parseDets sorting fit first mpcCode cfg keep = .ok _ := bind_eq_ok.mpr ⟨_, read, rfl⟩
    have parsed' : parseDets sorting fit second mpcCode cfg keep = .ok _ := bind_eq_ok.mpr ⟨_, read', rfl⟩
    obtain ⟨refused, -⟩ | ⟨_, _, _, _, again, isRead, isRead', -, same, byId, disjoint⟩ := alike M fit
    · exact absurd ⟨_, parsed⟩ refused
    · obtain ⟨rfl, rfl⟩ := Prod.mk.inj (Except.ok.inj (again.symm.trans read))
      obtain rfl := Except.ok.inj (isRead.symm.trans parsed)
      obtain rfl := Except.ok.inj (isRead'.symm.trans parsed')
      exact ⟨same, byId, disjoint⟩
  · intro alike M fit
    cases read : rowsOfFile mpcCode keep first with
    | error refusal =>
      left
      constructor
      · rintro ⟨_, parsed⟩
        obtain ⟨_, isRead, -⟩ := bind_eq_ok.mp parsed
        exact nomatch read.symm.trans isRead
      · -- A file that is read would have the other one read.
        rintro ⟨_, parsed⟩
        obtain ⟨_, isRead, -⟩ := bind_eq_ok.mp parsed
        obtain ⟨_, again, -⟩ := exists_rowsOfFile permuted.symm isRead
        exact nomatch read.symm.trans again
    | ok file =>
      right
      obtain ⟨rows', read', perm⟩ := exists_rowsOfFile permuted read
      obtain ⟨same, byId, disjoint⟩ :=
        trackletsAlike_of_rowsAlike (settingsAt file.1 cfg) perm (alike _ _ _ read read') M fit
      exact ⟨file.1, file.2, _, _, rfl, bind_eq_ok.mpr ⟨_, read, rfl⟩, bind_eq_ok.mpr ⟨_, read', rfl⟩, perm.map _, same,
        byId, disjoint⟩

end

/-! ## A tracklet in two parts -/

def insertion : Sorting where
  sort members := members.insertionSort fun first second => ¬ second.jd.lt first.jd = true
  perm members := members.perm_insertionSort _
  stable _ _ := rfl

def cfg : TrackletConfig Unit := ⟨.ofRat 1.5, ()⟩

def interleaved : Text :=
  "DETSV2.0\nA 1 11 2460000.1 1.0 2.0 x x 20.0\nB 1 13 2460000.1 5.0 6.0 x x 19.0\nA 2 12 2460000.2 1.0 2.1 x x 20.0\n".toList

def inTurn : Text :=
  "DETSV2.0\nA 1 11 2460000.1 1.0 2.0 x x 20.0\nA 2 12 2460000.2 1.0 2.1 x x 20.0\nB 1 13 2460000.1 5.0 6.0 x x 19.0\n".toList

theorem permuted_inTurn : Permuted interleaved inTurn := by
  unfold interleaved inTurn
  constructor <;> rw [String.toList_ofList, String.toList_ofList] <;> decide +kernel

theorem groupAlike_inTurn : GroupAlike insertion "703" cfg none interleaved inTurn ↔
    ∀ site rows rows', rowsOfFile "703" none interleaved = .ok (site, rows) →
      rowsOfFile "703" none inTurn = .ok (site, rows') → RowsAlike insertion rows rows' :=
  groupAlike_iff permuted_inTurn

def fitPairs (_ : TrackletConfig Unit) (members : List Detection) : Option Unit :=
  if 2 ≤ members.length then some () else none

/-- Of the two files with the same rows one has a tracklet and the other has none. -/
theorem not_groupAlike : ¬ GroupAlike insertion "703" cfg none interleaved inTurn := by
  intro alike
  have none_ : (parseDets insertion fitPairs interleaved "703" cfg none).toOption.map (·.tracklets.length) = some 0 := by
    unfold interleaved
    rw [String.toList_ofList]
    decide +kernel
  have one : (parseDets insertion fitPairs inTurn "703" cfg none).toOption.map (·.tracklets.length) = some 1 := by
    unfold inTurn
    rw [String.toList_ofList]
    decide +kernel
  obtain ⟨refused, -⟩ | ⟨_, _, read, read', -, isRead, isRead', -, same, -⟩ := alike Unit fitPairs
  · cases parsed : parseDets insertion fitPairs interleaved "703" cfg none with
    | error refusal =>
      rw [parsed] at none_
      cases none_
    | ok read => exact refused ⟨read, parsed⟩
  · rw [isRead] at none_
    rw [isRead'] at one
    have fewer : read.tracklets.length = 0 := Option.some.inj none_
    have more : read'.tracklets.length = 1 := Option.some.inj one
    rw [same.length_eq] at fewer
    omega

end Boom.Utils.Css
