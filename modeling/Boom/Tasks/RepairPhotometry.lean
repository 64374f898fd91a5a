import Boom.Foundations.Rounding
import Boom.Utils.Enums
import Boom.Utils.UpdateTimeseries
import Mathlib.Data.List.Chain

/-! # Repairing light curves

A scan in the program decides which light curves are repaired and how many points that costs,
and an expression in the store repairs them.  On points whose times the program reads as they
are, the scan foretells what the expression does (`inspectSeries_predicts`). -/

namespace Boom.Tasks

open Boom.Foundations Boom.Utils

/-! ## The scan -/

structure FieldStats where
  broken : Nat
  droppedInvalid : Nat
  droppedDuplicate : Nat
deriving DecidableEq, Repr

def FieldStats.dropped (stats : FieldStats) : Nat :=
  stats.droppedInvalid + stats.droppedDuplicate

def readJd (item : Bson) : Option F64 :=
  match item.asDocument.bind (·.lookup "jd") with
  | some (.double value) => some value
  | some (.int32 value) | some (.int64 value) => some (F64.ofInt value)
  | _ => none

structure SeriesScan where
  stats : FieldStats
  seen : List (BitVec 64)
  prev : Option F64
  outOfOrder : Bool

namespace SeriesScan

def start : SeriesScan := ⟨⟨0, 0, 0⟩, [], none, false⟩

def dropInvalid (scan : SeriesScan) : SeriesScan :=
  { scan with stats := { scan.stats with droppedInvalid := scan.stats.droppedInvalid + 1 } }

def dropDuplicate (scan : SeriesScan) : SeriesScan :=
  { scan with stats := { scan.stats with droppedDuplicate := scan.stats.droppedDuplicate + 1 } }

def inspect (scan : SeriesScan) (item : Bson) : SeriesScan :=
  match readJd item with
  | none => scan.dropInvalid
  | some jd =>
    if !jd.isFinite then scan.dropInvalid
    else
      -- Both zeros are one time.
      let key := if jd.eq F64.zero then F64.zero else jd
      if scan.seen.contains key.bits then scan.dropDuplicate
      else
        { scan with
          seen := key.bits :: scan.seen
          prev := some jd
          outOfOrder := scan.outOfOrder || scan.prev.any (jd.lt ·) }

def broken (scan : SeriesScan) : Bool :=
  scan.outOfOrder || decide (0 < scan.stats.dropped)

end SeriesScan

def inspectSeries (doc : List (String × Bson)) (field : String) : FieldStats :=
  match doc.lookup field with
  | some (.array arr) =>
    let scan := arr.foldl SeriesScan.inspect SeriesScan.start
    { scan.stats with broken := if scan.broken then 1 else 0 }
  | _ => ⟨0, 0, 0⟩

def timeseriesFields : Survey → List String
  | .ztf => ["prv_candidates", "prv_nondetections", "fp_hists"]
  | .lsst => ["prv_candidates", "fp_hists"]
  | .decam => ["prv_candidates", "fp_hists"]
  | .winter => ["prv_candidates"]

theorem timeseriesFields_plain {survey : Survey} {field : String} (isField : field ∈ timeseriesFields survey) :
    Expr.ofString ("$" ++ field) = some (.path Expr.current [field]) := by
  have named : field ∈ ["prv_candidates", "prv_nondetections", "fp_hists"] := by
    cases survey <;> simp [timeseriesFields] at isField ⊢ <;> tauto
  simp only [List.mem_cons, List.not_mem_nil, or_false] at named
  rcases named with rfl | rfl | rfl <;> rfl

/-! ## Points with a time -/

def Readable : Bson → Prop
  | .document fields =>
    match fields.lookup "jd" with
    | some (.int32 value) | some (.int64 value) => value.natAbs ≤ 2 ^ 53
    | some (.decimal _) => False
    | _ => True
  | _ => False

structure Timed (item : Bson) (jd : F64) : Prop where
  finite : jd.isFinite = true
  read : readJd item = some jd
  stored : (heldTime item).map Bson.sortKey = some [Token.ofType 10, Token.ofExact (Exact.finite jd.toRat)]
  document : readPath ["jd"] (some item) = heldTime item

theorem hasTime_of_number {item value : Bson} {number : Exact} (isTime : readPath ["jd"] (some item) = some value)
    (isNumber : Value.isNumber (some value) = true) (key : value.sortKey = [Token.ofType 10, Token.ofExact number]) :
    hasTime item = true ↔ Exact.negInfinity < number ∧ number < Exact.infinity := by
  have upper : (Bson.double F64.infinity).sortKey = [Token.ofType 10, Token.ofExact Exact.infinity] := by
    rw [Bson.sortKey]
    rfl
  have lower : (Bson.double F64.negInfinity).sortKey = [Token.ofType 10, Token.ofExact Exact.negInfinity] := by
    rw [Bson.sortKey]
    rfl
  simp only [hasTime, isTime, isNumber, Bson.keyOf, key, upper, lower, Bool.and_eq_true, decide_eq_true_eq, true_and,
    cons_lt_iff, lt_irrefl, false_or, Token.ofExact_lt_iff]
  simp [and_comm]

theorem timed_of_number {fields : List (String × Bson)} {value : Bson} {jd : F64}
    (known : fields.lookup "jd" = some value) (isNumber : Value.isNumber (some value) = true)
    (read : readJd (.document fields) = some jd) (finite : jd.isFinite = true)
    (key : value.sortKey = [Token.ofType 10, Token.ofExact (Exact.finite jd.toRat)]) :
    hasTime (.document fields) = true ∧ ∃ jd, Timed (.document fields) jd := by
  have isTime : readPath ["jd"] (some (.document fields)) = some value := by rw [readPath, readPath, known]
  refine ⟨(hasTime_of_number isTime isNumber key).mpr (Exact.finite_between _), jd, finite, read, ?_, ?_⟩
  · rw [heldTime, known, Option.map_some, key]
  · rw [isTime, heldTime, known]

theorem timed_or_not {item : Bson} (readable : Readable item) : (hasTime item = true ∧ ∃ jd, Timed item jd) ∨
      (hasTime item = false ∧ ∀ jd, readJd item = some jd → jd.isFinite = false) := by
  cases item with
  | document fields =>
    have isTime : readPath ["jd"] (some (.document fields)) = fields.lookup "jd" := by rw [readPath, readPath]
    have read : readJd (.document fields) = match fields.lookup "jd" with
        | some (.double value) => some value
        | some (.int32 value) | some (.int64 value) => some (F64.ofInt value)
        | _ => none := rfl
    have none_ {value : Value} (known : fields.lookup "jd" = value) (isNumber : value.isNumber = false) :
        hasTime (.document fields) = false := by
      rw [hasTime, isTime, known, isNumber]
      rfl
    rw [Readable] at readable
    cases known : fields.lookup "jd" with
    | none => exact .inr ⟨none_ known rfl, by simp [read, known]⟩
    | some value =>
      rw [known] at read readable isTime
      cases value with
      | double value =>
        cases finite : value.isFinite with
        | true =>
          left
          apply timed_of_number known rfl read finite
          rw [Bson.sortKey, F64.exact_of_isFinite finite]
        | false =>
          have between := hasTime_of_number isTime rfl (by rw [Bson.sortKey])
          rw [F64.exact_between_iff, finite] at between
          exact .inr ⟨by simpa using between, fun jd same => (Option.some.inj (read.symm.trans same)) ▸ finite⟩
      | int32 value | int64 value =>
        left
        apply timed_of_number known rfl read (F64.isFinite_ofInt (le_trans readable (by decide)))
        rw [Bson.sortKey, F64.toRat_ofInt readable]
      | decimal value => exact readable.elim
      | _ => exact .inr ⟨none_ known rfl, by simp [read]⟩
  | _ => exact absurd readable id

section Comparisons

variable {first second : Bson} {jd jd' : F64}

theorem Timed.key (timed : Timed first jd) : Bson.keyOf (readPath ["jd"] (some first)) =
    [Token.ofType 10, Token.ofExact (Exact.finite jd.toRat)] := by
  obtain ⟨time, isTime, key⟩ := Option.map_eq_some_iff.mp timed.stored
  rw [timed.document, isTime, Bson.keyOf, key]

theorem key_le_iff {number number' : ℚ} :
    [Token.ofType 10, Token.ofExact (Exact.finite number)] ≤ [Token.ofType 10, Token.ofExact (Exact.finite number')] ↔
      number ≤ number' := by
  rw [cons_le_iff, cons_le_iff, ← Exact.finite_le_iff, ← Token.ofExact_le_iff]
  simp [le_iff_lt_or_eq]

theorem sameTime_iff (timed : Timed first jd) (timed' : Timed second jd') :
    sameTime first second = true ↔ jd.rank = jd'.rank := by
  obtain ⟨time, isTime, key⟩ := Option.map_eq_some_iff.mp timed.stored
  rw [sameTime, isTime, Option.any_some, decide_eq_true_eq, timed'.key, key, le_antisymm_iff, key_le_iff, key_le_iff,
    F64.toRat_le_iff, F64.toRat_le_iff, le_antisymm_iff, and_comm]

theorem elementLe_iff (timed : Timed first jd) (timed' : Timed second jd') :
    elementLe ["jd"] first second = true ↔ jd.rank ≤ jd'.rank := by
  obtain ⟨time, isTime, key⟩ := Option.map_eq_some_iff.mp timed.stored
  obtain ⟨time', isTime', key'⟩ := Option.map_eq_some_iff.mp timed'.stored
  simp only [elementLe, elementKey, List.map_cons, List.map_nil, timed.document, timed'.document, isTime, isTime',
    Option.getD_some, key, key', decide_eq_true_eq]
  rw [cons_le_iff, ← F64.toRat_le_iff, ← key_le_iff, le_iff_lt_or_eq (b := [Token.ofType 10, _])]
  simp

theorem Timed.unique (timed : Timed first jd) (timed' : Timed first jd') : jd = jd' :=
  Option.some.inj (timed.read.symm.trans timed'.read)

theorem bits_eq_normalized (finite : jd.isFinite = true) :
    (if jd.eq F64.zero then F64.zero else jd).bits = jd.normalized := by
  have isZero : jd.eq F64.zero = true ↔ jd.magnitude = 0 := by
    rw [F64.eq_iff finite (by decide)]
    have zero : F64.zero.rank = 0 := by decide
    rw [zero, F64.rank]
    split <;> omega
  unfold F64.normalized
  by_cases zero : jd.magnitude = 0
  · rw [if_pos (isZero.mpr zero), if_pos zero]
    rfl
  · rw [if_neg (mt isZero.mp zero), if_neg zero, F64.not_isNan_of_isFinite finite, if_neg Bool.false_ne_true]

end Comparisons

/-! ## What the scan counts -/

namespace SeriesScan

structure Tracks (scan : SeriesScan) (kept : List Bson) (count : Nat) : Prop where
  timed : ∀ point ∈ kept, ∃ jd, Timed point jd
  seen : ∀ bits, bits ∈ scan.seen ↔ ∃ point ∈ kept, ∃ jd, Timed point jd ∧ jd.normalized = bits
  prev : scan.prev = kept.getLast?.bind readJd
  ordered : scan.outOfOrder = false ↔ kept.IsChain fun first second => elementLe ["jd"] first second = true
  counted : scan.stats.dropped + kept.length = count

variable {scan : SeriesScan} {kept : List Bson} {count : Nat}

theorem tracks_start : Tracks start [] 0 :=
  ⟨by simp, by simp [start], rfl, by simp [start], rfl⟩

section

variable (tracks : Tracks scan kept count)
include tracks

theorem Tracks.dropInvalid : Tracks scan.dropInvalid kept (count + 1) :=
  ⟨tracks.timed, tracks.seen, tracks.prev, tracks.ordered, by
    rw [← tracks.counted]
    simp only [SeriesScan.dropInvalid, FieldStats.dropped]
    omega⟩

theorem Tracks.dropDuplicate : Tracks scan.dropDuplicate kept (count + 1) :=
  ⟨tracks.timed, tracks.seen, tracks.prev, tracks.ordered, by
    rw [← tracks.counted]
    simp only [SeriesScan.dropDuplicate, FieldStats.dropped]
    omega⟩

theorem Tracks.contains_iff {item : Bson} {jd : F64} (timed : Timed item jd) :
    scan.seen.contains jd.normalized = kept.any (sameTime · item) := by
  rw [Bool.eq_iff_iff, List.contains_iff_mem, tracks.seen, List.any_eq_true]
  refine exists_congr fun point => and_congr_right fun there => ?_
  constructor
  · rintro ⟨jd', timed', same⟩
    exact (sameTime_iff timed' timed).mpr ((F64.normalized_eq_iff timed'.finite timed.finite).mp same)
  · intro same
    obtain ⟨jd', timed'⟩ := tracks.timed point there
    exact ⟨jd', timed', (F64.normalized_eq_iff timed'.finite timed.finite).mpr ((sameTime_iff timed' timed).mp same)⟩

theorem Tracks.keep {item : Bson} {jd : F64} (timed : Timed item jd) :
    Tracks { scan with
      seen := jd.normalized :: scan.seen
      prev := some jd
      outOfOrder := scan.outOfOrder || scan.prev.any (jd.lt ·) } (kept ++ [item]) (count + 1) where
  timed := by
    intro point there
    rcases List.mem_append.mp there with earlier | last
    · exact tracks.timed point earlier
    · exact ⟨jd, List.mem_singleton.mp last ▸ timed⟩
  seen := by
    intro bits
    rw [List.mem_cons, tracks.seen]
    constructor
    · rintro (rfl | ⟨point, there, known⟩)
      · exact ⟨item, by simp, jd, timed, rfl⟩
      · exact ⟨point, List.mem_append_left _ there, known⟩
    · rintro ⟨point, there, jd', timed', same⟩
      rcases List.mem_append.mp there with earlier | last
      · exact .inr ⟨point, earlier, jd', timed', same⟩
      · rw [List.mem_singleton.mp last] at timed'
        exact .inl (by rw [timed.unique timed', same])
  prev := by simp [timed.read]
  ordered := by
    rw [Bool.or_eq_false_iff, tracks.ordered, List.isChain_append, tracks.prev]
    refine and_congr_right fun _ => ?_
    cases isLast : kept.getLast? with
    | none => simp
    | some last =>
      obtain ⟨jd', timed'⟩ := tracks.timed last (List.mem_of_getLast? isLast)
      have before : jd.lt jd' = false ↔ elementLe ["jd"] last item = true := by
        rw [elementLe_iff timed' timed, ← not_lt, ← F64.lt_iff timed.finite timed'.finite, Bool.not_eq_true]
      simpa [timed'.read] using before
  counted := by
    rw [← tracks.counted, List.length_append, List.length_singleton, Nat.add_assoc]

theorem Tracks.inspect {item : Bson} (readable : Readable item) :
    Tracks (scan.inspect item)
      (if hasTime item then if kept.any (sameTime · item) then kept else kept ++ [item] else kept) (count + 1) := by
  unfold SeriesScan.inspect
  rcases timed_or_not readable with ⟨has, jd, timed⟩ | ⟨lacks, infinite⟩
  · simp only [timed.read, timed.finite, has, bits_eq_normalized timed.finite, tracks.contains_iff timed, Bool.not_true,
      Bool.false_eq_true, if_false, if_true]
    split
    · exact tracks.dropDuplicate
    · exact tracks.keep timed
  · rw [lacks, if_neg Bool.false_ne_true]
    cases read : readJd item with
    | none => exact tracks.dropInvalid
    | some jd =>
      simp only [infinite jd read, Bool.not_false, if_true]
      exact tracks.dropInvalid

theorem Tracks.inspectAll {items : List Bson} (readable : ∀ item ∈ items, Readable item) :
    Tracks (items.foldl SeriesScan.inspect scan) (firsts sameTime kept (items.filter hasTime)) (count + items.length) := by
  induction items generalizing scan kept count with
  | nil => exact tracks
  | cons item rest ih =>
    obtain ⟨first, later⟩ := List.forall_mem_cons.mp readable
    have next := ih (tracks.inspect first) later
    rw [List.foldl_cons, List.length_cons, ← Nat.add_assoc, Nat.add_right_comm]
    cases has : hasTime item with
    | false => simpa [has] using next
    | true =>
      rw [List.filter_cons_of_pos has, firsts]
      split
      next repeated => simpa [has, repeated] using next
      next fresh => simpa [has, fresh] using next

end

end SeriesScan

section Repair

variable {server : Server} {items : List Bson}

theorem tracks_inspect (readable : ∀ item ∈ items, Readable item) :
    SeriesScan.Tracks (items.foldl SeriesScan.inspect SeriesScan.start) (remaining items) items.length := by
  rw [remaining_eq]
  simpa using SeriesScan.tracks_start.inspectAll readable

theorem remaining_sublist (items : List Bson) : (remaining items).Sublist items := by
  rw [remaining_eq]
  exact (firsts_sublist _).trans List.filter_sublist

theorem remaining_apart (items : List Bson) : (remaining items).Pairwise fun first second =>
    ∀ jd jd', Timed first jd → Timed second jd' → jd.rank ≠ jd'.rank := by
  rw [remaining_eq]
  refine (distinct_firsts List.Pairwise.nil _).imp fun {first second} apart jd jd' timed timed' same => ?_
  rw [(sameTime_iff timed timed').mpr same] at apart
  cases apart

instance apart_symm : Std.Symm fun first second : Bson =>
    ∀ jd jd', Timed first jd → Timed second jd' → jd.rank ≠ jd'.rank :=
  ⟨fun _ _ apart jd jd' timed timed' => (apart jd' jd timed' timed).symm⟩

theorem remaining_of_increasing {points : List Bson} (timed : ∀ point ∈ points, hasTime point = true ∧ ∃ jd, Timed point jd)
    (apart : points.Pairwise fun first second => ∀ jd jd', Timed first jd → Timed second jd' → jd.rank ≠ jd'.rank) :
    remaining points = points := by
  have distinct : Distinct sameTime ([] ++ points) := by
    refine apart.imp_of_mem fun {first second} there there' different => ?_
    obtain ⟨jd, known⟩ := (timed first there).2
    obtain ⟨jd', known'⟩ := (timed second there').2
    rw [← Bool.not_eq_true, sameTime_iff known known']
    exact different jd jd' known known'
  rw [remaining_eq, List.filter_eq_self.mpr fun point there => (timed point there).1, firsts_of_distinct distinct,
    List.nil_append]

def repaired (server : Server) (items : List Bson) : List Bson :=
  server.sort (elementLe ["jd"]) (remaining items)

theorem repaired_perm : (repaired server items).Perm (remaining items) := server.sort_perm _ _

theorem repaired_sorted : (repaired server items).IsChain fun first second => elementLe ["jd"] first second = true :=
  (server.sort_sorted _ (elementLe_total _) (elementLe_trans _) _).isChain

section

variable (readable : ∀ item ∈ items, Readable item)
include readable

theorem timed_of_remaining {point : Bson} (there : point ∈ remaining items) :
    hasTime point = true ∧ ∃ jd, Timed point jd := by
  have has : hasTime point = true := (List.mem_filter.mp there).2
  rcases timed_or_not (readable point ((remaining_sublist items).subset there)) with timed | ⟨lacks, _⟩
  · exact timed
  · rw [has] at lacks
    cases lacks

theorem repaired_eq (ordered : (remaining items).IsChain fun first second => elementLe ["jd"] first second = true) :
    repaired server items = remaining items := by
  have trans : Trans (fun first second => elementLe ["jd"] first second = true)
      (fun first second => elementLe ["jd"] first second = true)
      (fun first second => elementLe ["jd"] first second = true) := ⟨fun before after => elementLe_trans _ _ _ _ before after⟩
  refine server.sort_eq (.refl _) (List.isChain_iff_pairwise.mp ordered) ?_
  intro first there second there' before after
  obtain ⟨-, jd, timed⟩ := timed_of_remaining readable there
  obtain ⟨-, jd', timed'⟩ := timed_of_remaining readable there'
  have same : jd.rank = jd'.rank :=
    le_antisymm ((elementLe_iff timed timed').mp before) ((elementLe_iff timed' timed).mp after)
  by_contra different
  exact (remaining_apart items).forall there there' different jd jd' timed timed' same

theorem repaired_eq_iff : repaired server items = items ↔ (remaining items).length = items.length ∧
      (remaining items).IsChain fun first second => elementLe ["jd"] first second = true := by
  constructor
  · intro same
    have length : (remaining items).length = items.length := by rw [← (@repaired_perm server items).length_eq, same]
    refine ⟨length, ?_⟩
    rw [(remaining_sublist items).eq_of_length length]
    exact same ▸ @repaired_sorted server items
  · rintro ⟨length, ordered⟩
    rw [repaired_eq readable ordered, (remaining_sublist items).eq_of_length length]

theorem remaining_repaired :
    remaining (repaired server items) = repaired server items :=
  remaining_of_increasing (fun _ there => timed_of_remaining readable (repaired_perm.mem_iff.mp there))
    ((repaired_perm.pairwise_iff fun {first second} => apart_symm.symm first second).mpr (remaining_apart items))

theorem readable_repaired : ∀ item ∈ repaired server items, Readable item :=
  fun item there => readable item ((remaining_sublist items).subset (repaired_perm.mem_iff.mp there))

end

variable {doc : List (String × Bson)} {field : String}

theorem inspectSeries_spec (readable : ∀ item ∈ items, Readable item) (stored : doc.lookup field = some (.array items)) :
    (inspectSeries doc field).dropped + (repaired server items).length = items.length ∧
      ((inspectSeries doc field).broken = 0 ↔ repaired server items = items) := by
  have tracks := tracks_inspect readable
  have counted := tracks.counted
  have scanned : inspectSeries doc field =
      { (items.foldl SeriesScan.inspect SeriesScan.start).stats with
        broken := if (items.foldl SeriesScan.inspect SeriesScan.start).broken then 1 else 0 } := by
    rw [inspectSeries, stored]
  constructor
  · rw [scanned, repaired_perm.length_eq]
    exact counted
  · rw [repaired_eq_iff readable, scanned, ← tracks.ordered]
    simp only [ite_eq_right_iff, Nat.one_ne_zero, imp_false, SeriesScan.broken, Bool.or_eq_true, not_or,
      Bool.not_eq_true, decide_eq_true_eq]
    rw [and_comm]
    refine and_congr_left fun _ => ?_
    omega

/-- A scan foretells a repair: a light curve is broken if the update changes it, as many
    points are counted as it drops, and after it the scan finds nothing and the update has
    nothing to do. -/
theorem inspectSeries_predicts (server : Server) (survey : Survey) (field : String)
    (isField : field ∈ timeseriesFields survey) (doc : List (String × Bson)) (items : List Bson)
    (stored : doc.lookup field = some (.array items)) (readable : ∀ item ∈ items, Readable item) :
    ∃ after, (updateTimeseriesOp field "jd" []).bind (·.eval server [(Expr.current, some (.document doc))]) =
        some (some (.array after)) ∧
      ((inspectSeries doc field).broken = 0 ↔ after = items) ∧
      (inspectSeries doc field).dropped + after.length = items.length ∧
      inspectSeries (insertField field (.array after) doc) field = ⟨0, 0, 0⟩ ∧
      (updateTimeseriesOp field "jd" []).bind
        (·.eval server [(Expr.current, some (.document (insertField field (.array after) doc)))]) =
          some (some (.array after)) := by
  have plain := timeseriesFields_plain isField
  obtain ⟨dropped, broken⟩ := @inspectSeries_spec server _ _ _ readable stored
  have again := lookup_insertField_self field (Bson.array (repaired server items)) doc
  have same : repaired server (repaired server items) = repaired server items := by
    have none_ := @remaining_repaired server items readable
    rw [repaired_eq (readable_repaired readable) (none_.symm ▸ repaired_sorted), none_]
  obtain ⟨dropped', broken'⟩ := @inspectSeries_spec server _ _ _ (readable_repaired readable) again
  rw [same] at dropped' broken'
  refine ⟨repaired server items, eval_updateTimeseriesOp plain stored, broken, dropped, ?_, ?_⟩
  · have intact := broken'.mpr rfl
    generalize inspectSeries (insertField field (.array (repaired server items)) doc) field = stats at dropped' intact
    cases stats
    simp only [FieldStats.dropped] at dropped' intact
    simp only [FieldStats.mk.injEq]
    omega
  · rw [eval_updateTimeseriesOp plain again]
    exact congrArg (fun after => some (some (Bson.array after))) same

/-- A time twice, as an integer and as a double, an earlier one after it, and a point with
    none. -/
theorem inspectSeries_predicts_mixed :
    let point (jd : Bson) : Bson := .document [("jd", jd)]
    let items : List Bson := [point (.int64 7), point (.double F64.one), point (.double (F64.ofInt 7)), point .null]
    ∃ after, ((inspectSeries [("fp_hists", .array items)] "fp_hists").broken = 0 ↔ after = items) ∧
      (inspectSeries [("fp_hists", .array items)] "fp_hists").dropped + after.length = items.length := by
  intro point items
  have readable : ∀ item ∈ items, Readable item := by
    simp only [items, List.forall_mem_cons, List.not_mem_nil, false_imp_iff, implies_true, and_true]
    exact ⟨(by decide : (7 : Int).natAbs ≤ 2 ^ 53), trivial, trivial, trivial⟩
  obtain ⟨after, -, broken, dropped, -⟩ := inspectSeries_predicts decimalServer .ztf "fp_hists" (by decide)
    [("fp_hists", .array items)] items rfl readable
  exact ⟨after, broken, dropped⟩

end Repair

end Boom.Tasks
