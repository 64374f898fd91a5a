import Boom.Foundations.Ascending
import Boom.Foundations.Runs
import Boom.Foundations.SignedZero
import Boom.Utils.Lightcurves

/-! # Detections counted in one pass

The detections and forced epochs up to an alert are counted and spanned as they come, and the
positive ones are grouped into episodes.  Each count and each end of a span is that of a set of
points, and so are the episodes of the points in order of time, whatever order they come in. -/

namespace Boom.Utils.Lightcurves

open Boom.Foundations

/-! ## The summaries -/

structure DetectionHistory where
  nDet : Int32 := 0
  nPos : Int32 := 0
  nNeg : Int32 := 0
  firstNegJd : Option F64 := none
  lastNegJd : Option F64 := none
  nPos30d : Int32 := 0
  nNeg30d : Int32 := 0
  firstActivityJd : Option F64 := none
  lastDetectionJd : Option F64 := none
  nForcedDetections : Int32 := 0
  firstPosJd : Option F64 := none
  firstForcedJd : Option F64 := none
  nNights : Int32 := 0
  lastNondetJd : Option F64 := none
  lastNondetMaglim : Option F32 := none
  prediscoveryNondetJd : Option F64 := none
  prediscoveryNondetMaglim : Option F32 := none

structure EpisodeHistory where
  nEpisodes : Int32 := 0
  gapDays : F64
  lastGapDays : Option F64 := none
  prevGapDays : Option F64 := none
  longestQuietDays : Option F64 := none
  firstEpisodeJd : Option F64 := none
  lastEpisodeJd : Option F64 := none

/-- `5.0`. -/
def STATIONARY_MIN_FORCED_SNR : F64 := .ofRat 5

def earlier (kept : Option F64) (jd : F64) : Option F64 := some (kept.elim jd (minF64 · jd))

def later (kept : Option F64) (jd : F64) : Option F64 := some (kept.elim jd (·.maximum jd))

namespace DetectionHistory

def span (history : DetectionHistory) (jd : F64) : DetectionHistory :=
  { history with
    firstActivityJd := earlier history.firstActivityJd jd
    lastDetectionJd := later history.lastDetectionJd jd }

def seeForced (history : DetectionHistory) (epoch : F64 × Option F64) : DetectionHistory :=
  let (jd, snr) := epoch
  let detections := { history with nForcedDetections := history.nForcedDetections + 1 }.span jd
  if snr.any fun s => STATIONARY_MIN_FORCED_SNR.le s then
    { detections with firstForcedJd := earlier detections.firstForcedJd jd }
  else detections

def seePoint (cutoff : F64) (state : DetectionHistory × List F64) (point : F64 × Bool) : DetectionHistory × List F64 :=
  let (history, positives) := state
  let (jd, isNegative) := point
  let spanned := history.span jd
  let detections := { spanned with nDet := spanned.nDet + 1 }
  let recent := cutoff.le jd
  if isNegative then
    ({ detections with
        nNeg := detections.nNeg + 1
        nNeg30d := if recent then detections.nNeg30d + 1 else detections.nNeg30d
        firstNegJd := earlier detections.firstNegJd jd
        lastNegJd := later detections.lastNegJd jd },
      positives)
  else
    ({ detections with
        nPos := detections.nPos + 1
        nPos30d := if recent then detections.nPos30d + 1 else detections.nPos30d },
      positives ++ [jd])

end DetectionHistory

def nightOf (jd : F64) : Int := (jd.sub (.ofRat 0.25)).floor.toI64

def apart (gapDays last jd : F64) : Bool := gapDays.lt (jd.sub last)

def sortJds (jds : List F64) : List F64 := jds.mergeSort fun a b => !b.lt a

def gaps (episodes : List (F64 × F64)) : List F64 := (episodes.zip episodes.tail).map fun (first, second) => second.1.sub first.2

def EpisodeHistory.fromPositiveEpochs (jds : List F64) (gapDays : F64) : EpisodeHistory :=
  let jds := sortJds jds
  if jds.isEmpty then { gapDays := gapDays }
  else
    let episodes := spans (apart gapDays) jds
    let gaps := gaps episodes
    { nEpisodes := .ofNat episodes.length
      gapDays := gapDays
      lastGapDays := gaps.getLast?
      prevGapDays := if 2 ≤ gaps.length then gaps[gaps.length - 2]? else none
      longestQuietDays := gaps.foldl later none
      firstEpisodeJd := episodes.head?.map Prod.fst
      lastEpisodeJd := episodes.getLast?.map Prod.fst }

/-- `reduce(f64::min)`. -/
def reduceMin : List F64 → Option F64
  | [] => none
  | first :: rest => some (rest.foldl minF64 first)

def summariseDetections (points : List (F64 × Option Bool)) (forced : List (F64 × Option F64)) (refJd gapDays : F64) :
    DetectionHistory × EpisodeHistory :=
  let cutoff := refJd.sub (.ofRat 30)
  let detections := forced.foldl (fun detections epoch =>
    if refJd.lt epoch.1 then detections else detections.seeForced epoch) {}
  let (detections, positives) := points.foldl (fun state (jd, isNegative) =>
    if refJd.lt jd then state
    else
      match isNegative with
      | none => state
      | some isNegative => DetectionHistory.seePoint cutoff state (jd, isNegative)) (detections, [])
  ({ detections with
      firstPosJd := reduceMin positives
      nNights := .ofNat (ascending (positives.map nightOf)).length },
    .fromPositiveEpochs positives gapDays)

namespace DetectionHistory

def addNondetection (refJd : F64) (history : DetectionHistory) (nondetection : F64 × F32) : DetectionHistory :=
  let (jd, maglim) := nondetection
  if refJd.lt jd || !maglim.isFinite then history
  else
    let history :=
      if history.lastNondetJd.all fun j => j.lt jd then { history with lastNondetJd := some jd, lastNondetMaglim := some maglim }
      else history
    let beforeFirst := history.firstPosJd.any fun first => jd.lt first
    if beforeFirst && history.prediscoveryNondetJd.all fun j => j.lt jd then
      { history with prediscoveryNondetJd := some jd, prediscoveryNondetMaglim := some maglim }
    else history

def addNondetections (history : DetectionHistory) (nondetections : List (F64 × F32)) (refJd : F64) : DetectionHistory :=
  nondetections.foldl (addNondetection refJd) history

end DetectionHistory

/-! ## Ends of spans -/

def Finite (jds : List F64) : Prop := ∀ jd ∈ jds, jd.isFinite = true

def Kept {κ : Type} [LinearOrder κ] (key : F64 → κ) (kept : Option F64) (jds : List F64) : Prop :=
  match kept with
  | none => jds = []
  | some jd => Least key jds jd

abbrev IsFirst (kept : Option F64) (jds : List F64) : Prop := Kept F64.rank kept jds

abbrev IsLast (kept : Option F64) (jds : List F64) : Prop := Kept (fun jd => OrderDual.toDual jd.rank) kept jds

section

variable {jds jds' : List F64} {jd : F64} {kept kept' : Option F64}

theorem Finite.append (finite : Finite jds) (finite' : Finite jds') : Finite (jds ++ jds') := by
  intro jd there
  rcases List.mem_append.mp there with old | new
  · exact finite jd old
  · exact finite' jd new

theorem IsFirst.earlier (first : IsFirst kept jds) (finite : Finite (jds ++ [jd])) : IsFirst (earlier kept jd) (jds ++ [jd]) := by
  have isFinite : jd.isFinite = true := finite jd (List.mem_append_right _ List.mem_cons_self)
  cases kept with
  | none =>
    obtain rfl : jds = [] := first
    show Least F64.rank [jd] jd
    exact least_singleton
  | some held =>
    have least : Least F64.rank jds held := first
    have isFinite' := finite held (List.mem_append_left _ least.1)
    have compared : held.lt jd = decide (held.rank < jd.rank) := by simp [F64.lt, F64.not_isNan_of_isFinite isFinite, F64.not_isNan_of_isFinite isFinite']
    show Least F64.rank (jds ++ [jd]) (minF64 held jd)
    simp only [minF64, F64.not_isNan_of_isFinite isFinite, F64.not_isNan_of_isFinite isFinite', compared, Bool.false_or,
      Bool.false_eq_true, if_false, decide_eq_true_eq]
    split
    next less => exact least.append less.le
    next notLess => exact least.append_new (not_lt.mp notLess)

theorem IsLast.later (last : IsLast kept jds) (numbers : ∀ other ∈ jds ++ [jd], other.isNan = false) :
    IsLast (later kept jd) (jds ++ [jd]) := by
  have number : jd.isNan = false := numbers jd (List.mem_append_right _ List.mem_cons_self)
  cases kept with
  | none =>
    obtain rfl : jds = [] := last
    show Greatest F64.rank [jd] jd
    exact least_singleton
  | some held =>
    have least : Greatest F64.rank jds held := last
    have number' := numbers held (List.mem_append_left _ least.1)
    have compared : jd.lt held = decide (jd.rank < held.rank) := by simp [F64.lt, number, number']
    show Greatest F64.rank (jds ++ [jd]) (held.maximum jd)
    simp only [F64.maximum, number, number', compared, Bool.false_or, Bool.false_eq_true, if_false, decide_eq_true_eq]
    split
    next less => exact least.append (OrderDual.toDual_le_toDual.mpr less.le)
    next notLess => exact least.append_new (OrderDual.toDual_le_toDual.mpr (not_lt.mp notLess))

theorem Finite.numbers (finite : Finite jds) : ∀ jd ∈ jds, jd.isNan = false :=
  fun jd there => F64.not_isNan_of_isFinite (finite jd there)

theorem isFirst_reduceMin (finite : Finite jds) : IsFirst (reduceMin jds) jds := by
  cases jds with
  | nil => rfl
  | cons first rest =>
    induction rest using List.reverseRecOn with
    | nil =>
      show Least F64.rank [first] first
      exact least_singleton
    | append_singleton rest jd ih =>
      have before := ih fun other there =>
        finite other (by rw [← List.cons_append]; exact List.mem_append_left _ there)
      have extended := @IsFirst.earlier _ jd _ before (by rw [List.cons_append]; exact finite)
      rw [List.cons_append] at extended
      simpa [reduceMin, earlier] using extended

theorem isLast_foldl_later (numbers : ∀ jd ∈ jds, jd.isNan = false) : IsLast (jds.foldl later none) jds := by
  induction jds using List.reverseRecOn with
  | nil => rfl
  | append_singleton jds jd ih =>
    rw [List.foldl_append]
    exact (ih fun other there => numbers other (List.mem_append_left _ there)).later numbers

theorem Kept.alike {κ : Type} [LinearOrder κ] {key : F64 → κ} (reads : ∀ jd jd', key jd = key jd' → jd.rank = jd'.rank)
    (holds : Kept key kept jds) (holds' : Kept key kept' jds') (numbers : ∀ jd ∈ jds, jd.isNan = false)
    (numbers' : ∀ jd ∈ jds', jd.isNan = false) (same : ∀ value, value ∈ jds.map key ↔ value ∈ jds'.map key) :
    Option.Rel F64.Alike kept kept' := by
  cases kept with
  | none =>
    obtain rfl : jds = [] := holds
    cases kept' with
    | none => exact .none
    | some jd' =>
      have there := (same (key jd')).mpr (List.mem_map_of_mem holds'.1)
      simp at there
  | some jd =>
    have there := (same (key jd)).mp (List.mem_map_of_mem holds.1)
    obtain ⟨other', isOther', sameKey'⟩ := List.mem_map.mp there
    cases kept' with
    | none =>
      obtain rfl : jds' = [] := holds'
      simp at isOther'
    | some jd' =>
      obtain ⟨other, isOther, sameKey⟩ := List.mem_map.mp ((same (key jd')).mpr (List.mem_map_of_mem holds'.1))
      refine .some (.of_rank (numbers jd holds.1) (numbers' jd' holds'.1) (reads _ _ (le_antisymm ?_ ?_)))
      · exact (holds.2 other isOther).trans sameKey.le
      · exact (holds'.2 other' isOther').trans sameKey'.le

theorem IsFirst.perm (first : IsFirst kept jds) (first' : IsFirst kept' jds') (finite : Finite jds) (perm : jds'.Perm jds) :
    Option.Rel F64.Alike kept' kept :=
  Kept.alike (fun _ _ => id) first' first (fun jd there => finite.numbers jd (perm.mem_iff.mp there)) finite.numbers
    fun _ => (perm.map F64.rank).mem_iff

theorem IsLast.perm (last : IsLast kept jds) (last' : IsLast kept' jds') (finite : Finite jds) (perm : jds'.Perm jds) :
    Option.Rel F64.Alike kept' kept :=
  Kept.alike (fun _ _ => OrderDual.toDual_inj.mp) last' last (fun jd there => finite.numbers jd (perm.mem_iff.mp there))
    finite.numbers fun _ => (perm.map fun jd => OrderDual.toDual jd.rank).mem_iff

end

/-! ## What the counts and the spans are of -/

def epochsUpTo (refJd : F64) (forced : List (F64 × Option F64)) : List (F64 × Option F64) :=
  forced.filter fun epoch => !refJd.lt epoch.1

def knownUpTo (refJd : F64) (points : List (F64 × Option Bool)) : List (F64 × Bool) :=
  points.filterMap fun (jd, isNegative) => if refJd.lt jd then none else isNegative.map fun isNegative => (jd, isNegative)

def negatives (known : List (F64 × Bool)) : List F64 := (known.filter fun point => point.2).map Prod.fst

def positives (known : List (F64 × Bool)) : List F64 := (known.filter fun point => !point.2).map Prod.fst

def significant (epochs : List (F64 × Option F64)) : List F64 :=
  (epochs.filter fun epoch => epoch.2.any fun s => STATIONARY_MIN_FORCED_SNR.le s).map Prod.fst

/-- Each count and each end of a span is that of its own points. -/
structure Seen (cutoff : F64) (epochs : List (F64 × Option F64)) (known : List (F64 × Bool)) (history : DetectionHistory) : Prop where
  nDet : history.nDet = .ofNat known.length
  nPos : history.nPos = .ofNat (positives known).length
  nNeg : history.nNeg = .ofNat (negatives known).length
  nPos30d : history.nPos30d = .ofNat ((positives known).filter fun jd => cutoff.le jd).length
  nNeg30d : history.nNeg30d = .ofNat ((negatives known).filter fun jd => cutoff.le jd).length
  firstNegJd : IsFirst history.firstNegJd (negatives known)
  lastNegJd : IsLast history.lastNegJd (negatives known)
  firstActivityJd : IsFirst history.firstActivityJd (epochs.map Prod.fst ++ known.map Prod.fst)
  lastDetectionJd : IsLast history.lastDetectionJd (epochs.map Prod.fst ++ known.map Prod.fst)
  nForcedDetections : history.nForcedDetections = .ofNat epochs.length
  firstForcedJd : IsFirst history.firstForcedJd (significant epochs)
  noNondetection : history.lastNondetJd = none ∧ history.lastNondetMaglim = none ∧
    history.prediscoveryNondetJd = none ∧ history.prediscoveryNondetMaglim = none

section

variable {cutoff refJd : F64} {epochs : List (F64 × Option F64)} {known : List (F64 × Bool)} {history : DetectionHistory}

theorem seen_nothing (cutoff : F64) : Seen cutoff [] [] {} where
  nDet := rfl
  nPos := rfl
  nNeg := rfl
  nPos30d := rfl
  nNeg30d := rfl
  firstNegJd := rfl
  lastNegJd := rfl
  firstActivityJd := rfl
  lastDetectionJd := rfl
  nForcedDetections := rfl
  firstForcedJd := rfl
  noNondetection := ⟨rfl, rfl, rfl, rfl⟩

theorem ofNat_length_concat {α : Type} (items : List α) (item : α) :
    Int32.ofNat (items ++ [item]).length = Int32.ofNat items.length + 1 := by
  rw [List.length_append, List.length_singleton, Int32.ofNat_add]
  rfl

theorem significant_concat (epochs : List (F64 × Option F64)) (epoch : F64 × Option F64) : significant (epochs ++ [epoch]) =
    if epoch.2.any fun s => STATIONARY_MIN_FORCED_SNR.le s then significant epochs ++ [epoch.1] else significant epochs := by
  unfold significant
  rw [List.filter_append, List.map_append]
  split
  next bright => simp [bright]
  next faint => simp [faint]

theorem Seen.seeForced (seen : Seen cutoff epochs [] history) {epoch : F64 × Option F64}
    (finite : Finite ((epochs ++ [epoch]).map Prod.fst)) : Seen cutoff (epochs ++ [epoch]) [] (history.seeForced epoch) := by
  obtain ⟨jd, snr⟩ := epoch
  rw [List.map_append, List.map_cons, List.map_nil] at finite
  have firstActivity := seen.firstActivityJd
  have lastDetection := seen.lastDetectionJd
  simp only [List.map_nil, List.append_nil] at firstActivity lastDetection
  have first : IsFirst (earlier history.firstActivityJd jd) ((epochs ++ [(jd, snr)]).map Prod.fst ++ []) := by
    rw [List.append_nil, List.map_append]
    exact firstActivity.earlier finite
  have last : IsLast (later history.lastDetectionJd jd) ((epochs ++ [(jd, snr)]).map Prod.fst ++ []) := by
    rw [List.append_nil, List.map_append]
    exact lastDetection.later finite.numbers
  have counted : history.nForcedDetections + 1 = .ofNat (epochs ++ [(jd, snr)]).length := by
    rw [ofNat_length_concat, seen.nForcedDetections]
  have bright := significant_concat epochs (jd, snr)
  unfold DetectionHistory.seeForced DetectionHistory.span
  dsimp only at bright ⊢
  split
  next isBright =>
    rw [if_pos isBright] at bright
    have finite' : Finite (significant epochs ++ [jd]) := by
      intro other there
      refine finite other ?_
      rcases List.mem_append.mp there with old | new
      · obtain ⟨epoch, isEpoch, same⟩ := List.mem_map.mp old
        exact List.mem_append_left _ (List.mem_map.mpr ⟨epoch, (List.mem_filter.mp isEpoch).1, same⟩)
      · exact List.mem_append_right _ new
    exact { seen with
      firstActivityJd := first
      lastDetectionJd := last
      nForcedDetections := counted
      firstForcedJd := bright ▸ seen.firstForcedJd.earlier finite' }
  next isFaint =>
    rw [if_neg isFaint] at bright
    exact { seen with
      firstActivityJd := first
      lastDetectionJd := last
      nForcedDetections := counted
      firstForcedJd := bright ▸ seen.firstForcedJd }

theorem seen_forced (cutoff : F64) (finite : Finite (epochs.map Prod.fst)) : Seen cutoff epochs [] (epochs.foldl DetectionHistory.seeForced {}) := by
  induction epochs using List.reverseRecOn with
  | nil => exact seen_nothing cutoff
  | append_singleton epochs epoch ih =>
    have before : Finite (epochs.map Prod.fst) := by
      rw [List.map_append] at finite
      exact fun jd there => finite jd (List.mem_append_left _ there)
    rw [List.foldl_append]
    exact (ih before).seeForced finite

theorem negatives_concat (known : List (F64 × Bool)) (jd : F64) (isNegative : Bool) :
    negatives (known ++ [(jd, isNegative)]) = if isNegative then negatives known ++ [jd] else negatives known := by
  cases isNegative <;> simp [negatives, List.filter_append]

theorem positives_concat (known : List (F64 × Bool)) (jd : F64) (isNegative : Bool) :
    positives (known ++ [(jd, isNegative)]) = if isNegative then positives known else positives known ++ [jd] := by
  cases isNegative <;> simp [positives, List.filter_append]

theorem recent_concat (cutoff : F64) (jds : List F64) (jd : F64) (count : Int32)
    (counted : count = .ofNat (jds.filter fun jd => cutoff.le jd).length) :
    (if cutoff.le jd then count + 1 else count) = .ofNat ((jds ++ [jd]).filter fun jd => cutoff.le jd).length := by
  rw [List.filter_append]
  split
  next recent => rw [List.filter_cons_of_pos recent, List.filter_nil, ofNat_length_concat, counted]
  next old => rw [List.filter_cons_of_neg old, List.filter_nil, List.append_nil, counted]

theorem Seen.seePoint (seen : Seen cutoff epochs known history) {jd : F64} {isNegative : Bool}
    (finite : Finite (epochs.map Prod.fst ++ (known ++ [(jd, isNegative)]).map Prod.fst)) :
    Seen cutoff epochs (known ++ [(jd, isNegative)])
        (DetectionHistory.seePoint cutoff (history, positives known) (jd, isNegative)).1 ∧
      (DetectionHistory.seePoint cutoff (history, positives known) (jd, isNegative)).2 =
        positives (known ++ [(jd, isNegative)]) := by
  have all : epochs.map Prod.fst ++ (known ++ [(jd, isNegative)]).map Prod.fst =
      (epochs.map Prod.fst ++ known.map Prod.fst) ++ [jd] := by simp
  have first : IsFirst (earlier history.firstActivityJd jd) (epochs.map Prod.fst ++ (known ++ [(jd, isNegative)]).map Prod.fst) := by
    rw [all] at finite ⊢
    exact seen.firstActivityJd.earlier finite
  have last : IsLast (later history.lastDetectionJd jd) (epochs.map Prod.fst ++ (known ++ [(jd, isNegative)]).map Prod.fst) := by
    rw [all] at finite ⊢
    exact seen.lastDetectionJd.later finite.numbers
  have counted : history.nDet + 1 = .ofNat (known ++ [(jd, isNegative)]).length := by
    rw [ofNat_length_concat, seen.nDet]
  have negatives' := negatives_concat known jd isNegative
  have positives' := positives_concat known jd isNegative
  unfold DetectionHistory.seePoint DetectionHistory.span
  dsimp only
  cases isNegative with
  | false =>
    simp only [Bool.false_eq_true, if_false] at negatives' positives' ⊢
    refine ⟨?_, positives'.symm⟩
    exact { seen with
      nDet := counted
      nPos := by rw [positives', ofNat_length_concat, seen.nPos]
      nNeg := by rw [negatives', seen.nNeg]
      nPos30d := by rw [positives', ← recent_concat cutoff _ jd _ seen.nPos30d]
      nNeg30d := by rw [negatives', seen.nNeg30d]
      firstNegJd := negatives' ▸ seen.firstNegJd
      lastNegJd := negatives' ▸ seen.lastNegJd
      firstActivityJd := first
      lastDetectionJd := last }
  | true =>
    simp only [if_true] at negatives' positives' ⊢
    refine ⟨?_, positives'.symm⟩
    have finite' : Finite (negatives known ++ [jd]) := by
      intro other there
      rw [all] at finite
      refine finite other ?_
      rcases List.mem_append.mp there with old | new
      · obtain ⟨point, isPoint, same⟩ := List.mem_map.mp old
        exact List.mem_append_left _ (List.mem_append_right _ (List.mem_map.mpr ⟨point, (List.mem_filter.mp isPoint).1, same⟩))
      · exact List.mem_append_right _ new
    exact { seen with
      nDet := counted
      nPos := by rw [positives', seen.nPos]
      nNeg := by rw [negatives', ofNat_length_concat, seen.nNeg]
      nPos30d := by rw [positives', seen.nPos30d]
      nNeg30d := by rw [negatives', ← recent_concat cutoff _ jd _ seen.nNeg30d]
      firstNegJd := negatives' ▸ seen.firstNegJd.earlier finite'
      lastNegJd := negatives' ▸ seen.lastNegJd.later finite'.numbers
      firstActivityJd := first
      lastDetectionJd := last }

theorem seen_points (seen : Seen cutoff epochs [] history) (finite : Finite (epochs.map Prod.fst ++ known.map Prod.fst)) :
    Seen cutoff epochs known (known.foldl (DetectionHistory.seePoint cutoff) (history, [])).1 ∧
      (known.foldl (DetectionHistory.seePoint cutoff) (history, [])).2 = positives known := by
  induction known using List.reverseRecOn with
  | nil => exact ⟨seen, rfl⟩
  | append_singleton known point ih =>
    obtain ⟨jd, isNegative⟩ := point
    have before : Finite (epochs.map Prod.fst ++ known.map Prod.fst) := by
      intro other there
      refine finite other ?_
      rw [List.map_append, ← List.append_assoc]
      exact List.mem_append_left _ there
    obtain ⟨seen, collected⟩ := ih before
    rw [List.foldl_append, List.foldl_cons, List.foldl_nil]
    generalize known.foldl (DetectionHistory.seePoint cutoff) (history, []) = state at seen collected ⊢
    obtain ⟨history, kept⟩ := state
    obtain rfl : kept = positives known := collected
    exact seen.seePoint finite

structure Summarises (points : List (F64 × Option Bool)) (forced : List (F64 × Option F64)) (refJd : F64)
    (history : DetectionHistory) : Prop extends
    Seen (refJd.sub (.ofRat 30)) (epochsUpTo refJd forced) (knownUpTo refJd points) history where
  firstPosJd : IsFirst history.firstPosJd (positives (knownUpTo refJd points))
  nNights : history.nNights = .ofNat ((positives (knownUpTo refJd points)).map nightOf).toFinset.card

variable {points : List (F64 × Option Bool)} {forced : List (F64 × Option F64)} {gapDays : F64}

theorem foldl_forced (history : DetectionHistory) : forced.foldl (fun detections epoch =>
    if refJd.lt epoch.1 then detections else detections.seeForced epoch) history =
      (epochsUpTo refJd forced).foldl DetectionHistory.seeForced history := by
  rw [epochsUpTo, List.foldl_filter]
  congr 1
  funext detections epoch
  cases refJd.lt epoch.1 <;> rfl

theorem foldl_points (state : DetectionHistory × List F64) : points.foldl (fun state (jd, isNegative) =>
    if refJd.lt jd then state
    else
      match isNegative with
      | none => state
      | some isNegative => DetectionHistory.seePoint cutoff state (jd, isNegative)) state =
      (knownUpTo refJd points).foldl (DetectionHistory.seePoint cutoff) state := by
  rw [knownUpTo, List.foldl_filterMap]
  congr 1
  funext state point
  obtain ⟨jd, isNegative⟩ := point
  dsimp only
  split
  · rfl
  · cases isNegative <;> rfl

theorem finite_epochsUpTo (refJd : F64) (finite : ∀ epoch ∈ forced, epoch.1.isFinite = true) : Finite ((epochsUpTo refJd forced).map Prod.fst) := by
  intro jd there
  obtain ⟨epoch, isEpoch, rfl⟩ := List.mem_map.mp there
  exact finite epoch (List.mem_filter.mp isEpoch).1

theorem finite_knownUpTo (refJd : F64) (finite : ∀ point ∈ points, point.1.isFinite = true) : Finite ((knownUpTo refJd points).map Prod.fst) := by
  intro jd there
  obtain ⟨known, isKnown, rfl⟩ := List.mem_map.mp there
  obtain ⟨⟨jd, isNegative⟩, isPoint, same⟩ := List.mem_filterMap.mp isKnown
  dsimp only at same
  split at same
  · cases same
  · obtain ⟨sign, -, rfl⟩ := Option.map_eq_some_iff.mp same
    exact finite (jd, isNegative) isPoint

theorem finite_positives (finite : Finite (known.map Prod.fst)) : Finite (positives known) := by
  intro jd there
  obtain ⟨point, isPoint, rfl⟩ := List.mem_map.mp there
  exact finite _ (List.mem_map_of_mem (List.mem_filter.mp isPoint).1)

theorem length_ascending (nights : List Int) : (ascending nights).length = nights.toFinset.card := by
  rw [← List.toFinset_card_of_nodup (nodup_ascending nights)]
  congr 1
  ext night
  simp

theorem length_known (known : List (F64 × Bool)) : known.length = (negatives known).length + (positives known).length := by
  induction known with
  | nil => rfl
  | cons point rest ih =>
    obtain ⟨jd, isNegative⟩ := point
    cases isNegative <;> simp [negatives, positives] at ih ⊢ <;> omega

theorem summarises (refJd gapDays : F64) (finite : ∀ point ∈ points, point.1.isFinite = true) (finite' : ∀ epoch ∈ forced, epoch.1.isFinite = true) :
    Summarises points forced refJd (summariseDetections points forced refJd gapDays).1 ∧
      (summariseDetections points forced refJd gapDays).2 =
        .fromPositiveEpochs (positives (knownUpTo refJd points)) gapDays := by
  have known := finite_knownUpTo refJd finite
  have epochs := finite_epochsUpTo refJd finite'
  have first := isFirst_reduceMin (finite_positives known)
  obtain ⟨seen, collected⟩ := seen_points (seen_forced (refJd.sub (.ofRat 30)) epochs) (epochs.append known)
  unfold summariseDetections
  dsimp only
  rw [foldl_forced, foldl_points]
  generalize (knownUpTo refJd points).foldl _ _ = state at seen collected ⊢
  obtain ⟨history, kept⟩ := state
  obtain rfl : kept = positives (knownUpTo refJd points) := collected
  refine ⟨?_, rfl⟩
  exact { seen with
    firstPosJd := first
    nNights := by rw [length_ascending] }

/-! ## Any order of the points -/

/-- Summaries of which each number is that of the other. -/
structure DetectionHistory.Same (history other : DetectionHistory) : Prop where
  nDet : history.nDet = other.nDet
  nPos : history.nPos = other.nPos
  nNeg : history.nNeg = other.nNeg
  firstNegJd : Option.Rel F64.Alike history.firstNegJd other.firstNegJd
  lastNegJd : Option.Rel F64.Alike history.lastNegJd other.lastNegJd
  nPos30d : history.nPos30d = other.nPos30d
  nNeg30d : history.nNeg30d = other.nNeg30d
  firstActivityJd : Option.Rel F64.Alike history.firstActivityJd other.firstActivityJd
  lastDetectionJd : Option.Rel F64.Alike history.lastDetectionJd other.lastDetectionJd
  nForcedDetections : history.nForcedDetections = other.nForcedDetections
  firstPosJd : Option.Rel F64.Alike history.firstPosJd other.firstPosJd
  firstForcedJd : Option.Rel F64.Alike history.firstForcedJd other.firstForcedJd
  nNights : history.nNights = other.nNights
  lastNondetJd : Option.Rel F64.Alike history.lastNondetJd other.lastNondetJd
  lastNondetMaglim : history.lastNondetMaglim = other.lastNondetMaglim
  prediscoveryNondetJd : Option.Rel F64.Alike history.prediscoveryNondetJd other.prediscoveryNondetJd
  prediscoveryNondetMaglim : history.prediscoveryNondetMaglim = other.prediscoveryNondetMaglim

theorem Summarises.same {points' : List (F64 × Option Bool)} {forced' : List (F64 × Option F64)} {other : DetectionHistory}
    (summary : Summarises points forced refJd history) (summary' : Summarises points' forced' refJd other)
    (finite : ∀ point ∈ points, point.1.isFinite = true) (finite' : ∀ epoch ∈ forced, epoch.1.isFinite = true)
    (perm : points'.Perm points) (perm' : forced'.Perm forced) : other.Same history := by
  have isKnown : (knownUpTo refJd points').Perm (knownUpTo refJd points) := perm.filterMap _
  have isEpochs : (epochsUpTo refJd forced').Perm (epochsUpTo refJd forced) := perm'.filter _
  have isPositives : (positives (knownUpTo refJd points')).Perm (positives (knownUpTo refJd points)) := (isKnown.filter _).map _
  have isNegatives : (negatives (knownUpTo refJd points')).Perm (negatives (knownUpTo refJd points)) := (isKnown.filter _).map _
  have isSignificant : (significant (epochsUpTo refJd forced')).Perm (significant (epochsUpTo refJd forced)) :=
    (isEpochs.filter _).map _
  have isAll := (isEpochs.map Prod.fst).append (isKnown.map Prod.fst)
  have known := finite_knownUpTo refJd finite
  have epochs := finite_epochsUpTo refJd finite'
  have all := epochs.append known
  have finiteNegatives : Finite (negatives (knownUpTo refJd points)) := by
    intro jd there
    obtain ⟨point, isPoint, rfl⟩ := List.mem_map.mp there
    exact known _ (List.mem_map_of_mem (List.mem_filter.mp isPoint).1)
  have finiteSignificant : Finite (significant (epochsUpTo refJd forced)) := by
    intro jd there
    obtain ⟨epoch, isEpoch, rfl⟩ := List.mem_map.mp there
    exact epochs _ (List.mem_map_of_mem (List.mem_filter.mp isEpoch).1)
  obtain ⟨noJd, noLimit, noPre, noPreLimit⟩ := summary.noNondetection
  obtain ⟨noJd', noLimit', noPre', noPreLimit'⟩ := summary'.noNondetection
  exact
    { nDet := by rw [summary.nDet, summary'.nDet, isKnown.length_eq]
      nPos := by rw [summary.nPos, summary'.nPos, isPositives.length_eq]
      nNeg := by rw [summary.nNeg, summary'.nNeg, isNegatives.length_eq]
      firstNegJd := summary.firstNegJd.perm summary'.firstNegJd finiteNegatives isNegatives
      lastNegJd := summary.lastNegJd.perm summary'.lastNegJd finiteNegatives isNegatives
      nPos30d := by rw [summary.nPos30d, summary'.nPos30d, (isPositives.filter _).length_eq]
      nNeg30d := by rw [summary.nNeg30d, summary'.nNeg30d, (isNegatives.filter _).length_eq]
      firstActivityJd := summary.firstActivityJd.perm summary'.firstActivityJd all isAll
      lastDetectionJd := summary.lastDetectionJd.perm summary'.lastDetectionJd all isAll
      nForcedDetections := by rw [summary.nForcedDetections, summary'.nForcedDetections, isEpochs.length_eq]
      firstPosJd := summary.firstPosJd.perm summary'.firstPosJd (finite_positives known) isPositives
      firstForcedJd := summary.firstForcedJd.perm summary'.firstForcedJd finiteSignificant isSignificant
      nNights := by rw [summary.nNights, summary'.nNights, List.toFinset_eq_of_perm _ _ (isPositives.map nightOf)]
      lastNondetJd := by rw [noJd, noJd']; exact .none
      lastNondetMaglim := by rw [noLimit, noLimit']
      prediscoveryNondetJd := by rw [noPre, noPre']; exact .none
      prediscoveryNondetMaglim := by rw [noPreLimit, noPreLimit'] }

end

end Boom.Utils.Lightcurves
