import Boom.Utils.Histories

/-! # Episodes in any order of the points

The episodes of a light curve are the runs of its positive epochs in order of time.  They and the
gaps between them are the same numbers for every order the epochs come in. -/

namespace Boom.Utils.Lightcurves

open Boom.Foundations

/-! ## Episodes are runs -/

def quietOf (pair : List F64 × List F64) : Option F64 :=
  pair.2.head?.bind fun start => pair.1.getLast?.map fun stop => start.sub stop

def quiet (runs : List (List F64)) : List F64 := (runs.zip runs.tail).filterMap quietOf

/-- A history of episodes that are runs of epochs. -/
structure EpisodesOf (gapDays : F64) (episodes : List (List F64)) (history : EpisodeHistory) : Prop where
  nEpisodes : history.nEpisodes = .ofNat episodes.length
  firstEpisodeJd : history.firstEpisodeJd = episodes.head?.bind List.head?
  lastEpisodeJd : history.lastEpisodeJd = episodes.getLast?.bind List.head?
  lastGapDays : history.lastGapDays = (quiet episodes).getLast?
  prevGapDays : history.prevGapDays = if 2 ≤ (quiet episodes).length then (quiet episodes)[(quiet episodes).length - 2]? else none
  longestQuietDays : IsLast history.longestQuietDays (quiet episodes)
  gapDays : history.gapDays = gapDays

section

variable {jds jds' : List F64} {gapDays : F64} {parts : List (List F64)}

section

variable (some_ : ∀ run ∈ parts, run ≠ [])
include some_

theorem gaps_filterMap_ends : gaps (parts.filterMap ends) = quiet parts := by
  induction parts with
  | nil => rfl
  | cons run rest ih =>
    obtain ⟨first, later⟩ := List.forall_mem_cons.mp some_
    obtain ⟨span, isSpan⟩ := exists_ends first
    cases rest with
    | nil => simp [gaps, quiet, isSpan]
    | cons next others =>
      obtain ⟨span', isSpan'⟩ := exists_ends (later next List.mem_cons_self)
      have shorter := ih later
      rw [List.filterMap_cons_some isSpan'] at shorter
      rw [List.filterMap_cons_some isSpan, List.filterMap_cons_some isSpan']
      have joint : quietOf (run, next) = some (span'.1.sub span.2) := by
        rw [quietOf, (ends_eq_some_iff.mp isSpan').1, (ends_eq_some_iff.mp isSpan).2]
        rfl
      have unfolded : quiet (run :: next :: others) = span'.1.sub span.2 :: quiet (next :: others) := by
        unfold quiet
        rw [List.tail_cons, List.zip_cons_cons, List.filterMap_cons_some joint, List.tail_cons]
      rw [unfolded, ← shorter]
      rfl

theorem head?_filterMap_ends : (parts.filterMap ends).head?.map Prod.fst = parts.head?.bind List.head? := by
  cases parts with
  | nil => rfl
  | cons run rest =>
    obtain ⟨span, isSpan⟩ := exists_ends (some_ run List.mem_cons_self)
    rw [List.filterMap_cons_some isSpan]
    exact (ends_eq_some_iff.mp isSpan).1.symm

theorem getLast?_filterMap_ends : (parts.filterMap ends).getLast?.map Prod.fst = parts.getLast?.bind List.head? := by
  cases parts using List.reverseRecOn with
  | nil => rfl
  | append_singleton parts run =>
    obtain ⟨span, isSpan⟩ := exists_ends (some_ run (List.mem_append_right _ List.mem_cons_self))
    rw [List.filterMap_append, List.filterMap_cons_some isSpan, List.filterMap_nil, List.getLast?_concat, List.getLast?_concat]
    exact (ends_eq_some_iff.mp isSpan).1.symm

end

def EpisodeHistory.ofSpans (gapDays : F64) (episodes : List (F64 × F64)) : EpisodeHistory :=
  { nEpisodes := .ofNat episodes.length
    gapDays := gapDays
    lastGapDays := (gaps episodes).getLast?
    prevGapDays := if 2 ≤ (gaps episodes).length then (gaps episodes)[(gaps episodes).length - 2]? else none
    longestQuietDays := (gaps episodes).foldl later none
    firstEpisodeJd := episodes.head?.map Prod.fst
    lastEpisodeJd := episodes.getLast?.map Prod.fst }

theorem fromPositiveEpochs_eq (jds : List F64) (gapDays : F64) :
    EpisodeHistory.fromPositiveEpochs jds gapDays = .ofSpans gapDays (spans (apart gapDays) (sortJds jds)) := by
  unfold EpisodeHistory.fromPositiveEpochs
  dsimp only
  cases sortJds jds with
  | nil => rfl
  | cons first rest => rfl

theorem not_isNan_gaps {episodes : List (F64 × F64)} (finite : ∀ span ∈ episodes, span.1.isFinite = true ∧ span.2.isFinite = true) :
    ∀ gap ∈ gaps episodes, gap.isNan = false := by
  intro gap there
  obtain ⟨⟨first, second⟩, isPair, rfl⟩ := List.mem_map.mp there
  obtain ⟨isFirst, isSecond⟩ := List.of_mem_zip isPair
  exact F64.isNan_sub (finite second (List.mem_of_mem_tail isSecond)).1 (finite first isFirst).2

theorem finite_spans (gapDays : F64) (finite : Finite jds) :
    ∀ span ∈ spans (apart gapDays) jds, span.1.isFinite = true ∧ span.2.isFinite = true := by
  intro span there
  obtain ⟨isFirst, isLast⟩ := mem_of_mem_spans there
  exact ⟨finite span.1 isFirst, finite span.2 isLast⟩

theorem episodesOf_ofSpans (finite : Finite jds) :
    EpisodesOf gapDays (runs (apart gapDays) jds) (.ofSpans gapDays (spans (apart gapDays) jds)) := by
  have some_ : ∀ run ∈ runs (apart gapDays) jds, run ≠ [] := fun _ => ne_nil_of_mem_runs
  have numbers := not_isNan_gaps (finite_spans gapDays finite)
  rw [spans_eq] at numbers ⊢
  rw [gaps_filterMap_ends some_] at numbers
  exact
    { gapDays := rfl
      nEpisodes := by rw [← length_filterMap_ends some_]; rfl
      firstEpisodeJd := head?_filterMap_ends some_
      lastEpisodeJd := getLast?_filterMap_ends some_
      lastGapDays := by rw [← gaps_filterMap_ends some_]; rfl
      prevGapDays := by rw [← gaps_filterMap_ends some_]; rfl
      longestQuietDays := by
        have last := isLast_foldl_later numbers
        rw [← gaps_filterMap_ends some_] at last ⊢
        exact last }

/-! ## Epochs in order of time -/

theorem sortJds_eq (finite : Finite jds) : sortJds jds = jds.mergeSort fun a b => a.rank ≤ b.rank := by
  have same := @List.map_mergeSort _ _ (fun a b : F64 => !b.lt a) (fun a b : F64 => decide (a.rank ≤ b.rank)) id jds
    fun a isFirst b isSecond => by
      simp only [F64.lt, finite.numbers a isFirst, finite.numbers b isSecond, Bool.not_false, Bool.true_and, id_eq]
      rw [← decide_not]
      exact decide_eq_decide.mpr not_lt
  rwa [List.map_id, List.map_id] at same

theorem pairwise_byRank (jds : List F64) :
    (jds.mergeSort fun a b => decide (a.rank ≤ b.rank)).Pairwise fun a b => a.rank ≤ b.rank := by
  have sorted := @List.pairwise_mergeSort _ (fun a b : F64 => decide (a.rank ≤ b.rank))
    (fun a b c ab bc => decide_eq_true ((of_decide_eq_true ab).trans (of_decide_eq_true bc)))
    (fun a b => by simp [le_total]) jds
  exact sorted.imp of_decide_eq_true

theorem pairwise_sortJds (finite : Finite jds) : (sortJds jds).Pairwise fun a b => a.le b = true := by
  have sorted := pairwise_byRank jds
  rw [← sortJds_eq finite] at sorted
  refine sorted.imp_of_mem fun {a b} isFirst isSecond below => ?_
  have isFinite := finite a (List.mem_mergeSort.mp isFirst)
  have isFinite' := finite b (List.mem_mergeSort.mp isSecond)
  exact (F64.le_iff isFinite isFinite').mpr below

theorem perm_sortJds (jds : List F64) : (sortJds jds).Perm jds := List.mergeSort_perm _ _

theorem finite_sortJds (finite : Finite jds) : Finite (sortJds jds) :=
  fun jd there => finite jd ((perm_sortJds jds).mem_iff.mp there)

theorem map_canon_sortJds (finite : Finite jds) (perm : jds'.Perm jds) :
    (sortJds jds').map F64.canon = (sortJds jds).map F64.canon := by
  have finite' : Finite jds' := fun jd there => finite jd (perm.mem_iff.mp there)
  have ordered : ∀ {jds : List F64}, Finite jds → ((sortJds jds).map F64.canon).Pairwise fun a b => a.rank ≤ b.rank := by
    intro jds finite
    rw [sortJds_eq finite]
    refine List.pairwise_map.mpr ((pairwise_byRank jds).imp fun below => ?_)
    rwa [F64.rank_canon, F64.rank_canon]
  have same := ((perm_sortJds jds').trans (perm.trans (perm_sortJds jds).symm)).map F64.canon
  refine same.eq_of_pairwise (fun a b isFirst isSecond below above => ?_) (ordered finite') (ordered finite)
  obtain ⟨jd, -, rfl⟩ := List.mem_map.mp isFirst
  obtain ⟨other, -, rfl⟩ := List.mem_map.mp isSecond
  rw [F64.rank_canon, F64.rank_canon] at below above
  exact F64.canon_eq_iff.mpr (le_antisymm below above)

/-! ## The same numbers -/

/-- Histories of which each number is that of the other. -/
structure EpisodeHistory.Same (history other : EpisodeHistory) : Prop where
  nEpisodes : history.nEpisodes = other.nEpisodes
  gapDays : history.gapDays = other.gapDays
  lastGapDays : Option.Rel F64.Alike history.lastGapDays other.lastGapDays
  prevGapDays : Option.Rel F64.Alike history.prevGapDays other.prevGapDays
  longestQuietDays : Option.Rel F64.Alike history.longestQuietDays other.longestQuietDays
  firstEpisodeJd : Option.Rel F64.Alike history.firstEpisodeJd other.firstEpisodeJd
  lastEpisodeJd : Option.Rel F64.Alike history.lastEpisodeJd other.lastEpisodeJd

theorem alike_of_map_rank {kept kept' : Option F64} (same : kept.map F64.rank = kept'.map F64.rank)
    (number : ∀ value ∈ kept, value.isNan = false) (number' : ∀ value ∈ kept', value.isNan = false) :
    Option.Rel F64.Alike kept kept' := by
  cases kept with
  | none =>
    cases kept' with
    | none => exact .none
    | some value => cases same
  | some value =>
    cases kept' with
    | none => cases same
    | some value' => exact .some (.of_rank (number value rfl) (number' value' rfl) (Option.some.inj same))

section

variable {values values' : List F64} (numbers' : ∀ value ∈ values', value.isNan = false)
  (numbers : ∀ value ∈ values, value.isNan = false) (ranks : values'.map F64.rank = values.map F64.rank)
include numbers' numbers ranks

theorem alike_head? : Option.Rel F64.Alike values'.head? values.head? := by
  refine alike_of_map_rank ?_ (fun value isValue => numbers' value (List.mem_of_mem_head? isValue))
    fun value isValue => numbers value (List.mem_of_mem_head? isValue)
  rw [← List.head?_map, ← List.head?_map, ranks]

theorem alike_getLast? : Option.Rel F64.Alike values'.getLast? values.getLast? := by
  refine alike_of_map_rank ?_ (fun value isValue => numbers' value (List.mem_of_getLast? isValue))
    fun value isValue => numbers value (List.mem_of_getLast? isValue)
  rw [← List.getLast?_map, ← List.getLast?_map, ranks]

theorem alike_getElem? (position : Nat) : Option.Rel F64.Alike values'[position]? values[position]? := by
  refine alike_of_map_rank ?_ (fun value isValue => numbers' value (List.mem_of_getElem? isValue))
    fun value isValue => numbers value (List.mem_of_getElem? isValue)
  rw [← List.getElem?_map, ← List.getElem?_map, ranks]

end

abbrev canonSpan : F64 × F64 → F64 × F64 := Prod.map F64.canon F64.canon

section

variable {episodes episodes' : List (F64 × F64)}

theorem map_rank_gaps (finite : ∀ span ∈ episodes, span.1.isFinite = true ∧ span.2.isFinite = true) :
    (gaps (episodes.map canonSpan)).map F64.rank = (gaps episodes).map F64.rank := by
  unfold gaps
  rw [← List.map_tail, List.zip_map, List.map_map, List.map_map, List.map_map]
  refine List.map_congr_left fun pair isPair => ?_
  obtain ⟨isFirst, isSecond⟩ := List.of_mem_zip isPair
  have isFinite := (finite pair.1 isFirst).2
  have isFinite' := (finite pair.2 (List.mem_of_mem_tail isSecond)).1
  exact (F64.rank_sub_congr isFinite' isFinite (F64.rank_canon _).symm (F64.rank_canon _).symm).symm

theorem same_ofSpans (finite : ∀ span ∈ episodes, span.1.isFinite = true ∧ span.2.isFinite = true)
    (finite' : ∀ span ∈ episodes', span.1.isFinite = true ∧ span.2.isFinite = true)
    (same : episodes'.map canonSpan = episodes.map canonSpan) :
    (EpisodeHistory.ofSpans gapDays episodes').Same (.ofSpans gapDays episodes) := by
  have lengths : episodes'.length = episodes.length := by simpa using congrArg List.length same
  have ranks : (gaps episodes').map F64.rank = (gaps episodes).map F64.rank := by
    rw [← map_rank_gaps finite, ← map_rank_gaps finite', same]
  have lengths' : (gaps episodes').length = (gaps episodes).length := by simpa using congrArg List.length ranks
  have numbers := not_isNan_gaps finite
  have numbers' := not_isNan_gaps finite'
  have startsOf : ∀ episodes : List (F64 × F64), (episodes.map Prod.fst).map F64.rank =
      (episodes.map canonSpan).map fun span => span.1.rank := by
    intro episodes
    rw [List.map_map, List.map_map]
    exact List.map_congr_left fun span _ => (F64.rank_canon span.1).symm
  have starts : (episodes'.map Prod.fst).map F64.rank = (episodes.map Prod.fst).map F64.rank := by
    rw [startsOf, startsOf, same]
  have numbersOf : ∀ {episodes : List (F64 × F64)}, (∀ span ∈ episodes, span.1.isFinite = true ∧ span.2.isFinite = true) →
      ∀ start ∈ episodes.map Prod.fst, start.isNan = false := by
    intro episodes finite start there
    obtain ⟨span, isSpan, rfl⟩ := List.mem_map.mp there
    exact F64.not_isNan_of_isFinite (finite span isSpan).1
  exact
    { nEpisodes := by simp only [EpisodeHistory.ofSpans, lengths]
      gapDays := rfl
      lastGapDays := alike_getLast? numbers' numbers ranks
      prevGapDays := by
        simp only [EpisodeHistory.ofSpans, lengths']
        split
        next => exact alike_getElem? numbers' numbers ranks _
        next => exact .none
      longestQuietDays := by
        refine Kept.alike (fun _ _ => OrderDual.toDual_inj.mp) (isLast_foldl_later numbers') (isLast_foldl_later numbers)
          numbers' numbers fun value => ?_
        have dual : ∀ gaps : List F64, gaps.map (fun gap => OrderDual.toDual gap.rank) = (gaps.map F64.rank).map OrderDual.toDual := by
          intro gaps
          rw [List.map_map]
          rfl
        rw [dual, dual, ranks]
      firstEpisodeJd := by
        have alike := alike_head? (numbersOf finite') (numbersOf finite) starts
        rwa [List.head?_map, List.head?_map] at alike
      lastEpisodeJd := by
        have alike := alike_getLast? (numbersOf finite') (numbersOf finite) starts
        rwa [List.getLast?_map, List.getLast?_map] at alike }

end

theorem same_fromPositiveEpochs (finite : Finite jds) (perm : jds'.Perm jds) :
    (EpisodeHistory.fromPositiveEpochs jds' gapDays).Same (.fromPositiveEpochs jds gapDays) := by
  have finite' : Finite jds' := fun jd there => finite jd (perm.mem_iff.mp there)
  rw [fromPositiveEpochs_eq, fromPositiveEpochs_eq]
  refine same_ofSpans (finite_spans gapDays (finite_sortJds finite)) (finite_spans gapDays (finite_sortJds finite')) ?_
  have keeps : ∀ {jds : List F64}, Finite jds → ∀ jd ∈ jds, ∀ next ∈ jds,
      apart gapDays jd.canon next.canon = apart gapDays jd next := by
    intro jds finite jd isJd next isNext
    exact (F64.lt_sub_congr (finite next isNext) (finite jd isJd) (F64.rank_canon _).symm (F64.rank_canon _).symm gapDays).symm
  rw [← spans_map F64.canon (keeps (finite_sortJds finite)), ← spans_map F64.canon (keeps (finite_sortJds finite')),
    map_canon_sortJds finite perm]

/-! ## Non-detections -/

def limits (refJd : F64) (nondetection : F64 × F32) : Bool := !refJd.lt nondetection.1 && nondetection.2.isFinite

def limitsBefore (refJd : F64) (first : Option F64) (nondetection : F64 × F32) : Bool :=
  limits refJd nondetection && first.any fun first => nondetection.1.lt first

def IsLatest (nondetections : List (F64 × F32)) (jd : Option F64) (maglim : Option F32) : Prop :=
  (nondetections = [] ∧ jd = none ∧ maglim = none) ∨
    ∃ nondetection ∈ nondetections, jd = some nondetection.1 ∧ maglim = some nondetection.2 ∧
      ∀ other ∈ nondetections, other = nondetection ∨ other.1.lt nondetection.1 = true

def Distinct (nondetections : List (F64 × F32)) : Prop :=
  nondetections.Pairwise fun one other => one.1.lt other.1 = true ∨ other.1.lt one.1 = true

section

variable {done : List (F64 × F32)} {nondetection : F64 × F32} {jd : Option F64} {maglim : Option F32} {refJd : F64}
  {history : DetectionHistory}

theorem lt_trans_of_lt {first second third : F64} (less : first.lt second = true) (less' : second.lt third = true) :
    first.lt third = true := by
  simp only [F64.lt, Bool.and_eq_true, Bool.not_eq_true', decide_eq_true_eq] at less less' ⊢
  exact ⟨⟨less.1.1, less'.1.2⟩, less.2.trans less'.2⟩

theorem IsLatest.concat (latest : IsLatest done jd maglim)
    (distinct : ∀ other ∈ done, other.1.lt nondetection.1 = true ∨ nondetection.1.lt other.1 = true) :
    IsLatest (done ++ [nondetection]) (if jd.all fun j => j.lt nondetection.1 then some nondetection.1 else jd)
      (if jd.all fun j => j.lt nondetection.1 then some nondetection.2 else maglim) := by
  rcases latest with ⟨rfl, rfl, rfl⟩ | ⟨held, isHeld, rfl, rfl, last⟩
  · refine .inr ⟨nondetection, List.mem_cons_self, rfl, rfl, fun other there => ?_⟩
    exact .inl (List.mem_singleton.mp there)
  · rw [Option.all_some]
    split
    next after =>
      refine .inr ⟨nondetection, List.mem_append_right _ List.mem_cons_self, rfl, rfl, fun other there => ?_⟩
      rcases List.mem_append.mp there with old | new
      · right
        rcases last other old with rfl | before
        · exact after
        · exact lt_trans_of_lt before after
      · exact .inl (List.mem_singleton.mp new)
    next notAfter =>
      refine .inr ⟨held, List.mem_append_left _ isHeld, rfl, rfl, fun other there => ?_⟩
      rcases List.mem_append.mp there with old | new
      · exact last other old
      · rw [List.mem_singleton.mp new]
        exact .inr ((distinct held isHeld).resolve_left notAfter)

def DetectionHistory.withNondetections (history : DetectionHistory) (lastJd : Option F64) (lastMaglim : Option F32)
    (prediscoveryJd : Option F64) (prediscoveryMaglim : Option F32) : DetectionHistory :=
  { history with
    lastNondetJd := lastJd
    lastNondetMaglim := lastMaglim
    prediscoveryNondetJd := prediscoveryJd
    prediscoveryNondetMaglim := prediscoveryMaglim }

def Added (refJd : F64) (history : DetectionHistory) (nondetections : List (F64 × F32)) (result : DetectionHistory) : Prop :=
  ∃ lastJd lastMaglim prediscoveryJd prediscoveryMaglim,
    result = history.withNondetections lastJd lastMaglim prediscoveryJd prediscoveryMaglim ∧
    IsLatest (nondetections.filter (limits refJd)) lastJd lastMaglim ∧
    IsLatest (nondetections.filter (limitsBefore refJd history.firstPosJd)) prediscoveryJd prediscoveryMaglim

theorem addNondetection_eq (history : DetectionHistory) (lastJd : Option F64) (lastMaglim : Option F32)
    (prediscoveryJd : Option F64) (prediscoveryMaglim : Option F32) :
    (history.withNondetections lastJd lastMaglim prediscoveryJd prediscoveryMaglim).addNondetection refJd nondetection =
      if limits refJd nondetection then
        if history.firstPosJd.any fun first => nondetection.1.lt first then
          history.withNondetections (if lastJd.all fun j => j.lt nondetection.1 then some nondetection.1 else lastJd)
            (if lastJd.all fun j => j.lt nondetection.1 then some nondetection.2 else lastMaglim)
            (if prediscoveryJd.all fun j => j.lt nondetection.1 then some nondetection.1 else prediscoveryJd)
            (if prediscoveryJd.all fun j => j.lt nondetection.1 then some nondetection.2 else prediscoveryMaglim)
        else
          history.withNondetections (if lastJd.all fun j => j.lt nondetection.1 then some nondetection.1 else lastJd)
            (if lastJd.all fun j => j.lt nondetection.1 then some nondetection.2 else lastMaglim)
            prediscoveryJd prediscoveryMaglim
      else history.withNondetections lastJd lastMaglim prediscoveryJd prediscoveryMaglim := by
  obtain ⟨jd, maglim⟩ := nondetection
  have skips : (refJd.lt jd || !maglim.isFinite) = !limits refJd (jd, maglim) := by simp [limits, Bool.not_and]
  unfold DetectionHistory.addNondetection DetectionHistory.withNondetections
  dsimp only
  rw [skips]
  cases limits refJd (jd, maglim) with
  | false => rfl
  | true =>
    cases isBefore : history.firstPosJd.any fun first => jd.lt first <;> cases isLater : lastJd.all fun j => j.lt jd <;>
      cases isLater' : prediscoveryJd.all fun j => j.lt jd <;> simp [isBefore, isLater']

theorem filter_concat (keep : F64 × F32 → Bool) (done : List (F64 × F32)) (nondetection : F64 × F32) :
    (done ++ [nondetection]).filter keep = if keep nondetection then done.filter keep ++ [nondetection] else done.filter keep := by
  rw [List.filter_append]
  split
  next kept => rw [List.filter_cons_of_pos kept, List.filter_nil]
  next left => rw [List.filter_cons_of_neg left, List.filter_nil, List.append_nil]

theorem Added.concat {result : DetectionHistory} (added : Added refJd history done result)
    (distinct : ∀ other ∈ done, other.1.lt nondetection.1 = true ∨ nondetection.1.lt other.1 = true) :
    Added refJd history (done ++ [nondetection]) (result.addNondetection refJd nondetection) := by
  obtain ⟨lastJd, lastMaglim, prediscoveryJd, prediscoveryMaglim, rfl, latest, prediscovery⟩ := added
  have distinctOf : ∀ keep : F64 × F32 → Bool, ∀ other ∈ done.filter keep,
      other.1.lt nondetection.1 = true ∨ nondetection.1.lt other.1 = true :=
    fun keep other there => distinct other (List.mem_filter.mp there).1
  have latest' := latest.concat (distinctOf _)
  have prediscovery' := prediscovery.concat (distinctOf _)
  unfold Added
  rw [addNondetection_eq, filter_concat, filter_concat]
  cases counts : limits refJd nondetection with
  | false =>
    have countsNot : limitsBefore refJd history.firstPosJd nondetection = false := by rw [limitsBefore, counts, Bool.false_and]
    rw [countsNot]
    exact ⟨lastJd, lastMaglim, prediscoveryJd, prediscoveryMaglim, rfl, latest, prediscovery⟩
  | true =>
    have before : limitsBefore refJd history.firstPosJd nondetection =
        history.firstPosJd.any fun first => nondetection.1.lt first := by rw [limitsBefore, counts, Bool.true_and]
    rw [before]
    cases history.firstPosJd.any fun first => nondetection.1.lt first with
    | false => exact ⟨_, _, _, _, rfl, latest', prediscovery⟩
    | true => exact ⟨_, _, _, _, rfl, latest', prediscovery'⟩

theorem added_foldl (refJd : F64) {nondetections : List (F64 × F32)} (distinct : Distinct nondetections)
    (noneYet : history.lastNondetJd = none ∧ history.lastNondetMaglim = none ∧
      history.prediscoveryNondetJd = none ∧ history.prediscoveryNondetMaglim = none) :
    Added refJd history nondetections (history.addNondetections nondetections refJd) := by
  induction nondetections using List.reverseRecOn with
  | nil =>
    obtain ⟨noJd, noLimit, noPre, noPreLimit⟩ := noneYet
    refine ⟨none, none, none, none, ?_, .inl ⟨rfl, rfl, rfl⟩, .inl ⟨rfl, rfl, rfl⟩⟩
    cases history
    simp only at noJd noLimit noPre noPreLimit
    subst noJd noLimit noPre noPreLimit
    rfl
  | append_singleton done nondetection ih =>
    obtain ⟨before, -, joint⟩ := List.pairwise_append.mp distinct
    rw [DetectionHistory.addNondetections, List.foldl_append]
    exact (ih before).concat fun other there => joint other there nondetection List.mem_cons_self

theorem Distinct.perm {nondetections nondetections' : List (F64 × F32)} (distinct : Distinct nondetections)
    (perm : nondetections'.Perm nondetections) : Distinct nondetections' :=
  (perm.pairwise_iff fun {_ _} apart => apart.symm).mpr distinct

theorem IsLatest.perm {nondetections nondetections' : List (F64 × F32)} (latest : IsLatest nondetections jd maglim)
    (perm : nondetections.Perm nondetections') : IsLatest nondetections' jd maglim := by
  rcases latest with ⟨rfl, noJd, noLimit⟩ | ⟨held, isHeld, isJd, isLimit, last⟩
  · exact .inl ⟨perm.nil_eq.symm, noJd, noLimit⟩
  · exact .inr ⟨held, perm.mem_iff.mp isHeld, isJd, isLimit, fun other there => last other (perm.mem_iff.mpr there)⟩

theorem added_calls {nondetections : List (F64 × F32)} (distinct : Distinct nondetections)
    (noneYet : history.lastNondetJd = none ∧ history.lastNondetMaglim = none ∧
      history.prediscoveryNondetJd = none ∧ history.prediscoveryNondetMaglim = none)
    {calls : List (List (F64 × F32))} (perm : calls.flatten.Perm nondetections) :
    Added refJd history nondetections (calls.foldl (fun history call => history.addNondetections call refJd) history) := by
  have joined : calls.foldl (fun history call => history.addNondetections call refJd) history =
      history.addNondetections calls.flatten refJd := List.foldl_flatten.symm
  rw [joined]
  obtain ⟨lastJd, lastMaglim, prediscoveryJd, prediscoveryMaglim, isResult, latest, prediscovery⟩ :=
    added_foldl refJd (distinct.perm perm) noneYet
  exact ⟨lastJd, lastMaglim, prediscoveryJd, prediscoveryMaglim, isResult, latest.perm (perm.filter _),
    prediscovery.perm (perm.filter _)⟩

end

end

/-! ## The summaries -/

/-- The summaries are those of the points, in whatever order these come, and the non-detections
    added to them are the latest, in whatever order and calls these come. -/
theorem summaries (points : List (F64 × Option Bool)) (forced : List (F64 × Option F64)) (refJd gapDays : F64)
    (finite : ∀ point ∈ points, point.1.isFinite = true) (finite' : ∀ epoch ∈ forced, epoch.1.isFinite = true) :
    ∃ history episodes, summariseDetections points forced refJd gapDays = (history, episodes) ∧
      history.nDet = history.nPos + history.nNeg ∧ Summarises points forced refJd history ∧
      (∃ sorted, sorted.Perm (positives (knownUpTo refJd points)) ∧ (sorted.Pairwise fun a b => a.le b = true) ∧
        EpisodesOf gapDays (runs (apart gapDays) sorted) episodes) ∧
      (∀ points' forced', points'.Perm points → forced'.Perm forced →
        (summariseDetections points' forced' refJd gapDays).1.Same history ∧
          (summariseDetections points' forced' refJd gapDays).2.Same episodes) ∧
      ∀ nondetections, Distinct nondetections → ∀ calls : List (List (F64 × F32)), calls.flatten.Perm nondetections →
        Added refJd history nondetections (calls.foldl (fun history call => history.addNondetections call refJd) history) := by
  obtain ⟨summary, isEpisodes⟩ := summarises refJd gapDays finite finite'
  have finitePositives := finite_positives (finite_knownUpTo refJd finite)
  generalize summariseDetections points forced refJd gapDays = result at summary isEpisodes ⊢
  obtain ⟨history, episodes⟩ := result
  refine ⟨history, episodes, rfl, ?_, summary, ?_, ?_, ?_⟩
  · rw [summary.nDet, summary.nPos, summary.nNeg, ← Int32.ofNat_add, length_known, Nat.add_comm]
  · refine ⟨_, perm_sortJds _, pairwise_sortJds finitePositives, ?_⟩
    simp only at isEpisodes
    rw [isEpisodes, fromPositiveEpochs_eq]
    exact episodesOf_ofSpans (finite_sortJds finitePositives)
  · intro points' forced' perm perm'
    have among : ∀ point ∈ points', point.1.isFinite = true := fun point there => finite point (perm.mem_iff.mp there)
    have among' : ∀ epoch ∈ forced', epoch.1.isFinite = true := fun epoch there => finite' epoch (perm'.mem_iff.mp there)
    obtain ⟨summary', isEpisodes'⟩ := summarises refJd gapDays among among'
    refine ⟨summary.same summary' finite finite' perm perm', ?_⟩
    simp only at isEpisodes
    rw [isEpisodes, isEpisodes']
    exact same_fromPositiveEpochs finitePositives (((perm.filterMap _).filter _).map _)
  · intro nondetections distinct calls perm
    exact added_calls distinct summary.noNondetection perm

def outbursts : List (F64 × Option Bool) :=
  [(.ofInt 101, some false), (.ofInt 50, some true), (.ofInt 100, some false), (.ofInt 7, none), (.ofInt 3, some false)]

/-- The outbursts and a forced epoch, read backwards. -/
theorem same_backwards :
    (summariseDetections outbursts.reverse [(.ofInt 2, some (.ofInt 6))] (.ofInt 100) (.ofInt 30)).1.Same
        (summariseDetections outbursts [(.ofInt 2, some (.ofInt 6))] (.ofInt 100) (.ofInt 30)).1 ∧
      (summariseDetections outbursts.reverse [(.ofInt 2, some (.ofInt 6))] (.ofInt 100) (.ofInt 30)).2.Same
        (summariseDetections outbursts [(.ofInt 2, some (.ofInt 6))] (.ofInt 100) (.ofInt 30)).2 := by
  obtain ⟨history, episodes, isSummary, -, -, -, anyOrder, -⟩ :=
    summaries outbursts [(.ofInt 2, some (.ofInt 6))] (.ofInt 100) (.ofInt 30) (by decide +kernel) (by decide +kernel)
  rw [isSummary]
  exact anyOrder _ _ (List.reverse_perm _) (.refl _)

end Boom.Utils.Lightcurves
