import Boom.Utils.TrackletFits
import Mathlib.Data.List.Destutter
import Mathlib.Data.List.Perm.Subperm

/-! # Which pairs are found in a tracklet

A pair's seed gathers the detections near its line, nearest in time first, as far as the longest
span leaves room, and is then fitted again together with them; it is lost if that fit is refused.
A pair is found exactly if it, or another pair that gathers both of its detections, is accepted
with what it gathers. -/

namespace Boom.Utils.Linking

open Boom.Foundations Real

section Found

variable {F : Type} [Trigonometric F]

/-! ## What a pair gathers -/

/-- A pair that passes the tests, with its two-point fit. -/
structure SeedPair (cfg : TrackletConfig F) (detections : List (Detection F)) (a b : Entry F) (seed : Tracklet F) : Prop where
  swept : [a, b].Sublist (byDec detections)
  inBand : tooFar cfg a b = false
  couldBeOne : couldBeOne cfg a.1 b.1 = true
  fits : fitTracklet cfg [a.1, b.1] = some seed

/-- Near the pair's line and not apart from it in declination, time or brightness. -/
def besideLine (cfg : TrackletConfig F) (seed : Tracklet F) (a b d : Entry F) : Bool :=
  !below cfg a b d && notAbove cfg a b d && nearLine cfg seed a b d

/-- The pair and the detections beside its line. -/
def candidates (cfg : TrackletConfig F) (detections : List (Detection F)) (seed : Tracklet F) (a b : Entry F) : List (Detection F) :=
  a.1 :: b.1 :: ((byDec detections).filter (besideLine cfg seed a b)).map (·.1)

/-- Within the longest span of each other. -/
def Together (cfg : TrackletConfig F) (p q : Detection F) : Prop :=
  Trigonometric.lessEq (q.jd.val - p.jd.val) cfg.maxSpanDays = true ∧
    Trigonometric.lessEq (p.jd.val - q.jd.val) cfg.maxSpanDays = true

/-- The candidates that the longest span leaves room for, in order of time: any two are together,
    and one is left out only for the pair or for one nearer in time. -/
structure Gathers (cfg : TrackletConfig F) (detections : List (Detection F)) (a b : Entry F) (seed : Tracklet F)
    (group : List (Detection F)) : Prop where
  among : ∀ d ∈ group, d ∈ candidates cfg detections seed a b
  pair : ∀ d ∈ [a.1, b.1], d ∈ group
  settled : Settled (fun p q => ¬ Together cfg p q) (Before (Nearer seed) (candidates cfg detections seed a b)) [a.1, b.1]
    (candidates cfg detections seed a b) group
  inTime : group.Pairwise (Before Earlier (candidates cfg detections seed a b))

/-! ## The orders -/

section Orders

variable [LawfulFloating F]

instance : Std.Total (Southward (F := F)) :=
  ⟨fun a b => LawfulFloating.le_total a.1.dec b.1.dec⟩

instance : IsTrans (Entry F) Southward :=
  ⟨fun _ _ _ => LawfulFloating.le_trans⟩

instance (seed : Tracklet F) : Std.Total (Nearer seed) :=
  ⟨fun _ _ => LawfulFloating.totalLe_total _ _⟩

instance (seed : Tracklet F) : IsTrans (Detection F) (Nearer seed) :=
  ⟨fun _ _ _ => LawfulFloating.totalLe_trans⟩

instance : Std.Total (Earlier (F := F)) :=
  ⟨fun _ _ => LawfulFloating.totalLe_total _ _⟩

instance : IsTrans (Detection F) Earlier :=
  ⟨fun _ _ _ => LawfulFloating.totalLe_trans⟩

/-- At one epoch two detections are equally near. -/
theorem nearer_of_earlier {p q : Detection F} (seed : Tracklet F) (before : Earlier p q) (after : Earlier q p) : Nearer seed q p := by
  have same : p.jd.val = q.jd.val := LawfulFloating.totalLe_antisymm before after
  unfold Nearer
  rw [same]
  exact (LawfulFloating.totalLe_total _ _).elim id id

end Orders

theorem byDec_perm (detections : List (Detection F)) : (byDec detections).Perm detections.zipIdx :=
  List.perm_insertionSort _ _

theorem map_byDec_perm (detections : List (Detection F)) : ((byDec detections).map (·.1)).Perm detections := by
  have places := (byDec_perm detections).map Prod.fst
  rwa [List.zipIdx_map_fst] at places

theorem nodup_byDec {detections : List (Detection F)} (distinct : (detections.map (·.id)).Nodup) :
    ((byDec detections).map (·.1.id)).Nodup := by
  have perm := (map_byDec_perm detections).map (·.id)
  rw [List.map_map] at perm
  exact perm.nodup_iff.mpr distinct

theorem eq_of_id_eq {detections : List (Detection F)} (distinct : (detections.map (·.id)).Nodup) {first second : Entry F}
    (there : first ∈ byDec detections) (there' : second ∈ byDec detections) (same : first.1.id = second.1.id) : first = second :=
  List.inj_on_of_nodup_map (nodup_byDec distinct) there there' same

variable {cfg : TrackletConfig F} {detections : List (Detection F)} {a b : Entry F} {seed : Tracklet F}

theorem ids_of_fits {dets : List (Detection F)} {tracklet : Tracklet F} (fits : fitTracklet cfg dets = some tracklet) :
    tracklet.ids = dets.map (·.id) := by
  unfold fitTracklet at fits
  split at fits
  · cases fits
  · cases fits
  · dsimp only at fits
    split at fits
    · cases fits
    simp only [Option.bind_eq_bind, Option.bind_eq_some_iff] at fits
    obtain ⟨plane, -, x, -, y, -, fits⟩ := fits
    split at fits
    · cases fits
    · split at fits
      · cases fits
      · obtain rfl := Option.some.inj fits
        rfl

namespace SeedPair

variable (pair : SeedPair cfg detections a b seed)

include pair

theorem mem_left : a ∈ byDec detections :=
  pair.swept.subset List.mem_cons_self

theorem mem_right : b ∈ byDec detections :=
  pair.swept.subset (List.mem_cons_of_mem _ List.mem_cons_self)

theorem mem_of_mem_candidates {d : Detection F} (there : d ∈ candidates cfg detections seed a b) : d ∈ detections := by
  have listed {entry : Entry F} (there : entry ∈ byDec detections) : entry.1 ∈ detections :=
    (map_byDec_perm detections).mem_iff.mp (List.mem_map_of_mem there)
  simp only [candidates, List.mem_cons, List.mem_map, List.mem_filter] at there
  obtain rfl | rfl | ⟨entry, ⟨there, -⟩, rfl⟩ := there
  · exact listed pair.mem_left
  · exact listed pair.mem_right
  · exact listed there

variable (distinct : (detections.map (·.id)).Nodup)

include distinct

theorem nodup_candidates : ((candidates cfg detections seed a b).map (·.id)).Nodup := by
  have others : ∀ entry ∈ (byDec detections).filter (besideLine cfg seed a b), entry.1.id ≠ a.1.id ∧ entry.1.id ≠ b.1.id := by
    intro entry isBeside
    obtain ⟨there, beside⟩ := List.mem_filter.mp isBeside
    simp only [besideLine, nearLine, Bool.and_eq_true, Bool.not_eq_true', Bool.or_eq_false_iff, beq_eq_false_iff_ne] at beside
    refine ⟨fun same => beside.2.1.1.1.1 ?_, fun same => beside.2.1.1.1.2 ?_⟩
    · rw [eq_of_id_eq distinct there pair.mem_left same]
    · rw [eq_of_id_eq distinct there pair.mem_right same]
  have apart : a.1.id ≠ b.1.id := by
    have both : ([a, b].map (·.1.id)).Nodup := (nodup_byDec distinct).sublist (pair.swept.map _)
    simpa using both
  rw [candidates, List.map_cons, List.map_cons, List.map_map]
  simp only [List.nodup_cons, List.mem_cons, List.mem_map, not_or, not_exists, not_and]
  exact ⟨⟨apart, fun entry isBeside => (others entry isBeside).1⟩, fun entry isBeside => (others entry isBeside).2,
    (nodup_byDec distinct).sublist (List.filter_sublist.map _)⟩

end SeedPair

variable [LawfulFloating F]

theorem byDec_sorted (detections : List (Detection F)) : (byDec detections).Pairwise Southward :=
  List.pairwise_insertionSort _ _

/-! ## The sweep -/

theorem mem_sweep_iff {order entries : List (Entry F)} {tracklet : Tracklet F} (sorted : entries.Pairwise Southward) :
    tracklet ∈ sweep cfg order entries ↔
      ∃ a b : Entry F, [a, b].Sublist entries ∧ tooFar cfg a b = false ∧ grownTracklet cfg order a b = some tracklet := by
  induction entries with
  | nil => simp [sweep]
  | cons first later ih =>
    obtain ⟨-, sorted'⟩ := List.pairwise_cons.mp sorted
    have split : SplitBy (fun b : Entry F => !tooFar cfg first b) later := by
      refine sorted'.imp fun {lower upper} south near => ?_
      rw [Bool.not_eq_true'] at near ⊢
      by_contra far
      have further := LawfulFloating.less_sub first.1.dec south (Bool.not_eq_false _ ▸ far)
      rw [tooFar, further] at near
      cases near
    have band (b : Entry F) : b ∈ later.takeWhile (fun b => !tooFar cfg first b) ↔ b ∈ later ∧ tooFar cfg first b = false := by
      rw [takeWhile_eq_filter split, List.mem_filter, Bool.not_eq_true']
    rw [sweep, List.mem_append, List.mem_filterMap, ih sorted']
    constructor
    · rintro (⟨b, there, isGrown⟩ | ⟨a, b, swept, rest⟩)
      · obtain ⟨among, near⟩ := (band b).mp there
        exact ⟨first, b, (List.singleton_sublist.mpr among).cons_cons _, near, isGrown⟩
      · exact ⟨a, b, swept.cons _, rest⟩
    · rintro ⟨a, b, swept, near, isGrown⟩
      cases swept with
      | cons _ swept => exact .inr ⟨a, b, swept, near, isGrown⟩
      | cons_cons _ swept => exact .inl ⟨b, (band b).mpr ⟨List.singleton_sublist.mp swept, near⟩, isGrown⟩

/-- The search of the band misses nothing beside the line. -/
theorem joining_eq : joining cfg (byDec detections) seed a b = (byDec detections).filter (besideLine cfg seed a b) := by
  have split : SplitBy (below cfg a b) (byDec detections) :=
    (byDec_sorted detections).imp fun south isBelow => LawfulFloating.less_of_le south isBelow
  have split' : SplitBy (notAbove cfg a b) (byDec detections) :=
    (byDec_sorted detections).imp fun south inside => LawfulFloating.lessEq_of_le south inside
  simp only [joining]
  rw [slice_partitionPoint split split', List.filter_filter]
  exact List.filter_congr fun d _ => by rw [besideLine, Bool.and_comm]

/-! ## The window -/

/-- The window reaches from the earliest to the latest of what is kept. -/
def Spans (cfg : TrackletConfig F) (kept : List (Detection F)) (window : F × F) : Prop :=
  ∃ first ∈ kept, ∃ last ∈ kept, window = (first.jd.val, last.jd.val) ∧
    (∀ d ∈ kept, first.jd ≤ d.jd ∧ d.jd ≤ last.jd) ∧ narrow cfg window = true

theorem exists_earliest (first d : Detection F) : ∃ least ∈ [first, d],
    Floating.fmin first.jd.val d.jd.val = least.jd.val ∧ least.jd ≤ first.jd ∧ least.jd ≤ d.jd := by
  rcases LawfulFloating.fmin_spec first.jd d.jd with ⟨same, early⟩ | ⟨same, early⟩
  · exact ⟨first, by simp, same, first.jd.le_refl, early⟩
  · exact ⟨d, by simp, same, early, d.jd.le_refl⟩

theorem exists_latest (last d : Detection F) : ∃ most ∈ [last, d],
    Floating.fmax last.jd.val d.jd.val = most.jd.val ∧ last.jd ≤ most.jd ∧ d.jd ≤ most.jd := by
  rcases LawfulFloating.fmax_spec last.jd d.jd with ⟨same, late⟩ | ⟨same, late⟩
  · exact ⟨last, by simp, same, last.jd.le_refl, late⟩
  · exact ⟨d, by simp, same, late, d.jd.le_refl⟩

theorem spans_keeps (cfg : TrackletConfig F) :
    Keeps widen (narrow cfg) (fun p q => ¬ Together cfg p q) (Spans cfg) where
  grow := by
    rintro kept _ d ⟨first, isKept, last, isKept', rfl, inside, -⟩ fits
    obtain ⟨least, isOne, isLeast, early, early'⟩ := exists_earliest first d
    obtain ⟨most, isOne', isMost, late, late'⟩ := exists_latest last d
    have there {one other : Detection F} (isOne : one ∈ [other, d]) (isKept : other ∈ kept) : one ∈ kept ++ [d] := by
      rcases List.mem_pair.mp isOne with rfl | rfl
      · exact List.mem_append_left _ isKept
      · exact List.mem_append_right _ (List.mem_singleton.mpr rfl)
    refine ⟨least, there isOne isKept, most, there isOne' isKept', by rw [widen, isLeast, isMost], fun other held => ?_, fits⟩
    rcases List.mem_append.mp held with held | held
    · exact ⟨LawfulFloating.le_trans early (inside other held).1, LawfulFloating.le_trans (inside other held).2 late⟩
    · obtain rfl := List.mem_singleton.mp held
      exact ⟨early', late'⟩
  refuse := by
    rintro kept _ d ⟨first, isKept, last, isKept', rfl, inside, fits⟩ wide
    simp only [narrow, widen] at fits wide
    have ordered := (inside last isKept').1
    rcases LawfulFloating.fmin_spec first.jd d.jd with ⟨least, early⟩ | ⟨least, early⟩ <;>
      rcases LawfulFloating.fmax_spec last.jd d.jd with ⟨most, late⟩ | ⟨most, late⟩ <;>
      rw [least, most] at wide
    · exact absurd (wide.symm.trans fits) Bool.false_ne_true
    · exact ⟨first, isKept, fun together => absurd (wide.symm.trans together.1) Bool.false_ne_true⟩
    · exact ⟨last, isKept', fun together => absurd (wide.symm.trans together.2) Bool.false_ne_true⟩
    · -- The window is a point, which is as narrow as what it was.
      have point := LawfulFloating.sub_lessEq (LawfulFloating.le_trans ordered late) (LawfulFloating.le_trans early ordered) fits
      exact absurd (wide.symm.trans point) Bool.false_ne_true
  apart := by
    rintro kept _ ⟨first, isKept, last, isKept', rfl, inside, fits⟩ p held q held' clash
    exact clash ⟨LawfulFloating.sub_lessEq (inside p held).1 (inside q held').2 fits,
      LawfulFloating.sub_lessEq (inside q held').1 (inside p held).2 fits⟩

theorem spans_pair (fits : narrow cfg (pairWindow a b) = true) : Spans cfg [a.1, b.1] (pairWindow a b) := by
  obtain ⟨least, isOne, isLeast, early, early'⟩ := exists_earliest a.1 b.1
  obtain ⟨most, isOne', isMost, late, late'⟩ := exists_latest a.1 b.1
  refine ⟨least, isOne, most, isOne', by rw [pairWindow, isLeast, isMost], fun d isEither => ?_, fits⟩
  rcases List.mem_pair.mp isEither with rfl | rfl
  · exact ⟨early, late⟩
  · exact ⟨early', late'⟩

/-- What two detections together span is narrow. -/
theorem narrow_of_together (together : Together cfg a.1 b.1) : narrow cfg (pairWindow a b) = true := by
  simp only [narrow, pairWindow]
  rcases LawfulFloating.fmin_spec a.1.jd b.1.jd with ⟨least, early⟩ | ⟨least, early⟩ <;>
    rcases LawfulFloating.fmax_spec a.1.jd b.1.jd with ⟨most, late⟩ | ⟨most, late⟩ <;>
    rw [least, most]
  · exact LawfulFloating.sub_lessEq late a.1.jd.le_refl together.2
  · exact together.1
  · exact together.2
  · exact LawfulFloating.sub_lessEq late b.1.jd.le_refl together.1

/-- A window that is too wide for the pair takes nothing. -/
theorem stuck_of_wide (wide : narrow cfg (pairWindow a b) = false) (d : Detection F) :
    narrow cfg (widen (pairWindow a b) d) = false := by
  obtain ⟨least, -, isLeast, -, -⟩ := exists_earliest a.1 b.1
  obtain ⟨most, -, isMost, -, -⟩ := exists_latest a.1 b.1
  obtain ⟨least', -, isLeast', early, -⟩ := exists_earliest least d
  obtain ⟨most', -, isMost', late, -⟩ := exists_latest most d
  simp only [narrow, pairWindow, isLeast, isMost] at wide
  rw [← Bool.not_eq_true]
  intro fits
  simp only [narrow, widen, pairWindow, isLeast, isMost, isLeast', isMost'] at fits
  exact absurd (wide.symm.trans (LawfulFloating.sub_lessEq early late fits)) Bool.false_ne_true

/-! ## What a pair grows to -/

namespace SeedPair

variable (pair : SeedPair cfg detections a b seed) (distinct : (detections.map (·.id)).Nodup)

include pair distinct

/-- Distinct detections are not taken for duplicates. -/
theorem grown_eq : grown cfg (byDec detections) seed a b =
    (retain widen (narrow cfg) (pairWindow a b) ((candidates cfg detections seed a b).insertionSort (Nearer seed))).insertionSort
      Earlier := by
  simp only [grown, joining_eq]
  refine (List.destutter_eq_self_iff _ _).mpr (List.Pairwise.isChain (List.pairwise_map.mp ?_))
  refine ((List.perm_insertionSort _ _).map _).nodup_iff.mpr (.sublist ((retain_sublist _ _).map _) ?_)
  exact ((List.perm_insertionSort _ _).map _).nodup_iff.mpr (pair.nodup_candidates distinct)

theorem gathers_grown (fits : narrow cfg (pairWindow a b) = true) :
    Gathers cfg detections a b seed (grown cfg (byDec detections) seed a b) := by
  -- The window takes what is nearest first, so what it refuses is apart from something nearer.
  have keeps := spans_keeps cfg
  have nearest := List.perm_insertionSort (Nearer seed) (candidates cfg detections seed a b)
  have ordered := pairwise_before_insertionSort (Nearer seed) (candidates cfg detections seed a b)
  have isPair : ∀ d ∈ [a.1, b.1], d ∈ (candidates cfg detections seed a b).insertionSort (Nearer seed) := by
    intro d isEither
    rw [nearest.mem_iff, candidates]
    rcases List.mem_pair.mp isEither with rfl | rfl <;> simp
  have settled := keeps.settled (spans_pair fits) isPair ordered
  rw [pair.grown_eq distinct]
  refine ⟨fun d there => ?_, fun d isEither => ?_, ⟨fun p isOne q isOne' => ?_, fun d there missing => ?_⟩, ?_⟩
  · rw [List.mem_insertionSort] at there
    exact nearest.mem_iff.mp ((retain_sublist _ _).subset there)
  · rw [List.mem_insertionSort]
    exact keeps.mem_retain (spans_pair fits) d isEither (isPair d isEither)
  · rw [List.mem_insertionSort] at isOne isOne'
    exact settled.apart p isOne q isOne'
  · rw [List.mem_insertionSort] at missing
    obtain ⟨other, isOne, early, clash⟩ := settled.full d (nearest.mem_iff.mpr there) missing
    exact ⟨other, (List.mem_insertionSort _).mpr isOne, early, clash⟩
  · -- Epochs that tie are equally near, and stay as the candidates list them.
    refine (pairwise_insertionSort_of_tie (ordered.sublist (retain_sublist _ _))).imp fun {p q} before => ?_
    exact ⟨before.1, fun tie => (before.2 tie).2 (nearer_of_earlier seed before.1 tie)⟩

/-- What a pair gathers is determined by the detections. -/
theorem grown_of_gathers {group : List (Detection F)} (gathers : Gathers cfg detections a b seed group) :
    group = grown cfg (byDec detections) seed a b := by
  have together : Together cfg a.1 b.1 :=
    not_not.mp (gathers.settled.apart a.1 (gathers.pair a.1 (by simp)) b.1 (gathers.pair b.1 (by simp)))
  have grew := pair.gathers_grown distinct (narrow_of_together together)
  have nodup : (candidates cfg detections seed a b).Nodup := (pair.nodup_candidates distinct).of_map _
  have : Std.Antisymm (Before Earlier (candidates cfg detections seed a b)) := ⟨fun _ _ one other => (one.asymm nodup other).elim⟩
  have : Std.Irrefl (Before Earlier (candidates cfg detections seed a b)) := ⟨fun _ one => one.asymm nodup one⟩
  refine gathers.inTime.eq_of_mem_iff grew.inTime ?_
  have nearest := List.perm_insertionSort (Nearer seed) (candidates cfg detections seed a b)
  have resort {chosen : List (Detection F)} (gathers : Gathers cfg detections a b seed chosen) :
      Settled (fun p q => ¬ Together cfg p q) (Before (Nearer seed) (candidates cfg detections seed a b)) [a.1, b.1]
        ((candidates cfg detections seed a b).insertionSort (Nearer seed)) chosen :=
    ⟨gathers.settled.apart, fun d there => gathers.settled.full d (nearest.mem_iff.mp there)⟩
  exact Settled.mem_iff (fun one other => one.asymm nodup other) (pairwise_before_insertionSort (Nearer seed) _) (resort gathers)
    (resort grew) (fun d isOne => nearest.mem_iff.mpr (gathers.among d isOne)) (fun d isOne => nearest.mem_iff.mpr (grew.among d isOne))
    fun d isEither => ⟨gathers.pair d isEither, grew.pair d isEither⟩

end SeedPair

/-! ## The pairs found -/

theorem exists_pair_of_found {tracklet : Tracklet F} (found : tracklet ∈ findTracklets cfg detections) :
    ∃ a b seed, SeedPair cfg detections a b seed ∧ fitTracklet cfg (grown cfg (byDec detections) seed a b) = some tracklet := by
  unfold findTracklets at found
  split at found
  · cases found
  have candidate := (firsts_sublist _).subset found
  rw [List.mem_insertionSort, mem_sweep_iff (byDec_sorted detections)] at candidate
  obtain ⟨a, b, swept, inBand, isGrown⟩ := candidate
  unfold grownTracklet at isGrown
  split at isGrown
  next couldBeOne =>
    split at isGrown
    · cases isGrown
    next seed fits =>
      dsimp only at isGrown
      split at isGrown
      · cases isGrown
      · exact ⟨a, b, seed, ⟨swept, inBand, couldBeOne, fits⟩, isGrown⟩
  · cases isGrown

/-- A pair that is accepted with what it gathers is kept, or covered by what is kept. -/
theorem SeedPair.exists_found (pair : SeedPair cfg detections a b seed) (distinct : (detections.map (·.id)).Nodup)
    (two : cfg.minDetections ≤ 2) {group : List (Detection F)} (gathers : Gathers cfg detections a b seed group) {tracklet : Tracklet F}
    (fits : fitTracklet cfg group = some tracklet) :
    ∃ found ∈ findTracklets cfg detections, ∀ id ∈ tracklet.ids, id ∈ found.ids := by
  have enough : ¬ detections.length < max cfg.minDetections 2 := by
    have bound := pair.swept.length_le
    rw [(byDec_perm detections).length_eq, List.length_zipIdx] at bound
    simp only [List.length_cons, List.length_nil] at bound
    omega
  have long : 2 ≤ group.length := by
    have apart := pair.nodup_candidates distinct
    rw [candidates, List.map_cons, List.map_cons, List.nodup_cons, List.mem_cons, not_or] at apart
    have both : ([a.1, b.1] : List (Detection F)).Nodup := by
      simpa using fun same => apart.1.1 (congrArg (·.id) same)
    exact (List.Nodup.subperm both gathers.pair).length_le
  have isGrown : grownTracklet cfg (byDec detections) a b = some tracklet := by
    rw [pair.grown_of_gathers distinct gathers] at fits long
    simp only [grownTracklet, pair.couldBeOne, if_true, pair.fits, fits]
    rw [if_neg (by omega)]
  have candidate : tracklet ∈ sweep cfg (byDec detections) (byDec detections) :=
    (mem_sweep_iff (byDec_sorted detections)).mpr ⟨a, b, pair.swept, pair.inBand, isGrown⟩
  rw [findTracklets, if_neg enough]
  -- A candidate that is left out is covered by one that is kept.
  obtain kept | ⟨held, kept, -, covered⟩ := @mem_firsts_or_exists_repeated _ covers (fun _ _ => True) [] _
    (List.pairwise_of_forall fun _ _ => trivial) tracklet ((List.mem_insertionSort LongerOrTighter).mpr candidate)
  · exact ⟨tracklet, kept, fun _ isOne => isOne⟩
  · refine ⟨held, kept, fun id isOne => ?_⟩
    have within := List.all_eq_true.mp covered id isOne
    simpa using within

/-- For distinct detections each pair that passes the tests is found exactly if, for each of them,
    a pair that passes, itself or another, gathers both of its detections, and what that pair
    gathers is accepted as one tracklet. -/
theorem pairs_found_iff (cfg : TrackletConfig F) (detections : List (Detection F)) (distinct : (detections.map (·.id)).Nodup)
    (two : cfg.minDetections ≤ 2) :
    (∀ a b seed, SeedPair cfg detections a b seed →
      ∃ tracklet ∈ findTracklets cfg detections, a.1.id ∈ tracklet.ids ∧ b.1.id ∈ tracklet.ids) ↔
    ∀ a b seed, SeedPair cfg detections a b seed → ∃ p q line group, SeedPair cfg detections p q line ∧
      Gathers cfg detections p q line group ∧ a.1 ∈ group ∧ b.1 ∈ group ∧ (fitTracklet cfg group).isSome = true := by
  constructor
  · intro found a b seed pair
    obtain ⟨tracklet, isFound, left, right⟩ := found a b seed pair
    obtain ⟨p, q, line, other, fits⟩ := exists_pair_of_found isFound
    rw [ids_of_fits fits] at left right
    -- A window too wide for the pair keeps nothing, and so finds nothing.
    have fitting : narrow cfg (pairWindow p q) = true := by
      by_contra wide
      rw [other.grown_eq distinct, retain_eq_nil (stuck_of_wide (Bool.not_eq_true _ ▸ wide))] at left
      cases left
    have gathers := other.gathers_grown distinct fitting
    have among {entry : Entry F} (there : entry ∈ byDec detections)
        (isOne : entry.1.id ∈ (grown cfg (byDec detections) line p q).map (·.id)) :
        entry.1 ∈ grown cfg (byDec detections) line p q := by
      obtain ⟨d, grew, same⟩ := List.mem_map.mp isOne
      -- The ids are distinct, so what has the id is the detection itself.
      have listed := other.mem_of_mem_candidates (gathers.among d grew)
      have listed' := (map_byDec_perm detections).mem_iff.mp (List.mem_map_of_mem there)
      rwa [← List.inj_on_of_nodup_map distinct listed listed' same]
    exact ⟨p, q, line, _, other, gathers, among pair.mem_left left, among pair.mem_right right, by rw [fits, Option.isSome_some]⟩
  · intro gathered a b seed pair
    obtain ⟨p, q, line, group, other, gathers, left, right, accepted⟩ := gathered a b seed pair
    obtain ⟨tracklet, fits⟩ := Option.isSome_iff_exists.mp accepted
    obtain ⟨found, isFound, within⟩ := other.exists_found distinct two gathers fits
    rw [ids_of_fits fits] at within
    exact ⟨found, isFound, within _ (List.mem_map_of_mem left), within _ (List.mem_map_of_mem right)⟩

end Found

/-! ## Detections along the equator and beside it -/

section Data

attribute [local instance] exactReals

noncomputable def seen (id : Int) (jd ra dec : ℝ) (mag magErr : Option ℝ) (band : Char) : Detection ℝ where
  id := id
  jd := ⟨jd, rfl⟩
  ra := ⟨ra, rfl⟩
  dec := ⟨dec, rfl⟩
  mag := mag
  magErr := magErr
  band := some band
  site := none

end Data

noncomputable def mover : @Detection ℝ exactReals :=
  seen 1 0 0 0 none none 'r'

/-- When the mover is seen again. -/
noncomputable def revisit : ℝ :=
  1 / 20

/-- How far it has moved. -/
noncomputable def shift : ℝ :=
  1 / 100

noncomputable def moved : @Detection ℝ exactReals :=
  seen 2 revisit shift 0 (some 15) (some (6 / 100)) 'g'

/-- Beside the mover in its first exposure, and too faint to be the mover in the second. -/
noncomputable def beside (id : Int) (dec : ℝ) : @Detection ℝ exactReals :=
  seen id 0 0 dec (some 20) (some (1 / 10)) 'g'

/-- Near enough to the line to join, on one side of it. -/
noncomputable def aside : ℝ :=
  29 / 36000

/-- Half as far from the line. -/
noncomputable def close : ℝ :=
  1 / 2400

noncomputable def crossed : List (@Detection ℝ exactReals) :=
  [beside 4 (-aside), mover, moved, beside 3 aside]

noncomputable def followed : List (@Detection ℝ exactReals) :=
  [mover, moved, beside 3 close]

/-- The mean epoch of the mover's detections and of some more in its first exposure. -/
noncomputable def meanEpoch (more : Nat) : ℝ :=
  revisit / (more + 2)

noncomputable def times (more : Nat) : List ℝ :=
  (List.replicate (more + 1) 0 ++ [revisit]).map (· - meanEpoch more)

noncomputable def scatterArcsec (more : Nat) (squares : ℝ) : ℝ :=
  √(squares / (more + 2)) * 3600

/-- How far from the line a detection may be to join. -/
noncomputable def reach : ℝ :=
  3 / 3600

section Cases

attribute [local instance] exactReals lawful_exact

variable {a b : Entry ℝ} {seed : Tracklet ℝ} {id : Int} {dec : ℝ}

theorem jd_mover : mover.jd.val = 0 := rfl

theorem jd_moved : moved.jd.val = revisit := rfl

theorem jd_beside : (beside id dec).jd.val = 0 := rfl

theorem plane_mover : tangentPlane mover.ra.val mover.dec.val mover.ra.val mover.dec.val = some (0, 0) :=
  tangentPlane_self_exact _ _

theorem plane_moved : tangentPlane moved.ra.val moved.dec.val mover.ra.val mover.dec.val = some (planeDeg shift, 0) :=
  tangentPlane_along (show |shift| ≤ 1 by norm_num [abs_le, shift])

theorem plane_beside (small : |dec| ≤ 1) :
    tangentPlane (beside id dec).ra.val (beside id dec).dec.val mover.ra.val mover.dec.val = some (0, planeDeg dec) :=
  tangentPlane_across small

theorem alike_mover (d : Detection ℝ) : photometryDisagrees standard mover d = false := by
  simp only [photometryDisagrees, standard, TrackletConfig.default, mover, seen]
  exact ite_self false

theorem unlike_moved : photometryDisagrees standard moved (beside id dec) = true ∧
    photometryDisagrees standard (beside id dec) moved = true := by
  -- The gap of five magnitudes is more than five times the scatter of 0.19.
  have sigma : √(6 / 100 * (6 / 100) + 1 / 10 * (1 / 10) + 0.15 * 0.15) = (19 / 100 : ℝ) := by
    rw [show (6 / 100 * (6 / 100) + 1 / 10 * (1 / 10) + 0.15 * 0.15 : ℝ) = 19 / 100 * (19 / 100) by norm_num]
    exact sqrt_mul_self (by norm_num)
  have sigma' : √(1 / 10 * (1 / 10) + 6 / 100 * (6 / 100) + 0.15 * 0.15) = (19 / 100 : ℝ) := by
    rw [add_comm (1 / 10 * (1 / 10) : ℝ)]
    exact sigma
  have gap : |(15 : ℝ) - 20| = 5 ∧ |(20 : ℝ) - 15| = 5 := by norm_num
  simp only [photometryDisagrees, standard, TrackletConfig.default, moved, beside, seen, ne_eq, not_true_eq_false, if_false,
    sqrt_exact, abs_exact, isFinite_exact, less_exact, sigma, sigma', gap.1, gap.2]
  norm_num

theorem couldBeOne_moved : couldBeOne standard mover moved = true := by
  have along := separation_along (by norm_num [shift] : (0 : ℝ) ≤ shift) (by norm_num [shift])
  simp only [couldBeOne, alike_mover, separation_exact, less_exact, abs_exact]
  simp only [standard, TrackletConfig.default, mover, moved, seen, along]
  simp only [revisit, shift]
  norm_num [abs_of_pos]

theorem moved_inBand {i j : Nat} : tooFar standard (mover, i) (moved, j) = false := by
  simp only [tooFar, TrackletConfig.maxSep, standard, TrackletConfig.default, mover, moved, seen, less_exact]
  norm_num

theorem couldBeOne_of_jd_eq {a b : Detection ℝ} (same : a.jd.val = b.jd.val) : couldBeOne standard a b = false := by
  have early : (0 : ℝ) < 0.1 / 24.0 := by norm_num
  simp only [couldBeOne, same, sub_self, abs_exact, abs_zero, less_exact, standard, TrackletConfig.default, decide_eq_true early,
    Bool.true_or, Bool.not_true, Bool.false_and]

theorem foldl_zeros {pick : ℝ → ℝ → ℝ} {start : ℝ} (first : pick start 0 = 0) (stays : pick 0 0 = 0) (more : Nat) :
    (List.replicate (more + 1) 0).foldl pick start = 0 := by
  induction more with
  | zero => exact first
  | succ more ih => rw [List.replicate_succ', List.foldl_append, ih, List.foldl_cons, stays, List.foldl_nil]

/-- The fit of the mover's detections with more in its first exposure. -/
theorem fitted_exposures {others : List (Detection ℝ)} (first : ∀ d ∈ others, d.jd.val = 0) {plane : List (ℝ × ℝ)}
    {x y : ℝ × ℝ} {squares : ℝ}
    (isPlane : (mover :: (others ++ [moved])).mapM (fun d => tangentPlane d.ra.val d.dec.val mover.ra.val mover.dec.val) = some plane)
    (isX : fitLine (times others.length) (plane.map (·.1)) = some x) (isY : fitLine (times others.length) (plane.map (·.2)) = some y)
    (isSum : (residuals (times others.length) plane x y).sum = squares) :
    Fitted standard (mover :: (others ++ [moved])) mover (meanEpoch others.length) (scatterArcsec others.length squares) x y := by
  have zeros : others.map (·.jd.val) = List.replicate others.length 0 :=
    List.eq_replicate_iff.mpr ⟨List.length_map _, fun jd there => by
      obtain ⟨d, isOne, rfl⟩ := List.mem_map.mp there
      exact first d isOne⟩
  have jds : (mover :: (others ++ [moved])).map (·.jd.val) = List.replicate (others.length + 1) 0 ++ [revisit] := by
    rw [List.map_cons, List.map_append, zeros, List.replicate_succ]
    rfl
  have count : (mover :: (others ++ [moved])).length = others.length + 2 := by simp
  have isTime : ((mover :: (others ++ [moved])).map (·.jd.val)).map (· - meanEpoch others.length) = times others.length := by
    rw [jds, times]
  refine ⟨?_, ?_, plane, isPlane, isTime ▸ isX, isTime ▸ isY, ?_⟩
  · have last := @foldl_zeros (Floating.fmax) Floating.minValue (by norm_num [fmax_exact]) (by norm_num [fmax_exact]) others.length
    have earliest := @foldl_zeros (Floating.fmin) Floating.maxValue (by norm_num [fmin_exact]) (by norm_num [fmin_exact]) others.length
    rw [jds, List.foldl_append, List.foldl_append, last, earliest]
    simp only [List.foldl_cons, List.foldl_nil, fmax_exact, fmin_exact, less_exact, standard, TrackletConfig.default, revisit]
    norm_num
  · rw [jds, total_exact, count, ofNat_exact, meanEpoch, List.sum_append, List.sum_replicate]
    simp
  · have arcsec : (3600.0 : ℝ) = 3600 := by norm_num
    rw [isTime, total_exact, isSum, count, sqrt_exact, ofNat_exact, scatterArcsec, arcsec]
    simp

theorem fits_moved : ∃ seed, fitTracklet standard [mover, moved] = some seed ∧ seed.jdRef = meanEpoch 0 ∧
    predict seed 0 = (0, 0) := by
  obtain ⟨X, isX⟩ : ∃ X, planeDeg shift = X := ⟨_, rfl⟩
  have bounds := @planeDeg_bounds shift (by norm_num [shift]) (by norm_num [shift])
  rw [isX, shift] at bounds
  have fitted : Fitted standard [mover, moved] mover (meanEpoch 0) (scatterArcsec 0 0) (X / 2, 20 * X) (0, 0) := by
    refine @fitted_exposures [] (by simp) [(0, 0), (X, 0)] _ _ _ ?_ ?_ ?_ ?_
    · simp [plane_mover, plane_moved, isX]
    · refine fitLine_exact 0 (X / 2) (X / 40) (1 / 800) ?_ ?_ ?_ ?_ ?_ ?_ ?_ <;> simp [times, List.replicate, meanEpoch, revisit] <;> ring
    · refine fitLine_exact 0 0 0 (1 / 800) ?_ ?_ ?_ ?_ ?_ ?_ ?_ <;> simp [times, List.replicate, meanEpoch, revisit] <;> norm_num
    · simp [residuals, times, List.replicate, meanEpoch, revisit]
      ring
  have rate : Utils.hypot (20 * X) 0 = 20 * X := by
    rw [Utils.hypot, mul_zero, add_zero, sqrt_mul_self (by linarith)]
  obtain ⟨seed, fits, isRef, places⟩ := fitted.accepted
    (by simp only [less_exact, scatterArcsec, zero_div, sqrt_zero, standard, TrackletConfig.default]; norm_num)
    (by simp only [less_exact, hypot_exact, rate, standard, TrackletConfig.default]; norm_num; linarith)
    (by simp only [less_exact, hypot_exact, rate, standard, TrackletConfig.default]; norm_num; linarith)
  refine ⟨seed, fits, isRef, (places 0).trans ?_⟩
  have origin : X / 2 + 20 * X * (0 - meanEpoch 0) = 0 ∧ (0 : ℝ) + 0 * (0 - meanEpoch 0) = 0 := by
    simp only [meanEpoch, revisit, Nat.cast_zero]
    constructor <;> ring
  have near : Utils.hypot (Utils.toRadians 0) (Utils.toRadians 0) < 1e-15 := by
    simp only [Utils.hypot, Utils.toRadians, zero_mul, mul_zero, add_zero, sqrt_zero]
    norm_num
  simp only [origin, fromTangentPlane, toRadians_exact, hypot_exact, less_exact, decide_eq_true near, if_true]
  rfl

/-! ## What is beside the line -/

theorem besideLine_beside (epoch : seed.jdRef = meanEpoch 0) (back : predict seed 0 = (0, 0)) (close : |dec| ≤ reach) {i j place : Nat}
    (apart : place ≠ i ∧ place ≠ j) : besideLine standard seed (mover, i) (moved, j) (beside id dec, place) = true := by
  obtain ⟨south, north⟩ := abs_le.mp close
  have near := separation_across close (show reach ≤ 90 by norm_num [reach])
  have band : below standard (mover, i) (moved, j) (beside id dec, place) = false ∧
      notAbove standard (mover, i) (moved, j) (beside id dec, place) = true := by
    simp only [below, notAbove, TrackletConfig.maxSep, TrackletConfig.matchRadius, standard, TrackletConfig.default, mover,
      moved, beside, seen, less_exact, lessEq_exact, fmin_exact, fmax_exact, min_self, max_self, decide_eq_false_iff_not, decide_eq_true_eq, not_lt]
    norm_num [reach] at south north ⊢
    constructor <;> linarith
  have isOther : (place == i || place == j) = false := by simp [apart]
  simp only [besideLine, band, nearLine, isOther, jd_beside, back, alike_mover, epoch, separation_exact, less_exact,
    lessEq_exact, abs_exact]
  simp only [standard, TrackletConfig.default, TrackletConfig.matchRadius, beside, seen, meanEpoch, revisit]
  norm_num [reach, abs_of_pos] at near ⊢
  exact near

theorem besideLine_self {i j : Nat} : besideLine standard seed (mover, i) (moved, j) (mover, i) = false ∧
    besideLine standard seed (mover, i) (moved, j) (moved, j) = false := by
  simp [besideLine, nearLine]

/-- Any pair that passes the tests among these detections is the mover's. -/
theorem eq_of_couldBeOne {a b : Detection ℝ} (isA : a = mover ∨ a = moved ∨ ∃ id dec, a = beside id dec)
    (isB : b = mover ∨ b = moved ∨ ∃ id dec, b = beside id dec) (passes : couldBeOne standard a b = true) :
    a = mover ∧ b = moved ∨ a = moved ∧ b = mover := by
  have differ : a.jd.val ≠ b.jd.val := fun same => by
    rw [couldBeOne_of_jd_eq same] at passes
    cases passes
  have agree : photometryDisagrees standard a b = false := by
    simp only [couldBeOne, Bool.and_eq_true] at passes
    simpa using passes.1.1.2
  obtain rfl | rfl | ⟨id, dec, rfl⟩ := isA <;> obtain rfl | rfl | ⟨id', dec', rfl⟩ := isB
  · exact absurd rfl differ
  · exact .inl ⟨rfl, rfl⟩
  · exact absurd rfl differ
  · exact .inr ⟨rfl, rfl⟩
  · exact absurd rfl differ
  · rw [unlike_moved.1] at agree
    cases agree
  · exact absurd rfl differ
  · rw [unlike_moved.2] at agree
    cases agree
  · exact absurd rfl differ

/-! ## What the mover's pair grows to -/

variable {detections : List (Detection ℝ)} {i j : Nat} {others : List (Entry ℝ)}

theorem together_of_exposures {p q : Detection ℝ} (isP : p.jd.val = 0 ∨ p.jd.val = revisit)
    (isQ : q.jd.val = 0 ∨ q.jd.val = revisit) : Together standard p q := by
  simp only [Together, lessEq_exact, standard, TrackletConfig.default]
  rcases isP with isP | isP <;> rcases isQ with isQ | isQ <;> simp only [isP, isQ, revisit] <;> norm_num

theorem earlier_exact {p q : Detection ℝ} : Earlier p q ↔ p.jd.val ≤ q.jd.val := by
  rw [Earlier, totalLe_exact, decide_eq_true_eq]

/-- The pair takes in all that is beside it in its first exposure. -/
theorem SeedPair.grown_of_beside (pair : SeedPair standard detections (mover, i) (moved, j) seed)
    (distinct : (detections.map (·.id)).Nodup)
    (isBeside : (byDec detections).filter (besideLine standard seed (mover, i) (moved, j)) = others)
    (first : ∀ d ∈ others.map (·.1), d.jd.val = 0) :
    grown standard (byDec detections) seed (mover, i) (moved, j) = mover :: others.map (·.1) ++ [moved] := by
  have listed : candidates standard detections seed (mover, i) (moved, j) = mover :: moved :: others.map (·.1) := by
    rw [candidates, isBeside]
  have whole : ∀ d, d ∈ mover :: moved :: others.map (·.1) ↔ d ∈ mover :: others.map (·.1) ++ [moved] := by
    intro d
    simp only [List.cons_append, List.mem_cons, List.mem_append, List.not_mem_nil, or_false]
    tauto
  have exposures : ∀ d ∈ mover :: others.map (·.1) ++ [moved], d.jd.val = 0 ∨ d.jd.val = revisit := by
    intro d there
    obtain rfl | rfl | there := List.mem_cons.mp ((whole d).mpr there) |>.imp_right List.mem_cons.mp
    · exact .inl jd_mover
    · exact .inr jd_moved
    · exact .inl (first d there)
  have late {d : Detection ℝ} (isFirst : d.jd.val = 0) :
      Before Earlier (mover :: moved :: others.map (·.1)) d moved := by
    refine ⟨earlier_exact.mpr (by rw [isFirst, jd_moved, revisit]; norm_num), fun tie => absurd (earlier_exact.mp tie) ?_⟩
    rw [isFirst, jd_moved, revisit]
    norm_num
  have tied {p q : Detection ℝ} (isFirst : p.jd.val = 0) (isFirst' : q.jd.val = 0)
      (follows : [p, q].Sublist (mover :: others.map (·.1))) : Before Earlier (mover :: moved :: others.map (·.1)) p q :=
    ⟨earlier_exact.mpr (by rw [isFirst, isFirst']), fun _ => follows.trans ((List.sublist_cons_self _ _).cons_cons _)⟩
  refine (pair.grown_of_gathers distinct ⟨fun d there => ?_, fun d isEither => ?_,
    ⟨fun p isP q isQ clash => ?_, fun d there missing => ?_⟩, ?_⟩).symm
  · rw [listed]
    exact (whole d).mpr there
  · rcases List.mem_pair.mp isEither with rfl | rfl <;> simp
  · exact clash (together_of_exposures (exposures p isP) (exposures q isQ))
  · rw [listed] at there
    exact absurd ((whole d).mp there) missing
  · rw [listed]
    refine List.pairwise_append.mpr ⟨List.pairwise_iff_forall_sublist.mpr fun {p q} follows => ?_,
      List.pairwise_singleton _ _, fun d there last isLast => ?_⟩
    · have isFirst : ∀ d ∈ mover :: others.map (·.1), d.jd.val = 0 := fun d there =>
        (List.mem_cons.mp there).elim (fun same => same ▸ jd_mover) (first d)
      exact tied (isFirst p (follows.subset (by simp))) (isFirst q (follows.subset (by simp))) follows
    · obtain rfl := List.mem_singleton.mp isLast
      exact late ((List.mem_cons.mp there).elim (fun same => same ▸ jd_mover) (first d))

/-! ## Two fits -/

theorem refused_crossed : fitTracklet standard [mover, beside 4 (-aside), beside 3 aside, moved] = none := by
  obtain ⟨X, isX⟩ : ∃ X, planeDeg shift = X := ⟨_, rfl⟩
  obtain ⟨T, isT⟩ : ∃ T, planeDeg aside = T := ⟨_, rfl⟩
  have bounds := @planeDeg_bounds aside (by norm_num [aside]) (by norm_num [aside])
  rw [isT, aside] at bounds
  have south := @plane_beside 4 (-aside) (by rw [abs_neg]; norm_num [abs_of_pos, aside])
  have north := @plane_beside 3 aside (by norm_num [abs_of_pos, aside])
  rw [planeDeg_neg, isT] at south
  rw [isT] at north
  have fitted : Fitted standard [mover, beside 4 (-aside), beside 3 aside, moved] mover (meanEpoch 2) (scatterArcsec 2 (T * T * 2))
      (X / 4, 20 * X) (0, 0) := by
    refine @fitted_exposures [beside 4 (-aside), beside 3 aside] (by simp [jd_beside]) [(0, 0), (0, -T), (0, T), (X, 0)] _ _ _ ?_ ?_ ?_ ?_
    · simp [plane_mover, plane_moved, south, north, isX]
    · refine fitLine_exact 0 (X / 4) (3 * X / 80) (3 / 1600) ?_ ?_ ?_ ?_ ?_ ?_ ?_ <;>
        norm_num [times, List.replicate, meanEpoch, revisit] <;> ring
    · refine fitLine_exact 0 0 0 (3 / 1600) ?_ ?_ ?_ ?_ ?_ ?_ ?_ <;> simp [times, List.replicate, meanEpoch, revisit] <;> norm_num
    · simp [residuals, times, List.replicate, meanEpoch, revisit]
      ring
  refine fitted.refused ?_
  have bound : (1.5 : ℝ) = 3 / 2 := by norm_num
  have half : 3 / 2 / 3600 < √(T * T * 2 / ((2 : Nat) + 2)) := lt_sqrt_of_sq_lt (by norm_num; nlinarith)
  simp only [less_exact, scatterArcsec, standard, TrackletConfig.default, decide_eq_true_eq, bound]
  linarith

theorem accepted_followed : (fitTracklet standard [mover, beside 3 close, moved]).isSome = true := by
  obtain ⟨X, isX⟩ : ∃ X, planeDeg shift = X := ⟨_, rfl⟩
  obtain ⟨T, isT⟩ : ∃ T, planeDeg close = T := ⟨_, rfl⟩
  have bounds := @planeDeg_bounds shift (by norm_num [shift]) (by norm_num [shift])
  have bounds' := @planeDeg_bounds close (by norm_num [close]) (by norm_num [close])
  rw [isX, shift] at bounds
  rw [isT, close] at bounds'
  have north := @plane_beside 3 close (by norm_num [abs_of_pos, close])
  rw [isT] at north
  have fitted : Fitted standard [mover, beside 3 close, moved] mover (meanEpoch 1) (scatterArcsec 1 (T * T / 2)) (X / 3, 20 * X)
      (T / 3, -10 * T) := by
    refine @fitted_exposures [beside 3 close] (by simp [jd_beside]) [(0, 0), (0, T), (X, 0)] _ _ _ ?_ ?_ ?_ ?_
    · simp [plane_mover, plane_moved, north, isX]
    · refine fitLine_exact 0 (X / 3) (X / 30) (1 / 600) ?_ ?_ ?_ ?_ ?_ ?_ ?_ <;> simp [times, List.replicate, meanEpoch, revisit] <;> ring
    · refine fitLine_exact 0 (T / 3) (-T / 60) (1 / 600) ?_ ?_ ?_ ?_ ?_ ?_ ?_ <;> simp [times, List.replicate, meanEpoch, revisit] <;> ring
    · simp [residuals, times, List.replicate, meanEpoch, revisit]
      ring
  have tight : √(T * T / 2 / ((1 : Nat) + 2)) ≤ 1 / 2400 := sqrt_le_iff.mpr ⟨by norm_num, by norm_num; nlinarith⟩
  have fast := (abs_le_hypot (20 * X) (-10 * T)).1
  rw [abs_of_pos (by linarith)] at fast
  have slow : Utils.hypot (20 * X) (-10 * T) ≤ 1 := sqrt_le_one.mpr (by nlinarith)
  have bound : (1.5 : ℝ) = 3 / 2 := by norm_num
  have slowest : (0.02 : ℝ) = 1 / 50 := by norm_num
  have fastest : (1.0 : ℝ) = 1 := by norm_num
  obtain ⟨seed, fits, -⟩ := fitted.accepted
    (by simp only [less_exact, scatterArcsec, standard, TrackletConfig.default, bound, decide_eq_false_iff_not, not_lt]; linarith)
    (by simp only [less_exact, hypot_exact, standard, TrackletConfig.default, slowest, decide_eq_false_iff_not, not_lt]; linarith)
    (by simp only [less_exact, hypot_exact, standard, TrackletConfig.default, fastest, decide_eq_false_iff_not, not_lt]; linarith)
  rw [fits, Option.isSome_some]

/-! ## The pair is lost, and found -/

theorem southward_exact {a b : Entry ℝ} : Southward a b ↔ a.1.dec.val ≤ b.1.dec.val := by
  rw [Southward, less_exact, decide_eq_false_iff_not, not_lt]

theorem byDec_crossed : byDec crossed = [(beside 4 (-aside), 0), (mover, 1), (moved, 2), (beside 3 aside, 3)] := by
  refine List.Pairwise.insertionSort_eq ?_
  simp only [crossed, List.zipIdx_cons, List.zipIdx_nil, List.pairwise_cons, List.mem_cons, List.not_mem_nil, southward_exact]
  simp only [mover, moved, beside, seen]
  norm_num [aside]

theorem byDec_followed : byDec followed = [(mover, 0), (moved, 1), (beside 3 close, 2)] := by
  refine List.Pairwise.insertionSort_eq ?_
  simp only [followed, List.zipIdx_cons, List.zipIdx_nil, List.pairwise_cons, List.mem_cons, List.not_mem_nil, southward_exact]
  simp only [mover, moved, beside, seen]
  norm_num [close]

theorem distinct_crossed : (crossed.map (·.id)).Nodup := by
  simp [crossed, mover, moved, beside, seen]

theorem distinct_followed : (followed.map (·.id)).Nodup := by
  simp [followed, mover, moved, beside, seen]

/-- The only pair that passes the tests is the mover's. -/
theorem SeedPair.isMover (pair : SeedPair standard detections a b seed) (distinct : (detections.map (·.id)).Nodup)
    (isOne : ∀ entry ∈ byDec detections, entry.1 = mover ∨ entry.1 = moved ∨ ∃ id dec, entry.1 = beside id dec)
    (swept : [(mover, i), (moved, j)].Sublist (byDec detections)) : a = (mover, i) ∧ b = (moved, j) := by
  have isFirst : (mover, i) ∈ byDec detections := swept.subset (by simp)
  have isSecond : (moved, j) ∈ byDec detections := swept.subset (by simp)
  obtain ⟨isA, isB⟩ | ⟨isA, isB⟩ := eq_of_couldBeOne (isOne a pair.mem_left) (isOne b pair.mem_right) pair.couldBeOne
  · exact ⟨eq_of_id_eq distinct pair.mem_left isFirst (by rw [isA]), eq_of_id_eq distinct pair.mem_right isSecond (by rw [isB])⟩
  · -- The mover comes first.
    have turned := pair.swept
    rw [eq_of_id_eq distinct pair.mem_left isSecond (by rw [isA]), eq_of_id_eq distinct pair.mem_right isFirst (by rw [isB])] at turned
    have before : Before (fun _ _ => True) (byDec detections) (mover, i) (moved, j) := ⟨trivial, fun _ => swept⟩
    exact (before.asymm ((nodup_byDec distinct).of_map _) ⟨trivial, fun _ => turned⟩).elim

/-- The pair's tracklet is lost to what joins it. -/
theorem lost_to_what_joins : (crossed.map (·.id)).Nodup ∧ standard.minDetections ≤ 2 ∧
    ¬ ∀ a b seed, SeedPair standard crossed a b seed →
      ∃ tracklet ∈ findTracklets standard crossed, a.1.id ∈ tracklet.ids ∧ b.1.id ∈ tracklet.ids := by
  refine ⟨distinct_crossed, le_rfl, fun found => ?_⟩
  obtain ⟨seed, fits, epoch, back⟩ := fits_moved
  have swept : [(mover, 1), (moved, 2)].Sublist (byDec crossed) := by
    rw [byDec_crossed]
    exact .cons _ (.cons_cons _ (.cons_cons _ (List.nil_sublist _)))
  obtain ⟨tracklet, isFound, -, -⟩ := found (mover, 1) (moved, 2) seed ⟨swept, moved_inBand, couldBeOne_moved, fits⟩
  -- A tracklet would be what this pair grew to, for there is no other.
  obtain ⟨a, b, line, other, grew⟩ := exists_pair_of_found isFound
  have isOne : ∀ entry ∈ byDec crossed, entry.1 = mover ∨ entry.1 = moved ∨ ∃ id dec, entry.1 = beside id dec := by
    simp [byDec_crossed]
  obtain ⟨rfl, rfl⟩ := other.isMover distinct_crossed isOne swept
  obtain rfl := Option.some.inj (fits.symm.trans other.fits)
  have isBeside : (byDec crossed).filter (besideLine standard seed (mover, 1) (moved, 2)) =
      [(beside 4 (-aside), 0), (beside 3 aside, 3)] := by
    have joins {dec : ℝ} (side : |dec| ≤ reach) {place : Nat} (apart : place ≠ 1 ∧ place ≠ 2) (id : Int) :=
      @besideLine_beside seed id dec epoch back side 1 2 place apart
    have near : |aside| ≤ reach := by norm_num [aside, reach, abs_of_pos]
    have south := joins (abs_neg aside ▸ near) (by decide : 0 ≠ 1 ∧ 0 ≠ 2) 4
    have north := joins near (by decide : 3 ≠ 1 ∧ 3 ≠ 2) 3
    simp only [byDec_crossed, List.filter_cons, south, north, besideLine_self, List.filter_nil, if_true, Bool.false_eq_true, if_false]
  rw [other.grown_of_beside distinct_crossed isBeside (by simp [jd_beside])] at grew
  exact absurd (refused_crossed.symm.trans grew) nofun

/-- A pair whose detections are fitted together with one beside their line is found. -/
theorem pairs_found_iff_followed : ∃ tracklet ∈ findTracklets standard followed,
    mover.id ∈ tracklet.ids ∧ moved.id ∈ tracklet.ids := by
  obtain ⟨seed, fits, epoch, back⟩ := fits_moved
  have swept : [(mover, 0), (moved, 1)].Sublist (byDec followed) := by
    rw [byDec_followed]
    exact .cons_cons _ (.cons_cons _ (List.nil_sublist _))
  have pair : SeedPair standard followed (mover, 0) (moved, 1) seed := ⟨swept, moved_inBand, couldBeOne_moved, fits⟩
  have isOne : ∀ entry ∈ byDec followed, entry.1 = mover ∨ entry.1 = moved ∨ ∃ id dec, entry.1 = beside id dec := by
    simp [byDec_followed]
  have isBeside : (byDec followed).filter (besideLine standard seed (mover, 0) (moved, 1)) = [(beside 3 close, 2)] := by
    have joins := @besideLine_beside seed 3 close epoch back (by norm_num [close, reach, abs_of_pos]) 0 1 2 (by decide)
    simp only [byDec_followed, List.filter_cons, joins, besideLine_self, List.filter_nil, if_true, Bool.false_eq_true, if_false]
  have grew := pair.grown_of_beside distinct_followed isBeside (by simp [jd_beside])
  have gathers := pair.gathers_grown distinct_followed (narrow_of_together (together_of_exposures (.inl jd_mover) (.inr jd_moved)))
  refine (pairs_found_iff standard followed distinct_followed le_rfl).mpr (fun a b line other => ?_) _ _ _ pair
  obtain ⟨rfl, rfl⟩ := other.isMover distinct_followed isOne swept
  refine ⟨(mover, 0), (moved, 1), seed, _, pair, gathers, gathers.pair mover (by simp), gathers.pair moved (by simp), ?_⟩
  rw [grew]
  exact accepted_followed

end Cases

end Boom.Utils.Linking
