import Boom.Utils.MergeCandidates

/-! # Linking tracklets into tracks

The sweep over the hypotheses clusters the same tracklets many times over. Each set of them is
fitted once, a set inside another only if the larger one is not a track; pieces of one object
are joined; and of the tracks whose tracklets are already reported none is reported again.

The orbit fits are given, with the tracklets their tracks are made of. -/

namespace Boom.Utils

open Boom.Foundations

structure Track (Orbit : Type) where
  members : List Nat
  members_ne_nil : members ≠ []
  orbit : Orbit
  nights : Nat
  /-- No residual is worse than every one. -/
  residualArcsec : WithTop ℝ

def sortedMembers {Orbit : Type} (track : Track Orbit) : List Nat :=
  ascending track.members

def setKey {Orbit : Type} (candidate : Track Orbit) : List Nat :=
  candidate.members.insertionSort (· ≤ ·)

/-- What the orbit fits and the tracklets say. -/
structure Fits (Orbit : Type) where
  night : Nat → Int
  skyMotion : Track Orbit → Option SkyMotion
  predicts : Track Orbit → List Nat → Bool
  bestPassing : List (Track Orbit) → Option (Track Orbit)
  tryMerge : Track Orbit → Track Orbit → Option (Track Orbit)
  /-- The best copy of a set has the members of the set. -/
  members_bestPassing : ∀ copies track, bestPassing copies = some track →
    ∀ members, (∀ copy ∈ copies, sortedMembers copy = members) → sortedMembers track = members
  members_tryMerge : ∀ first second track, tryMerge first second = some track →
    track.members = ascending (first.members ++ second.members)

namespace SetIndex

def containing (index : SetIndex) (key : List Nat) (skip : Option Nat) : List Nat :=
  let present := key.filterMap fun m => if (index.byMember m).isEmpty then none else some (index.byMember m)
  let complete := key.all fun m => !(index.byMember m).isEmpty
  -- The member shared by the fewest sets bounds the search.
  match present.argmin List.length with
  | some rarest => if complete then rarest.filter fun i => some i ≠ skip && isSubset key (index.sets.getD i []) else []
  | none => []

def covers (index : SetIndex) (key : List Nat) : Bool :=
  !(index.containing key none).isEmpty

theorem mem_of_covers {index : SetIndex} {key : List Nat} (covered : index.covers key = true) :
    ∃ set ∈ index.sets, ∀ m ∈ key, m ∈ set := by
  obtain ⟨i, found⟩ := List.exists_mem_of_ne_nil (index.containing key none) (by simpa [covers] using covered)
  simp only [containing] at found
  split at found
  next rarest isRarest =>
    split at found
    · obtain ⟨inRarest, contains⟩ := List.mem_filter.mp found
      obtain ⟨-, within⟩ := Bool.and_eq_true_iff.mp contains
      obtain ⟨m, -, isIndexed⟩ := List.mem_filterMap.mp (List.argmin_mem isRarest)
      have indexed : rarest = index.byMember m := by
        split at isIndexed
        · cases isIndexed
        · exact (Option.some.inj isIndexed).symm
      rw [indexed, mem_byMember] at inRarest
      obtain ⟨set, isSet, -⟩ := inRarest
      rw [List.getD_eq_getElem?_getD, isSet, Option.getD_some, isSubset, List.isSublist_iff_sublist] at within
      exact ⟨set, List.mem_of_getElem? isSet, fun member listed => within.subset listed⟩
    · cases found
  · cases found

end SetIndex

def containedSets (keys : List (List Nat)) : List Bool :=
  let index : SetIndex := ⟨keys⟩
  keys.zipIdx.map fun entry => (index.containing entry.1 (some entry.2)).any fun j => entry.1.length < (keys.getD j []).length

section Linking

variable {Orbit : Type} (fits : Fits Orbit)

def nightsOf (members : List Nat) : List Int :=
  ascending (members.map fits.night)

def candidateSets (candidates : List (Track Orbit)) : List (List (Track Orbit)) :=
  (ascending (candidates.map setKey)).map fun key => candidates.filter fun candidate => setKey candidate = key

/-! ## Joining fragments -/

structure Join (Orbit : Type) where
  first : Nat
  second : Nat
  track : Track Orbit

def piecesOf (tracks : List (Track Orbit)) : Pieces (Track Orbit) where
  tracks := tracks
  members := tracks.map sortedMembers
  nights := (tracks.map sortedMembers).map (nightsOf fits)
  length_members := List.length_map _
  length_nights := by rw [List.length_map, List.length_map]
  nights_ascending days isNights := by
    obtain ⟨_, -, rfl⟩ := List.mem_map.mp isNights
    exact strictlyAscending_ascending _

def pairKey (first second : List Nat) : List Nat × List Nat :=
  if first ≤ second then (first, second) else (second, first)

def attempt (first second : Track Orbit) : Option (Track Orbit) :=
  if isSubset (sortedMembers first) (sortedMembers second) then some second
  else if isSubset (sortedMembers second) (sortedMembers first) then some first
  else fits.tryMerge first second

noncomputable def untried (tracks : List (Track Orbit)) (failed : List (List Nat × List Nat)) : List (ℕ ×ₗ ℕ) :=
  (mergeCandidates fits.skyMotion fits.predicts (piecesOf fits tracks)).filter fun pair =>
    match tracks[(ofLex pair).1]?, tracks[(ofLex pair).2]? with
    | some first, some second => !failed.contains (pairKey (sortedMembers first) (sortedMembers second))
    | _, _ => false

noncomputable def joinedOf (tracks : List (Track Orbit)) (failed : List (List Nat × List Nat)) : List (Join Orbit) :=
  (untried fits tracks failed).filterMap fun pair =>
    match tracks[(ofLex pair).1]?, tracks[(ofLex pair).2]? with
    | some first, some second => (attempt fits first second).map (Join.mk (ofLex pair).1 (ofLex pair).2)
    | _, _ => none

noncomputable def failedOf (tracks : List (Track Orbit)) (failed : List (List Nat × List Nat)) : List (List Nat × List Nat) :=
  (untried fits tracks failed).filterMap fun pair =>
    match tracks[(ofLex pair).1]?, tracks[(ofLex pair).2]? with
    | some first, some second =>
      if (attempt fits first second).isNone then some (pairKey (sortedMembers first) (sortedMembers second)) else none
    | _, _ => none

def takeJoins : List (Join Orbit) → List Nat → List (Join Orbit)
  | [], _ => []
  | join :: rest, used =>
    if used.contains join.first || used.contains join.second then takeJoins rest used
    else join :: takeJoins rest (join.first :: join.second :: used)

def usedBy (merged : List (Join Orbit)) : List Nat :=
  merged.flatMap fun join => [join.first, join.second]

def afterJoins (tracks : List (Track Orbit)) (merged : List (Join Orbit)) : List (Track Orbit) :=
  ((tracks.zipIdx.filter fun entry => !(usedBy merged).contains entry.2).map Prod.fst) ++ merged.map (·.track)

noncomputable def bestFirst (joined : List (Join Orbit)) : List (Join Orbit) :=
  joined.insertionSort fun one other =>
    toLex (one.track.residualArcsec, toLex (one.first, one.second)) ≤
      toLex (other.track.residualArcsec, toLex (other.first, other.second))

noncomputable def mergeFragments : Nat → List (Track Orbit) → List (List Nat × List Nat) → Option (List (Track Orbit))
  | 0, _, _ => none
  | fuel + 1, tracks, failed =>
    let joined := joinedOf fits tracks failed
    if joined.isEmpty then some tracks
    else mergeFragments fuel (afterJoins tracks (takeJoins (bestFirst joined) [])) (failed ++ failedOf fits tracks failed)

/-! ## Linking -/

def deduplicate (claimed : List Nat) : List (Track Orbit) → List (Track Orbit)
  | [] => []
  | track :: rest =>
    if track.members.all claimed.contains then deduplicate claimed rest
    else track :: deduplicate (claimed ++ track.members) rest

def keyOf (copies : List (Track Orbit)) : List Nat :=
  match copies with
  | [] => []
  | first :: _ => sortedMembers first

def outerTracks (sets : List (List (Track Orbit))) : List (Track Orbit) :=
  (sets.zip (containedSets (sets.map keyOf))).filterMap fun entry => if entry.2 then none else fits.bestPassing entry.1

def covering (sets : List (List (Track Orbit))) : SetIndex :=
  ⟨(outerTracks fits sets).map sortedMembers⟩

def innerTracks (sets : List (List (Track Orbit))) : List (Track Orbit) :=
  (sets.zip (containedSets (sets.map keyOf))).filterMap fun entry =>
    if !entry.2 then none
    else if (covering fits sets).covers (keyOf entry.1) then none
    else fits.bestPassing entry.1

noncomputable def reportOrder (tracks : List (Track Orbit)) : List (Track Orbit) :=
  tracks.insertionSort fun one other =>
    toLex (one.residualArcsec, toLex (OrderDual.toDual one.members.length, OrderDual.toDual one.nights)) ≤
      toLex (other.residualArcsec, toLex (OrderDual.toDual other.members.length, OrderDual.toDual other.nights))

noncomputable def linkTracklets (fuel : Nat) (candidates : List (Track Orbit)) : Option (List (Track Orbit)) :=
  let sets := candidateSets candidates
  (mergeFragments fits fuel (outerTracks fits sets ++ innerTracks fits sets) []).map fun tracks =>
    deduplicate [] (reportOrder tracks)

/-! ## What a round keeps -/

def TracksCovered (tracks tracks' : List (Track Orbit)) : Prop :=
  ∀ track ∈ tracks, ∃ track' ∈ tracks', track.members ⊆ track'.members

def KeptApart (one other : Track Orbit) : Prop :=
  ¬ one.members ⊆ other.members ∧ ¬ other.members ⊆ one.members

def FailedApart (failed : List (List Nat × List Nat)) : Prop :=
  ∀ pair ∈ failed, ¬ pair.1 ⊆ pair.2 ∧ ¬ pair.2 ⊆ pair.1

variable {fits} {tracks : List (Track Orbit)} {failed : List (List Nat × List Nat)}

@[simp] theorem mem_sortedMembers {track : Track Orbit} {m : Nat} : m ∈ sortedMembers track ↔ m ∈ track.members :=
  mem_ascending

theorem TracksCovered.refl (tracks : List (Track Orbit)) : TracksCovered tracks tracks :=
  fun track listed => ⟨track, listed, List.Subset.refl _⟩

theorem TracksCovered.trans {tracks tracks' tracks'' : List (Track Orbit)} (first : TracksCovered tracks tracks') (second : TracksCovered tracks' tracks'') :
    TracksCovered tracks tracks'' := by
  intro track listed
  obtain ⟨track', listed', within⟩ := first track listed
  obtain ⟨track'', listed'', within'⟩ := second track' listed'
  exact ⟨track'', listed'', List.Subset.trans within within'⟩

theorem isSubset_sortedMembers {one other : Track Orbit} :
    isSubset (sortedMembers one) (sortedMembers other) = true ↔ one.members ⊆ other.members := by
  rw [isSubset, List.isSublist_iff_sublist, sortedMembers, sortedMembers,
    (strictlyAscending_ascending _).sublist_iff_subset (strictlyAscending_ascending _)]
  simp only [List.subset_def, mem_ascending]

theorem subset_of_attempt {first second track : Track Orbit} (made : attempt fits first second = some track) :
    first.members ⊆ track.members ∧ second.members ⊆ track.members := by
  unfold attempt at made
  split at made
  next within =>
    cases made
    exact ⟨isSubset_sortedMembers.mp within, List.Subset.refl _⟩
  next =>
    split at made
    next within =>
      cases made
      exact ⟨List.Subset.refl _, isSubset_sortedMembers.mp within⟩
    next =>
      rw [fits.members_tryMerge first second track made]
      exact ⟨fun m listed => mem_ascending.mpr (List.mem_append_left _ listed),
        fun m listed => mem_ascending.mpr (List.mem_append_right _ listed)⟩

theorem apart_of_attempt_none {first second : Track Orbit} (failed : attempt fits first second = none) : KeptApart first second := by
  unfold attempt at failed
  split at failed
  · cases failed
  next notWithin =>
    split at failed
    · cases failed
    next notWithin' => exact ⟨fun within => notWithin (isSubset_sortedMembers.mpr within),
        fun within => notWithin' (isSubset_sortedMembers.mpr within)⟩

theorem mem_joinedOf {join : Join Orbit} (joined : join ∈ joinedOf fits tracks failed) :
    join.first < join.second ∧ ∃ first second, tracks[join.first]? = some first ∧ tracks[join.second]? = some second ∧
      attempt fits first second = some join.track := by
  obtain ⟨pair, isPair, made⟩ := List.mem_filterMap.mp joined
  have inOrder := ((mem_mergeCandidates _ _ _).mp (List.mem_filter.mp isPair).1).1
  split at made
  next first second isFirst isSecond =>
    obtain ⟨track, attempted, rfl⟩ := Option.map_eq_some_iff.mp made
    exact ⟨inOrder, first, second, isFirst, isSecond, attempted⟩
  · cases made

theorem failedApart_failedOf : FailedApart (failedOf fits tracks failed) := by
  intro pair isFailed
  obtain ⟨_, -, made⟩ := List.mem_filterMap.mp isFailed
  split at made
  next first second _ _ =>
    split at made
    next isNone =>
      obtain ⟨notWithin, notWithin'⟩ := apart_of_attempt_none (Option.isNone_iff_eq_none.mp isNone)
      have apart : ¬ sortedMembers first ⊆ sortedMembers second ∧ ¬ sortedMembers second ⊆ sortedMembers first := by
        simp only [List.subset_def, mem_sortedMembers] at notWithin notWithin' ⊢
        exact ⟨notWithin, notWithin'⟩
      rw [← Option.some.inj made, pairKey]
      split
      · exact apart
      · exact apart.symm
    · cases made
  · cases made

theorem pairwise_apart (apart : FailedApart failed) (nothing : joinedOf fits tracks failed = []) : tracks.Pairwise KeptApart := by
  refine List.pairwise_iff_getElem.mpr fun i j inside inside' before => ?_
  have isFirst := List.getElem?_eq_getElem inside
  have isSecond := List.getElem?_eq_getElem inside'
  by_contra notApart
  -- One inside the other shares a tracklet with it, so the pair was tried, and cannot have failed.
  have shared : ∃ m ∈ tracks[i].members, m ∈ tracks[j].members := by
    rcases not_and_or.mp notApart with within | within
    · obtain ⟨m, listed⟩ := List.exists_mem_of_ne_nil _ tracks[i].members_ne_nil
      exact ⟨m, listed, not_not.mp within listed⟩
    · obtain ⟨m, listed⟩ := List.exists_mem_of_ne_nil _ tracks[j].members_ne_nil
      exact ⟨m, not_not.mp within listed, listed⟩
  have candidate : toLex (i, j) ∈ mergeCandidates fits.skyMotion fits.predicts (piecesOf fits tracks) := by
    obtain ⟨m, listed, listed'⟩ := shared
    refine (mem_mergeCandidates _ _ _).mpr ⟨before, .inl ?_⟩
    simp only [piecesOf, List.getElem?_map, isFirst, isSecond, Option.map_some, Option.mem_def, Option.some.injEq,
      exists_eq_left', mem_sortedMembers]
    exact ⟨m, listed, listed'⟩
  have fresh : pairKey (sortedMembers tracks[i]) (sortedMembers tracks[j]) ∉ failed := by
    intro isFailed
    have notWithin := apart _ isFailed
    simp only [KeptApart, List.subset_def] at notApart
    unfold pairKey at notWithin
    split at notWithin <;> simp only [List.subset_def, mem_sortedMembers] at notWithin
    · exact notApart notWithin
    · exact notApart notWithin.symm
  obtain ⟨track, made⟩ : ∃ track, attempt fits tracks[i] tracks[j] = some track := by
    rw [← Option.isSome_iff_exists, Option.isSome_iff_ne_none]
    exact fun failed => notApart (apart_of_attempt_none failed)
  have joined : Join.mk i j track ∈ joinedOf fits tracks failed := by
    refine List.mem_filterMap.mpr ⟨toLex (i, j), List.mem_filter.mpr ⟨candidate, ?_⟩, ?_⟩
    · simp only [ofLex_toLex, isFirst, isSecond, Bool.not_eq_true', List.contains_eq_mem, decide_eq_false_iff_not]
      exact fresh
    · simp only [ofLex_toLex, isFirst, isSecond, made, Option.map_some]
  rw [nothing] at joined
  cases joined

theorem takeJoins_sublist (joined : List (Join Orbit)) (used : List Nat) : (takeJoins joined used).Sublist joined := by
  induction joined generalizing used with
  | nil => exact .slnil
  | cons join rest ih =>
    rw [takeJoins]
    split
    · exact (ih used).cons _
    · exact (ih _).cons_cons _

theorem takeJoins_ne_nil {joined : List (Join Orbit)} (some_ : joined ≠ []) : takeJoins joined [] ≠ [] := by
  cases joined with
  | nil => exact absurd rfl some_
  | cons join rest => simp [takeJoins]

theorem nodup_usedBy {joined : List (Join Orbit)} (different : ∀ join ∈ joined, join.first ≠ join.second) (used : List Nat) :
    (usedBy (takeJoins joined used)).Nodup ∧ ∀ k ∈ usedBy (takeJoins joined used), k ∉ used := by
  induction joined generalizing used with
  | nil => exact ⟨List.nodup_nil, fun k listed => by cases listed⟩
  | cons join rest ih =>
    have differentRest : ∀ join ∈ rest, join.first ≠ join.second := fun other listed => different other (List.mem_cons_of_mem _ listed)
    rw [takeJoins]
    split
    · exact ih differentRest used
    next free =>
      simp only [Bool.or_eq_true, List.contains_eq_mem, decide_eq_true_eq, not_or] at free
      obtain ⟨nodup, unused⟩ := ih differentRest (join.first :: join.second :: used)
      have unusedFirst : join.first ∉ usedBy (takeJoins rest (join.first :: join.second :: used)) :=
        fun listed => unused _ listed List.mem_cons_self
      have unusedSecond : join.second ∉ usedBy (takeJoins rest (join.first :: join.second :: used)) :=
        fun listed => unused _ listed (List.mem_cons_of_mem _ List.mem_cons_self)
      change (join.first :: join.second :: usedBy (takeJoins rest (join.first :: join.second :: used))).Nodup ∧
        ∀ k ∈ join.first :: join.second :: usedBy (takeJoins rest (join.first :: join.second :: used)), k ∉ used
      refine ⟨List.nodup_cons.mpr ⟨?_, List.nodup_cons.mpr ⟨unusedSecond, nodup⟩⟩, fun k listed => ?_⟩
      · rw [List.mem_cons, not_or]
        exact ⟨different join List.mem_cons_self, unusedFirst⟩
      · rcases List.mem_cons.mp listed with rfl | listed
        · exact free.1
        · rcases List.mem_cons.mp listed with rfl | listed
          · exact free.2
          · exact fun isUsed => unused k listed (List.mem_cons_of_mem _ (List.mem_cons_of_mem _ isUsed))

theorem length_usedBy (merged : List (Join Orbit)) : (usedBy merged).length = 2 * merged.length := by
  simp [usedBy, Nat.mul_comm]

theorem covers_afterJoins {merged : List (Join Orbit)} (made : ∀ join ∈ merged, ∃ first second,
      tracks[join.first]? = some first ∧ tracks[join.second]? = some second ∧ attempt fits first second = some join.track) :
    TracksCovered tracks (afterJoins tracks merged) := by
  intro track listed
  obtain ⟨k, isTrack⟩ := List.mem_iff_getElem?.mp listed
  by_cases isUsed : k ∈ usedBy merged
  · obtain ⟨join, isJoin, isPiece⟩ := List.mem_flatMap.mp isUsed
    obtain ⟨first, second, isFirst, isSecond, attempted⟩ := made join isJoin
    obtain ⟨within, within'⟩ := subset_of_attempt attempted
    refine ⟨join.track, List.mem_append_right _ (List.mem_map_of_mem isJoin), ?_⟩
    rcases List.mem_cons.mp isPiece with rfl | isPiece
    · cases isFirst.symm.trans isTrack
      exact within
    · cases List.mem_singleton.mp isPiece
      cases isSecond.symm.trans isTrack
      exact within'
  · refine ⟨track, List.mem_append_left _ (List.mem_map.mpr ⟨(track, k), List.mem_filter.mpr ⟨?_, ?_⟩, rfl⟩), List.Subset.refl _⟩
    · exact List.mem_zipIdx_iff_getElem?.mpr isTrack
    · simpa using isUsed

theorem length_afterJoins {merged : List (Join Orbit)} (nodup : (usedBy merged).Nodup) (inside : ∀ k ∈ usedBy merged, k < tracks.length) :
    (afterJoins tracks merged).length + merged.length ≤ tracks.length := by
  have used : (usedBy merged).length ≤ (tracks.zipIdx.filter fun entry => (usedBy merged).contains entry.2).length := by
    rw [← List.length_map Prod.snd]
    refine (List.subperm_of_subset nodup fun k listed => ?_).length_le
    obtain ⟨track, isTrack⟩ : ∃ track, tracks[k]? = some track := ⟨_, List.getElem?_eq_getElem (inside k listed)⟩
    exact List.mem_map.mpr ⟨(track, k), List.mem_filter.mpr ⟨List.mem_zipIdx_iff_getElem?.mpr isTrack, by simpa using listed⟩, rfl⟩
  have split := List.length_eq_length_filter_add (l := tracks.zipIdx) fun entry => (usedBy merged).contains entry.2
  rw [List.length_zipIdx] at split
  rw [length_usedBy] at used
  rw [afterJoins, List.length_append, List.length_map, List.length_map]
  omega

theorem round_spec (something : joinedOf fits tracks failed ≠ []) :
    (afterJoins tracks (takeJoins (bestFirst (joinedOf fits tracks failed)) [])).length < tracks.length ∧
      TracksCovered tracks (afterJoins tracks (takeJoins (bestFirst (joinedOf fits tracks failed)) [])) := by
  have perm : (bestFirst (joinedOf fits tracks failed)).Perm (joinedOf fits tracks failed) := List.perm_insertionSort _ _
  have isJoined : ∀ join ∈ takeJoins (bestFirst (joinedOf fits tracks failed)) [], join ∈ joinedOf fits tracks failed :=
    fun join listed => perm.mem_iff.mp ((takeJoins_sublist _ _).subset listed)
  have made := fun join listed => (mem_joinedOf (isJoined join listed)).2
  obtain ⟨nodup, -⟩ := nodup_usedBy (fun join listed => ((mem_joinedOf (perm.mem_iff.mp listed)).1).ne) []
  refine ⟨?_, covers_afterJoins made⟩
  have inside : ∀ k ∈ usedBy (takeJoins (bestFirst (joinedOf fits tracks failed)) []), k < tracks.length := by
    intro k listed
    obtain ⟨join, isJoin, isPiece⟩ := List.mem_flatMap.mp listed
    obtain ⟨_, _, isFirst, isSecond, -⟩ := made join isJoin
    rcases List.mem_cons.mp isPiece with rfl | isPiece
    · exact (List.getElem?_eq_some_iff.mp isFirst).1
    · cases List.mem_singleton.mp isPiece
      exact (List.getElem?_eq_some_iff.mp isSecond).1
  have fewer := length_afterJoins nodup inside
  have some_ : bestFirst (joinedOf fits tracks failed) ≠ [] := fun empty => something (List.nil_perm.mp (empty ▸ perm))
  have positive := List.length_pos_iff.mpr (takeJoins_ne_nil some_)
  omega

theorem mergeFragments_spec (tracks : List (Track Orbit)) (failed : List (List Nat × List Nat)) (apart : FailedApart failed) :
    ∃ result, (∀ fuel, tracks.length < fuel → mergeFragments fits fuel tracks failed = some result) ∧
      result.Pairwise KeptApart ∧ TracksCovered tracks result := by
  induction length : tracks.length using Nat.strong_induction_on generalizing tracks failed with
  | h bound ih =>
    by_cases nothing : joinedOf fits tracks failed = []
    · refine ⟨tracks, fun fuel enough => ?_, pairwise_apart apart nothing, TracksCovered.refl tracks⟩
      obtain ⟨fuel, rfl⟩ := Nat.exists_eq_add_one_of_ne_zero (by omega : fuel ≠ 0)
      rw [mergeFragments, nothing]
      rfl
    · obtain ⟨fewer, covered⟩ := round_spec nothing
      have apart' : FailedApart (failed ++ failedOf fits tracks failed) := fun pair listed =>
        (List.mem_append.mp listed).elim (apart pair) (failedApart_failedOf pair)
      obtain ⟨result, ends, apartResult, covered'⟩ := ih _ (length ▸ fewer) _ _ apart' rfl
      refine ⟨result, fun fuel enough => ?_, apartResult, covered.trans covered'⟩
      obtain ⟨fuel, rfl⟩ := Nat.exists_eq_add_one_of_ne_zero (by omega : fuel ≠ 0)
      rw [mergeFragments, if_neg (by simpa using nothing)]
      exact ends fuel (by omega)

/-! ## What is reported -/

theorem deduplicate_sublist (claimed : List Nat) (tracks : List (Track Orbit)) : (deduplicate claimed tracks).Sublist tracks := by
  induction tracks generalizing claimed with
  | nil => exact .slnil
  | cons track rest ih =>
    rw [deduplicate]
    split
    · exact (ih claimed).cons _
    · exact (ih _).cons_cons _

theorem claimed_or_reported (claimed : List Nat) {tracks : List (Track Orbit)} {track : Track Orbit} (listed : track ∈ tracks)
    {m : Nat} (member : m ∈ track.members) : m ∈ claimed ∨ ∃ kept ∈ deduplicate claimed tracks, m ∈ kept.members := by
  induction tracks generalizing claimed with
  | nil => cases listed
  | cons head rest ih =>
    rw [deduplicate]
    split
    next known =>
      rcases List.mem_cons.mp listed with rfl | listed
      · exact .inl (by simpa using List.all_eq_true.mp known m member)
      · exact ih claimed listed
    next =>
      rcases List.mem_cons.mp listed with rfl | listed
      · exact .inr ⟨track, List.mem_cons_self, member⟩
      · rcases ih (claimed ++ head.members) listed with inClaimed | ⟨kept, isKept, member'⟩
        · rcases List.mem_append.mp inClaimed with isClaimed | inHead
          · exact .inl isClaimed
          · exact .inr ⟨head, List.mem_cons_self, inHead⟩
        · exact .inr ⟨kept, List.mem_cons_of_mem _ isKept, member'⟩

theorem exists_new_member (claimed : List Nat) {tracks before after : List (Track Orbit)} {track : Track Orbit}
    (reported : deduplicate claimed tracks = before ++ track :: after) :
    ∃ m ∈ track.members, m ∉ claimed ∧ ∀ earlier ∈ before, m ∉ earlier.members := by
  induction tracks generalizing claimed before with
  | nil => cases before <;> cases reported
  | cons head rest ih =>
    rw [deduplicate] at reported
    split at reported
    · exact ih claimed reported
    next unknown =>
      cases before with
      | nil =>
        cases reported
        obtain ⟨m, listed, isNew⟩ : ∃ m ∈ track.members, m ∉ claimed := by simpa using unknown
        exact ⟨m, listed, isNew, fun earlier isEarlier => by cases isEarlier⟩
      | cons first before =>
        obtain ⟨rfl, later⟩ := List.cons.inj reported
        obtain ⟨m, listed, isNew, notEarlier⟩ := ih (claimed ++ head.members) later
        rw [List.mem_append, not_or] at isNew
        refine ⟨m, listed, isNew.1, fun earlier isEarlier => ?_⟩
        rcases List.mem_cons.mp isEarlier with rfl | isEarlier
        · exact isNew.2
        · exact notEarlier earlier isEarlier

theorem length_containedSets (keys : List (List Nat)) : (containedSets keys).length = keys.length := by
  rw [containedSets, List.length_map, List.length_zipIdx]

theorem exists_flag {sets : List (List (Track Orbit))} {copies : List (Track Orbit)} (isSet : copies ∈ sets) :
    ∃ flag, (copies, flag) ∈ sets.zip (containedSets (sets.map keyOf)) := by
  obtain ⟨k, inside, rfl⟩ := List.mem_iff_getElem.mp isSet
  have inside' : k < (containedSets (sets.map keyOf)).length := by rwa [length_containedSets, List.length_map]
  refine ⟨(containedSets (sets.map keyOf))[k], List.mem_iff_getElem.mpr ⟨k, by rw [List.length_zip]; omega, List.getElem_zip⟩⟩

theorem sortedMembers_of_mem_candidateSets {candidates copies : List (Track Orbit)} (isSet : copies ∈ candidateSets candidates) :
    ∀ copy ∈ copies, sortedMembers copy = keyOf copies := by
  obtain ⟨key, -, rfl⟩ := List.mem_map.mp isSet
  have filed : ∀ copy ∈ candidates.filter fun candidate => setKey candidate = key, sortedMembers copy = key.destutter (· ≠ ·) := by
    intro copy listed
    have isFiled : setKey copy = key := by simpa using (List.mem_filter.mp listed).2
    rw [← isFiled]
    rfl
  intro copy listed
  rw [filed copy listed]
  unfold keyOf
  split
  next empty =>
    rw [empty] at listed
    cases listed
  next first rest shape => exact (filed first (shape ▸ List.mem_cons_self)).symm

theorem exists_outer_of_covers {sets : List (List (Track Orbit))} {key : List Nat} (covered : (covering fits sets).covers key = true) :
    ∃ track ∈ outerTracks fits sets, ∀ m ∈ key, m ∈ track.members := by
  obtain ⟨set, isSet, within⟩ := SetIndex.mem_of_covers covered
  obtain ⟨track, listed, rfl⟩ := List.mem_map.mp isSet
  exact ⟨track, listed, fun m member => mem_sortedMembers.mp (within m member)⟩

theorem exists_track_of_passing {candidates copies : List (Track Orbit)} (isSet : copies ∈ candidateSets candidates)
    (passes : (fits.bestPassing copies).isSome = true) :
    ∃ track ∈ outerTracks fits (candidateSets candidates) ++ innerTracks fits (candidateSets candidates),
      ∀ m ∈ keyOf copies, m ∈ track.members := by
  obtain ⟨best, isBest⟩ := Option.isSome_iff_exists.mp passes
  have same := fits.members_bestPassing copies best isBest _ (sortedMembers_of_mem_candidateSets isSet)
  have held : ∀ m ∈ keyOf copies, m ∈ best.members := fun m member => mem_sortedMembers.mp (same ▸ member)
  obtain ⟨flag, zipped⟩ := exists_flag isSet
  cases flag with
  | false => exact ⟨best, List.mem_append_left _ (List.mem_filterMap.mpr ⟨_, zipped, isBest⟩), held⟩
  | true =>
    by_cases covered : (covering fits (candidateSets candidates)).covers (keyOf copies) = true
    · obtain ⟨track, listed, within⟩ := exists_outer_of_covers covered
      exact ⟨track, List.mem_append_left _ listed, within⟩
    · refine ⟨best, List.mem_append_right _ (List.mem_filterMap.mpr ⟨_, zipped, ?_⟩), held⟩
      rw [if_neg (by simp), if_neg covered]
      exact isBest

/-- Linking ends whatever the fits say. Every tracklet of a set whose fit passes, and of a set
    that is covered by a track already, is reported; no reported track is inside another; and
    each has a tracklet that none before it has. -/
theorem linkTracklets_complete (fits : Fits Orbit) (candidates : List (Track Orbit)) : ∃ tracks,
    (∀ fuel, (outerTracks fits (candidateSets candidates) ++ innerTracks fits (candidateSets candidates)).length < fuel →
      linkTracklets fits fuel candidates = some tracks) ∧
    (∀ copies ∈ candidateSets candidates,
      (fits.bestPassing copies).isSome = true ∨ (covering fits (candidateSets candidates)).covers (keyOf copies) = true →
      ∀ copy ∈ copies, ∀ m ∈ copy.members, ∃ track ∈ tracks, m ∈ track.members) ∧
    tracks.Pairwise KeptApart ∧
    ∀ before track after, tracks = before ++ track :: after → ∃ m ∈ track.members, ∀ earlier ∈ before, m ∉ earlier.members := by
  obtain ⟨merged, ends, apart, covered⟩ := @mergeFragments_spec _ fits
    (outerTracks fits (candidateSets candidates) ++ innerTracks fits (candidateSets candidates)) [] (fun pair listed => by cases listed)
  have perm : (reportOrder merged).Perm merged := List.perm_insertionSort _ _
  refine ⟨deduplicate [] (reportOrder merged), fun fuel enough => ?_, fun copies isSet passes copy listed m member => ?_, ?_,
    fun before track after reported => ?_⟩
  · rw [linkTracklets, ends fuel enough, Option.map_some]
  · obtain ⟨track, isTrack, held⟩ : ∃ track ∈ outerTracks fits (candidateSets candidates) ++ innerTracks fits (candidateSets candidates),
        ∀ m ∈ keyOf copies, m ∈ track.members := by
      rcases passes with passes | passes
      · exact exists_track_of_passing isSet passes
      · obtain ⟨track, isTrack, held⟩ := exists_outer_of_covers passes
        exact ⟨track, List.mem_append_left _ isTrack, held⟩
    have inTrack := held m (sortedMembers_of_mem_candidateSets isSet copy listed ▸ mem_sortedMembers.mpr member)
    obtain ⟨joined, isJoined, within⟩ := covered track isTrack
    rcases claimed_or_reported [] (perm.mem_iff.mpr isJoined) (within inTrack) with claimed | reported
    · cases claimed
    · exact reported
  · exact ((perm.pairwise_iff fun {_ _} => And.symm).mpr apart).sublist (deduplicate_sublist _ _)
  · obtain ⟨m, listed, -, isNew⟩ := exists_new_member [] reported
    exact ⟨m, listed, isNew⟩

end Linking

def joinedTrack (first second : Track Unit) : Track Unit where
  members := ascending (first.members ++ second.members)
  members_ne_nil := by
    obtain ⟨m, listed⟩ := List.exists_mem_of_ne_nil _ first.members_ne_nil
    exact List.ne_nil_of_mem (mem_ascending.mpr (List.mem_append_left _ listed))
  orbit := ()
  nights := first.nights + second.nights
  residualArcsec := ⊤

/-- The first copy of a set is its track, and tracks with a common tracklet are one object. -/
def sharing : Fits Unit where
  night m := m
  skyMotion _ := none
  predicts _ _ := false
  bestPassing := List.head?
  tryMerge first second := some (joinedTrack first second)
  members_bestPassing copies track isHead members same := same track (List.mem_of_mem_head? isHead)
  members_tryMerge first second track merged := by
    obtain rfl := Option.some.inj merged
    rfl

def trackOf (members : List Nat) (some_ : members ≠ []) : Track Unit := ⟨members, some_, (), members.length, ⊤⟩

def sharingTracks : List (Track Unit) := [trackOf [1, 2] (by simp), trackOf [2, 3] (by simp), trackOf [4] (by simp)]

theorem linkTracklets_complete_overlapping : ∃ fuel tracks, linkTracklets sharing fuel sharingTracks = some tracks ∧
    tracks.Pairwise KeptApart ∧ ∀ m ∈ [1, 2, 3, 4], ∃ track ∈ tracks, m ∈ track.members := by
  obtain ⟨tracks, linked, reported, apart, -⟩ := linkTracklets_complete sharing sharingTracks
  refine ⟨_, tracks, linked _ (Nat.lt_succ_self _), apart, fun m listed => ?_⟩
  obtain ⟨candidate, isCandidate, member⟩ : ∃ candidate ∈ sharingTracks, m ∈ candidate.members := by
    simp only [List.mem_cons, List.not_mem_nil, or_false] at listed
    rcases listed with rfl | rfl | rfl | rfl <;> simp [sharingTracks, trackOf]
  have isCopy : candidate ∈ sharingTracks.filter fun other => setKey other = setKey candidate :=
    List.mem_filter.mpr ⟨isCandidate, by simp⟩
  have isSet : (sharingTracks.filter fun other => setKey other = setKey candidate) ∈ candidateSets sharingTracks :=
    List.mem_map_of_mem (mem_ascending.mpr (List.mem_map_of_mem isCandidate))
  refine reported _ isSet (.inl ?_) candidate isCopy m member
  rw [show sharing.bestPassing = List.head? from rfl, List.isSome_head?]
  exact List.ne_nil_of_mem isCopy

end Boom.Utils
