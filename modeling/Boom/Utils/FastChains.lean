import Boom.Foundations.Ascending
import Boom.Foundations.Double
import Boom.Foundations.LongestPath
import Boom.Foundations.Ranking
import Boom.Foundations.UnionFind
import Mathlib.Data.List.Sort

/-! # Chains of fast movers

Tracklets of fast movers are chained night to night, and a chain is fitted along a longest path
of it.  `longest_path` takes the motions of a chain in the order of their epochs.  Two sites may
number their nights so that a motion of a later night comes before one of an earlier night, and
then the path can be too short (`path_too_short`).  It is not where one of the longest paths has
its motions in the order of the epochs, its last step aside (`chain_fitted`).

An orbit fit is a function of the path it is made for. -/

namespace Boom.Utils.Fast

open Boom.Foundations

structure Motion where
  jd : F64
  night : Int
deriving DecidableEq

structure Tracklet where
  ids : List Int

structure FastSearch where
  minNights : Nat
  maxChainTracklets : Nat
  maxResidualArcsec : F64

/-- A fit, of which only the residual is read. -/
structure OrbitFit (ρ : Type) where
  rmsArcsec : F64
  orbit : ρ

structure FastTrack (ρ : Type) where
  members : List Int
  fit : OrbitFit ρ

/-! ## Chains -/

def linked (edges : List (Nat × Nat)) : List Nat :=
  ascending (edges.flatMap fun edge => [edge.1, edge.2])

def nightsOf (motions : List Motion) (group : List Nat) : List Int :=
  group.filterMap fun k => (motions[k]?).map Motion.night

def groupsOf (entries : List (Nat × Nat)) : List (List Nat) :=
  (ascending (entries.map Prod.snd)).map fun root => (entries.filter fun entry => entry.2 = root).map Prod.fst

def chains (motions : List Motion) (edges : List (Nat × Nat)) (search : FastSearch) : Option (List (List Nat)) := do
  let parent ← linkAll (List.range motions.length) edges
  let roots ← rootsOf parent (linked edges)
  let groups := (groupsOf ((linked edges).zip roots)).filter fun g =>
    search.minNights ≤ (nightsOf motions g).dedup.length
  return groups.filter fun g => g.length ≤ search.maxChainTracklets

/-! ## The longest path -/

def nextOf (edges : List (Nat × Nat)) (k : Nat) : List Nat :=
  (edges.filter fun edge => edge.1 = k).map Prod.snd

def jdRank (motions : List Motion) (k : Nat) : Int :=
  ((motions[k]?).map fun motion => motion.jd.totalRank).getD 0

def byJd (motions : List Motion) (chain : List Nat) : List Nat :=
  chain.insertionSort fun a b => jdRank motions a ≤ jdRank motions b

def endKey (tracklets : List Tracklet) (lengths : Lengths Nat) (k : Nat) : Nat × Nat :=
  ((lengths.length k).getD 0, ((tracklets[k]?).map fun tracklet => tracklet.ids.length).getD 0)

def lexLe (first second : Nat × Nat) : Bool :=
  first.1 < second.1 || (first.1 == second.1 && first.2 ≤ second.2)

def longestPath (chain : List Nat) (next : Nat → List Nat) (motions : List Motion) (tracklets : List Tracklet) :
    Option (List Nat) := do
  let order := byJd motions chain
  let lengths ← relaxAll next order (Lengths.start chain)
  -- The longest, of those one with the most ids, and of those the last.
  match pick (fun k best => lexLe (endKey tracklets lengths best) (endKey tracklets lengths k)) order with
  | none => return []
  | some end_ => traceBack lengths.previous chain.length end_ [end_]

/-! ## Fitting a chain -/

section Fits

variable {ρ : Type} (fitPath : List Nat → Option (OrbitFit ρ)) (search : FastSearch)

def passes (fit : OrbitFit ρ) : Bool :=
  fit.rmsArcsec.le search.maxResidualArcsec

def bestFewer (path : List Nat) : Option (Nat × OrbitFit ρ) :=
  pick (fun fewer best => decide (fewer.2.rmsArcsec.totalRank < best.2.rmsArcsec.totalRank))
    ((List.range path.length).filterMap fun k => (fitPath (path.eraseIdx k)).map fun fit => (k, fit))

def dropOutliers : Nat → List Nat → Option (OrbitFit ρ) → Option (Option (List Nat × Option (OrbitFit ρ)))
  | fuel, path, fit =>
    if fit.any (passes search) || path.length ≤ search.minNights then some (some (path, fit))
    else match bestFewer fitPath path, fuel with
      -- Without a fit of any shorter path the chain is given up.
      | none, _ => some none
      | some _, 0 => none
      | some (k, better), fuel + 1 => dropOutliers fuel (path.eraseIdx k) (some better)

def membersOf (tracklets : List Tracklet) (path : List Nat) : List Int :=
  ascending (path.flatMap fun k => ((tracklets[k]?).map Tracklet.ids).getD [])

def fitChain (chain : List Nat) (next : Nat → List Nat) (motions : List Motion) (tracklets : List Tracklet) :
    Option (Option (FastTrack ρ)) := do
  let path ← longestPath chain next motions tracklets
  if path.length < search.minNights then return none
  let outcome ← dropOutliers fitPath search path.length path (fitPath path)
  return do
    let (path, fit) ← outcome
    let fit ← fit.filter (passes search)
    return { members := membersOf tracklets path, fit := fit }

end Fits

/-! ## What is promised -/

def LeadsLater (motions : List Motion) (edges : List (Nat × Nat)) : Prop :=
  ∀ edge ∈ edges, ∃ a b, motions[edge.1]? = some a ∧ motions[edge.2]? = some b ∧ a.night < b.night

/-- A component of the edges, in order. -/
structure IsChain (edges : List (Nat × Nat)) (group : List Nat) : Prop where
  inOrder : StrictlyAscending group
  nonempty : group ≠ []
  linked : ∀ k ∈ group, k ∈ linked edges
  whole : ∀ k ∈ group, ∀ other, other ∈ group ↔ Connected edges k other

structure IsLongest (edges : List (Nat × Nat)) (chain path : List Nat) : Prop where
  isPath : IsPath (nextOf edges) chain path
  longest : ∀ other, IsPath (nextOf edges) chain other → other.length ≤ path.length

structure ChainFitted (motions : List Motion) (edges : List (Nat × Nat)) (tracklets : List Tracklet) (chain : List Nat) :
    Prop where
  longestPath : ∃ path, longestPath chain (nextOf edges) motions tracklets = some path ∧
    IsLongest edges chain path ∧ (nightsOf motions path).Nodup ∧ (nightsOf motions path).length = path.length
  chains : ∀ search, ∃ groups, chains motions edges search = some groups ∧
    groups.Nodup ∧ ∀ group, group ∈ groups ↔ IsChain edges group ∧
      search.minNights ≤ (nightsOf motions group).dedup.length ∧ group.length ≤ search.maxChainTracklets
  fitChain : ∀ (ρ : Type) (fitPath : List Nat → Option (OrbitFit ρ)) search,
    ∃ result, fitChain fitPath search chain (nextOf edges) motions tracklets = some result ∧
      ∀ track, result = some track → ∃ path fitted, Fast.longestPath chain (nextOf edges) motions tracklets = some path ∧
        IsLongest edges chain path ∧ fitted.Sublist path ∧ search.minNights ≤ fitted.length ∧
        track.members = membersOf tracklets fitted ∧ fitPath fitted = some track.fit ∧ passes search track.fit = true

/-! ## Nights along a path -/

variable {motions : List Motion} {edges : List (Nat × Nat)} {chain : List Nat}

def nightOf (motions : List Motion) (k : Nat) : Int :=
  ((motions[k]?).map Motion.night).getD 0

theorem mem_nextOf {k n : Nat} : n ∈ nextOf edges k ↔ (k, n) ∈ edges := by
  simp [nextOf]

section

variable (later : LeadsLater motions edges)
include later

theorem LeadsLater.lt_length {edge : Nat × Nat} (there : edge ∈ edges) :
    edge.1 < motions.length ∧ edge.2 < motions.length := by
  obtain ⟨_, _, isFirst, isSecond, _⟩ := later edge there
  exact ⟨(List.getElem?_eq_some_iff.mp isFirst).1, (List.getElem?_eq_some_iff.mp isSecond).1⟩

theorem LeadsLater.linked_lt {k : Nat} (there : k ∈ linked edges) :
    k < motions.length := by
  simp only [linked, mem_ascending, List.mem_flatMap, List.mem_cons, List.not_mem_nil, or_false] at there
  obtain ⟨edge, isEdge, rfl | rfl⟩ := there
  · exact (later.lt_length isEdge).1
  · exact (later.lt_length isEdge).2

theorem LeadsLater.nightOf_lt {k n : Nat} (there : (k, n) ∈ edges) :
    nightOf motions k < nightOf motions n := by
  obtain ⟨a, b, isFirst, isSecond, rises⟩ := later (k, n) there
  simpa [nightOf, isFirst, isSecond] using rises

theorem IsChain.forward (isChain : IsChain edges chain) :
    Forward (nextOf edges) chain (nightOf motions) where
  closed k there _ step := (isChain.whole k there _).mpr (.rel _ _ (mem_nextOf.mp step))
  rises _ _ _ step := later.nightOf_lt (mem_nextOf.mp step)

end

theorem nightsOf_eq {path : List Nat} (inside : ∀ k ∈ path, k < motions.length) :
    nightsOf motions path = path.map (nightOf motions) := by
  rw [nightsOf, ← List.filterMap_eq_map]
  refine List.filterMap_congr fun k there => ?_
  simp [nightOf, List.getElem?_eq_getElem (inside k there)]

theorem IsChain.nodup_nights (later : LeadsLater motions edges) (isChain : IsChain edges chain) {path : List Nat}
    (isPath : IsPath (nextOf edges) chain path) :
    (nightsOf motions path).Nodup ∧ (nightsOf motions path).length = path.length := by
  rw [nightsOf_eq fun k there => later.linked_lt (isChain.linked k (isPath.inside k there))]
  refine ⟨?_, List.length_map _⟩
  exact List.pairwise_map.mpr ((isPath.rising (isChain.forward later)).imp fun rises => ne_of_lt rises)

/-! ## The order of the epochs -/

def Before (motions : List Motion) (a b : Nat) : Prop :=
  jdRank motions a < jdRank motions b ∨ jdRank motions a = jdRank motions b ∧ a < b

instance : DecidableRel (Before motions) := fun _ _ => inferInstanceAs (Decidable (_ ∨ _))

/-- Every motion but the last comes after the one before it. -/
def InTurn (motions : List Motion) (path : List Nat) : Prop :=
  path.dropLast.Pairwise (Before motions)

theorem pairwise_orderedInsert {item : Nat} {items : List Nat} (sorted : items.Pairwise (Before motions))
    (first : ∀ other ∈ items, item < other) :
    (items.orderedInsert (fun a b => jdRank motions a ≤ jdRank motions b) item).Pairwise (Before motions) := by
  induction items with
  | nil => simp
  | cons other rest ih =>
    obtain ⟨isFirst, sorted'⟩ := List.pairwise_cons.mp sorted
    obtain ⟨least, first'⟩ := List.forall_mem_cons.mp first
    rw [List.orderedInsert_cons]
    split
    next notAfter =>
      refine List.pairwise_cons.mpr ⟨fun later there => ?_, sorted⟩
      rcases List.mem_cons.mp there with rfl | inRest
      · exact (Int.lt_or_eq_of_le notAfter).imp id fun same => ⟨same, least⟩
      · have apart := first' later inRest
        rcases isFirst later inRest with rises | ⟨same, _⟩
        · exact .inl (by omega)
        · exact (Int.lt_or_eq_of_le notAfter).imp (by omega) fun same' => ⟨by omega, apart⟩
    next after =>
      refine List.pairwise_cons.mpr ⟨fun later there => ?_, ih sorted' first'⟩
      rcases (List.mem_orderedInsert _).mp there with rfl | inRest
      · exact .inl (by omega)
      · exact isFirst later inRest

theorem pairwise_byJd (inOrder : StrictlyAscending chain) : (byJd motions chain).Pairwise (Before motions) := by
  -- The chain ascends and the sort is stable, so equal epochs stay in the order of the indices.
  induction chain with
  | nil => exact .nil
  | cons k rest ih =>
    obtain ⟨first, later⟩ := List.pairwise_cons.mp inOrder
    rw [byJd, List.insertionSort_cons]
    exact pairwise_orderedInsert (ih later) fun other there =>
      first other ((List.mem_insertionSort _).mp there)

instance : Std.Antisymm (Before motions) where
  antisymm first second before before' := by
    rcases before with rises | ⟨same, less⟩ <;> rcases before' with rises' | ⟨same', less'⟩ <;> omega

theorem InTurn.sublist {path : List Nat} (inTurn : InTurn motions path) (isChain : IsChain edges chain)
    (inside : ∀ k ∈ path, k ∈ chain) : path.dropLast.Sublist (byJd motions chain) := by
  have apart : path.dropLast.Nodup := inTurn.imp fun {first second} before same => by
    subst same
    rcases before with rises | ⟨_, less⟩ <;> omega
  have subset : path.dropLast ⊆ byJd motions chain := fun k there =>
    (List.mem_insertionSort _).mpr (inside k (List.dropLast_subset path there))
  exact List.sublist_of_subperm_of_pairwise (List.subperm_of_subset apart subset) inTurn (pairwise_byJd isChain.inOrder)

/-! ## The longest path is one -/

theorem lexLe_trans {first second third : Nat × Nat} (le : lexLe first second = true) (le' : lexLe second third = true) :
    lexLe first third = true := by
  simp only [lexLe, Bool.or_eq_true, decide_eq_true_eq, Bool.and_eq_true, beq_iff_eq] at le le' ⊢
  omega

theorem exists_end (tracklets : List Tracklet) (lengths : Lengths Nat) {order : List Nat} (some_ : order ≠ []) :
    ∃ end_ ∈ order, pick (fun k best => lexLe (endKey tracklets lengths best) (endKey tracklets lengths k)) order =
      some end_ ∧ ∀ k ∈ order, (endKey tracklets lengths k).1 ≤ (endKey tracklets lengths end_).1 := by
  obtain ⟨end_, there, picked, greatest⟩ := @exists_pick Nat
    (fun k best => lexLe (endKey tracklets lengths best) (endKey tracklets lengths k))
    (fun k best => lexLe (endKey tracklets lengths k) (endKey tracklets lengths best) = true)
    (fun k => by simp [lexLe]) (fun _ _ _ => lexLe_trans) (fun _ _ isBetter => isBetter)
    (fun k best notBetter => by
      simp only [lexLe, Bool.or_eq_false_iff, decide_eq_false_iff_not, Bool.and_eq_false_iff, beq_eq_false_iff_ne,
        Bool.or_eq_true, decide_eq_true_eq, Bool.and_eq_true, beq_iff_eq] at notBetter ⊢
      omega) order some_
  refine ⟨end_, there, picked, fun k isOther => ?_⟩
  have le := greatest k isOther
  simp only [lexLe, Bool.or_eq_true, decide_eq_true_eq, Bool.and_eq_true, beq_iff_eq] at le
  omega

theorem mem_byJd {k : Nat} : k ∈ byJd motions chain ↔ k ∈ chain :=
  List.mem_insertionSort _

theorem length_byJd : (byJd motions chain).length = chain.length :=
  List.length_insertionSort _ _

/-- The path found is as long as any that is in turn. -/
theorem longestPath_isPath (later : LeadsLater motions edges) (isChain : IsChain edges chain) (tracklets : List Tracklet) :
    ∃ path, longestPath chain (nextOf edges) motions tracklets = some path ∧ IsPath (nextOf edges) chain path ∧
      ∀ other, IsPath (nextOf edges) chain other → InTurn motions other → other.length ≤ path.length := by
  have forward := isChain.forward later
  obtain ⟨lengths, all, tracing, -, along⟩ := (Tracing.start (nextOf edges) chain).relaxAll forward
    fun k (there : k ∈ byJd motions chain) => mem_byJd.mp there
  have some_ : byJd motions chain ≠ [] := fun none_ => isChain.nonempty
    (List.eq_nil_of_length_eq_zero (by rw [← @length_byJd motions chain, none_]; rfl))
  obtain ⟨end_, there, picked, greatest⟩ := exists_end tracklets lengths some_
  obtain ⟨path, traced, isPath, long⟩ := @traceBack_isPath _ _ _ _ _ forward tracing chain.length end_ []
    ⟨by simp, .singleton _, by simpa using mem_byJd.mp there⟩ (by simp)
  refine ⟨path, by simp [longestPath, all, picked, traced], isPath, fun other isOther inTurn => ?_⟩
  cases other with
  | nil => exact absurd rfl isOther.nonempty
  | cons first rest =>
    -- What is recorded at the end of a path in turn is at least its length, and the end picked has the most.
    have recorded := along first rest isOther.linked (inTurn.sublist isChain isOther.inside)
    rw [Lengths.count_start (isOther.inside first List.mem_cons_self)] at recorded
    have atMost := greatest _ (mem_byJd.mpr (isOther.inside _ (List.getLast_mem (List.cons_ne_nil first rest))))
    simp only [endKey, Lengths.count, List.length_nil] at atMost recorded long
    rw [List.length_cons]
    omega

/-! ## The chains are the components -/

theorem Connected.linked_iff {k other : Nat} (connected : Connected edges k other) :
    k ∈ linked edges ↔ other ∈ linked edges := by
  induction connected with
  | rel first second there =>
    have both : first ∈ linked edges ∧ second ∈ linked edges := by
      simp only [linked, mem_ascending, List.mem_flatMap]
      exact ⟨⟨_, there, by simp⟩, ⟨_, there, by simp⟩⟩
    exact iff_of_true both.1 both.2
  | refl _ => rfl
  | symm _ _ _ same => exact same.symm
  | trans _ _ _ _ _ same same' => exact same.trans same'

theorem StrictlyAscending.eq_of_mem_iff {first second : List Nat} (inOrder : StrictlyAscending first)
    (inOrder' : StrictlyAscending second) (same : ∀ k, k ∈ first ↔ k ∈ second) : first = second :=
  ((List.perm_ext_iff_of_nodup inOrder.nodup inOrder'.nodup).mpr same).eq_of_pairwise
    (fun _ _ _ _ less less' => absurd less (Nat.lt_asymm less')) inOrder inOrder'

theorem chains_eq (later : LeadsLater motions edges) (search : FastSearch) :
    ∃ groups, chains motions edges search = some groups ∧ groups.Nodup ∧
      ∀ group, group ∈ groups ↔ IsChain edges group ∧ search.minNights ≤ (nightsOf motions group).dedup.length ∧
        group.length ≤ search.maxChainTracklets := by
  obtain ⟨parent, root, linked_, sameLength, represents, same⟩ := linkAll_eq edges fun edge => later.lt_length
  have inside : ∀ k ∈ linked edges, k < parent.length := fun k there => sameLength ▸ later.linked_lt there
  let ofRoot (r : Nat) : List Nat := (linked edges).filter fun k => root k = r
  -- A group holds what has one root, and two motions have one root exactly if they are connected.
  have gathered : groupsOf ((linked edges).zip ((linked edges).map root)) =
      (ascending ((linked edges).map root)).map ofRoot := by
    rw [groupsOf, List.map_snd_zip (by simp)]
    refine List.map_congr_left fun r _ => ?_
    have entries : (linked edges).zip ((linked edges).map root) = (linked edges).map fun k => (k, root k) := by
      simpa using @List.zip_map' _ _ _ id root (linked edges)
    rw [entries, List.filter_map, List.map_map]
    exact List.map_id _
  have mem_ofRoot {r k : Nat} : k ∈ ofRoot r ↔ k ∈ linked edges ∧ root k = r := by simp [ofRoot]
  have inOrder (r : Nat) : StrictlyAscending (ofRoot r) :=
    (strictlyAscending_ascending _).sublist List.filter_sublist
  refine ⟨_, by simp only [chains, linked_, rootsOf_eq represents inside, gathered, Option.bind_eq_bind, Option.bind_some]; rfl,
    ?_, ?_⟩
  · refine ((List.Nodup.map_on ?_ (nodup_ascending _)).filter _).filter _
    intro r isRoot r' _ equal
    obtain ⟨k, there, rfl⟩ := List.mem_map.mp (mem_ascending.mp isRoot)
    exact (mem_ofRoot.mp (equal ▸ mem_ofRoot.mpr ⟨there, rfl⟩)).2
  · intro group
    simp only [List.mem_filter, decide_eq_true_eq, and_assoc]
    refine and_congr ?_ Iff.rfl
    constructor
    · intro there
      obtain ⟨r, isRoot, rfl⟩ := List.mem_map.mp there
      obtain ⟨first, isFirst, rfl⟩ := List.mem_map.mp (mem_ascending.mp isRoot)
      refine ⟨inOrder _, List.ne_nil_of_mem (mem_ofRoot.mpr ⟨isFirst, rfl⟩), fun k inGroup => (mem_ofRoot.mp inGroup).1, ?_⟩
      intro k inGroup other
      obtain ⟨isLinked, isRoot⟩ := mem_ofRoot.mp inGroup
      rw [mem_ofRoot, ← same]
      constructor
      · rintro ⟨_, isRoot'⟩
        rw [isRoot, isRoot']
      · intro equal
        exact ⟨(Connected.linked_iff ((same k other).mp equal)).mp isLinked, by rw [← equal, isRoot]⟩
    · intro isChain
      obtain ⟨k, there⟩ := List.exists_mem_of_ne_nil _ isChain.nonempty
      have isLinked := isChain.linked k there
      refine List.mem_map.mpr ⟨root k, mem_ascending.mpr (List.mem_map.mpr ⟨k, isLinked, rfl⟩), ?_⟩
      refine StrictlyAscending.eq_of_mem_iff (inOrder _) isChain.inOrder fun other => ?_
      rw [mem_ofRoot, isChain.whole k there other, ← same]
      constructor
      · rintro ⟨_, equal⟩
        exact equal.symm
      · intro equal
        exact ⟨(Connected.linked_iff ((same k other).mp equal)).mp isLinked, equal.symm⟩

/-! ## What is fitted -/

section Fits

variable {ρ : Type} {fitPath : List Nat → Option (OrbitFit ρ)} {search : FastSearch}

theorem bestFewer_eq {path : List Nat} {k : Nat} {fit : OrbitFit ρ} (found : bestFewer fitPath path = some (k, fit)) :
    k < path.length ∧ fitPath (path.eraseIdx k) = some fit := by
  have there := mem_of_pick found
  simp only [List.mem_filterMap, List.mem_range, Option.map_eq_some_iff, Prod.mk.injEq] at there
  obtain ⟨_, inside, _, isFit, rfl, rfl⟩ := there
  exact ⟨inside, isFit⟩

theorem dropOutliers_spec {fuel : Nat} {path : List Nat} (lasts : path.length ≤ fuel)
    (enough : search.minNights ≤ path.length) :
    ∃ outcome, dropOutliers fitPath search fuel path (fitPath path) = some outcome ∧
      ∀ fitted fit, outcome = some (fitted, fit) →
        fitted.Sublist path ∧ search.minNights ≤ fitted.length ∧ fit = fitPath fitted := by
  induction fuel generalizing path with
  | zero =>
    refine ⟨some (path, fitPath path), by unfold dropOutliers; rw [if_pos (by simp; omega)], ?_⟩
    rintro fitted fit ⟨⟩
    exact ⟨.refl _, enough, rfl⟩
  | succ fuel ih =>
    unfold dropOutliers
    split
    next =>
      refine ⟨_, rfl, ?_⟩
      rintro fitted fit ⟨⟩
      exact ⟨.refl _, enough, rfl⟩
    next goesOn =>
      simp only [Bool.or_eq_true, decide_eq_true_eq, not_or, Nat.not_le] at goesOn
      cases found : bestFewer fitPath path with
      | none => exact ⟨none, rfl, fun _ _ none_ => by cases none_⟩
      | some best =>
        obtain ⟨inside, isFit⟩ := bestFewer_eq found
        have shorter := List.length_eraseIdx_of_lt inside
        obtain ⟨outcome, ran, spec⟩ := @ih (path.eraseIdx best.1) (by omega) (by omega)
        rw [isFit] at ran
        refine ⟨outcome, ran, fun fitted fit same => ?_⟩
        obtain ⟨within, enough', isFit'⟩ := spec fitted fit same
        exact ⟨within.trans (List.eraseIdx_sublist path best.1), enough', isFit'⟩

theorem fitChain_spec {next : Nat → List Nat} {tracklets : List Tracklet} {path : List Nat}
    (found : longestPath chain next motions tracklets = some path) :
    ∃ result, fitChain fitPath search chain next motions tracklets = some result ∧
      ∀ track, result = some track → ∃ fitted, fitted.Sublist path ∧ search.minNights ≤ fitted.length ∧
        track.members = membersOf tracklets fitted ∧ fitPath fitted = some track.fit ∧
        passes search track.fit = true := by
  by_cases short : path.length < search.minNights
  · exact ⟨none, by simp [fitChain, found, short], fun _ none_ => by cases none_⟩
  obtain ⟨outcome, ran, spec⟩ :=
    @dropOutliers_spec ρ fitPath search path.length path (Nat.le_refl _) (by omega)
  refine ⟨_, by simp only [fitChain, found, Option.bind_eq_bind, Option.bind_some, if_neg short, ran]; rfl, ?_⟩
  intro track made
  cases outcome with
  | none => cases made
  | some outcome =>
    obtain ⟨fitted, fit⟩ := outcome
    obtain ⟨within, enough, isFit⟩ := spec fitted fit rfl
    simp only [Option.bind_some, Option.bind_eq_some_iff, Option.filter_eq_some_iff] at made
    obtain ⟨best, ⟨isBest, passed⟩, isTrack⟩ := made
    obtain rfl := Option.some.inj isTrack
    exact ⟨fitted, within, enough, rfl, by rw [← isFit, isBest], passed⟩

end Fits

/-! ## When the longest path is found -/

/-- A chain is fitted along a longest path if one of its longest paths is in turn. -/
theorem chain_fitted {motions : List Motion} {edges : List (Nat × Nat)} (later : LeadsLater motions edges)
    (tracklets : List Tracklet) {chain : List Nat} (isChain : IsChain edges chain)
    (inTurn : ∃ path, IsLongest edges chain path ∧ InTurn motions path) : ChainFitted motions edges tracklets chain := by
  obtain ⟨best, isBest, inTurn⟩ := inTurn
  obtain ⟨path, found, isPath, longer⟩ := longestPath_isPath later isChain tracklets
  have isLongest : IsLongest edges chain path :=
    ⟨isPath, fun other isOther => (isBest.longest other isOther).trans (longer best isBest.isPath inTurn)⟩
  refine ⟨⟨path, found, isLongest, isChain.nodup_nights later isPath⟩, chains_eq later, fun ρ fitPath search => ?_⟩
  obtain ⟨result, ran, spec⟩ := @fitChain_spec _ _ ρ fitPath search _ _ _ found
  refine ⟨result, ran, fun track made => ?_⟩
  obtain ⟨fitted, within, enough, members, isFit, passed⟩ := spec track made
  exact ⟨path, fitted, found, isLongest, within, enough, members, isFit, passed⟩

def inARow : List (Nat × Nat) := [(0, 1), (1, 2)]

theorem leadsLater_inARow {first second third : Motion} (rises : first.night < second.night)
    (rises' : second.night < third.night) : LeadsLater [first, second, third] inARow := by
  intro edge there
  rcases List.mem_pair.mp there with rfl | rfl
  · exact ⟨_, _, rfl, rfl, rises⟩
  · exact ⟨_, _, rfl, rfl, rises'⟩

theorem isChain_inARow : IsChain inARow [0, 1, 2] where
  inOrder := by simp [StrictlyAscending]
  nonempty := by simp
  linked := by decide
  whole k there other := by
    have joined : ∀ k ∈ [0, 1, 2], Connected inARow 1 k := by
      intro k there
      simp only [List.mem_cons, List.not_mem_nil, or_false] at there
      rcases there with rfl | rfl | rfl
      · exact .symm _ _ (.rel _ _ (by simp [inARow]))
      · exact .refl _
      · exact .rel _ _ (by simp [inARow])
    have closed {k other : Nat} (connected : Connected inARow k other) : k ∈ [0, 1, 2] ↔ other ∈ [0, 1, 2] := by
      induction connected with
      | rel first second there => rcases List.mem_pair.mp there with same | same <;> cases same <;> decide
      | refl _ => rfl
      | symm _ _ _ same => exact same.symm
      | trans _ _ _ _ _ same same' => exact same.trans same'
    exact ⟨fun there' => ((joined k there).symm _ _).trans _ _ _ (joined other there'), fun connected => (closed connected).mp there⟩

theorem isPath_inARow : IsPath (nextOf inARow) [0, 1, 2] [0, 1, 2] :=
  ⟨by simp, .cons_cons (by decide) (.cons_cons (by decide) (.singleton _)), by simp⟩

def shortLast : List Tracklet := [⟨[1]⟩, ⟨[2, 3]⟩, ⟨[4]⟩]

def lateSite : List Motion :=
  [⟨⟨0x4142c69330000000⟩, 1⟩, ⟨⟨0x4142c693c0000000⟩, 2⟩, ⟨⟨0x4142c693b0000000⟩, 3⟩]

/-- The third motion comes before the second, and its path is found all the same. -/
theorem chain_fitted_lateSite : ChainFitted lateSite inARow shortLast [0, 1, 2] := by
  have later : LeadsLater lateSite inARow := leadsLater_inARow (by decide) (by decide)
  refine chain_fitted later shortLast isChain_inARow ⟨[0, 1, 2], ⟨isPath_inARow, fun other isOther => ?_⟩, ?_⟩
  · exact isOther.length_le (isChain_inARow.forward later)
  · have before : Before lateSite 0 1 := by decide +kernel
    simpa [InTurn] using before

def acrossSites : List Motion :=
  [⟨⟨0x4142c69340000000⟩, 1⟩, ⟨⟨0x4142c69330000000⟩, 2⟩, ⟨⟨0x4142c693c0000000⟩, 3⟩]

/-- The second motion comes before the first. -/
theorem path_too_short : LeadsLater acrossSites inARow ∧ shortLast.length = acrossSites.length ∧
    IsChain inARow [0, 1, 2] ∧ ¬ ChainFitted acrossSites inARow shortLast [0, 1, 2] := by
  refine ⟨leadsLater_inARow (by decide) (by decide), rfl, isChain_inARow, fun fitted => ?_⟩
  obtain ⟨path, found, isLongest, -⟩ := fitted.longestPath
  -- Motion 1 is gone on from before motion 0 has lengthened the path to it.
  have short : longestPath [0, 1, 2] (nextOf inARow) acrossSites shortLast = some [0, 1] := by decide +kernel
  rw [short] at found
  obtain rfl := Option.some.inj found
  exact absurd (isLongest.longest [0, 1, 2] isPath_inARow) (by simp)

end Boom.Utils.Fast
