import Mathlib

/-! # Items of extreme keys

A scan keeps the position of the best item so far, and a run the best of the candidates it sees.
Both end at an item of least key, a run at the one it began with if that has the least key.  With
the order turned round, the same holds of the greatest. -/

namespace Boom.Foundations

variable {α κ : Type} [LinearOrder κ]

def Least (key : α → κ) (items : List α) (item : α) : Prop :=
  item ∈ items ∧ ∀ other ∈ items, key item ≤ key other

abbrev Greatest (key : α → κ) (items : List α) (item : α) : Prop :=
  Least (fun item => OrderDual.toDual (key item)) items item

variable {key : α → κ} {items done rest candidates : List α} {item other start : α}

theorem Least.of_le (least : Least key items item) (there : other ∈ items) (le : key other ≤ key item) :
    Least key items other :=
  ⟨there, fun any isAny => le.trans (least.2 any isAny)⟩

theorem least_singleton : Least key [item] item := by
  refine ⟨List.mem_singleton.mpr rfl, fun other isItem => ?_⟩
  rw [List.mem_singleton.mp isItem]

/-! ## The best so far -/

def lesser (key : α → κ) (held candidate : α) : α := if key candidate < key held then candidate else held

theorem key_lesser_le : key (lesser key item other) ≤ key item ∧ key (lesser key item other) ≤ key other := by
  unfold lesser
  split
  next less => exact ⟨less.le, le_refl _⟩
  next notLess => exact ⟨le_refl _, not_lt.mp notLess⟩

theorem lesser_mem (key : α → κ) (item other : α) : lesser key item other = item ∨ lesser key item other = other := by
  unfold lesser
  split
  · exact .inr rfl
  · exact .inl rfl

theorem least_foldl_lesser (key : α → κ) (start : α) (candidates : List α) :
    Least key (start :: candidates) (candidates.foldl (lesser key) start) := by
  induction candidates generalizing start with
  | nil => exact least_singleton
  | cons candidate rest ih =>
    obtain ⟨there, least⟩ := ih (lesser key start candidate)
    have held := least _ List.mem_cons_self
    refine ⟨?_, ?_⟩
    · rcases List.mem_cons.mp there with same | later
      · rw [List.foldl_cons, same]
        rcases lesser_mem key start candidate with isStart | isCandidate
        · rw [isStart]
          exact List.mem_cons_self
        · rw [isCandidate]
          exact List.mem_cons_of_mem _ List.mem_cons_self
      · exact List.mem_cons_of_mem _ (List.mem_cons_of_mem _ later)
    · intro other isOther
      rcases List.mem_cons.mp isOther with rfl | isOther
      · exact held.trans key_lesser_le.1
      · rcases List.mem_cons.mp isOther with rfl | later
        · exact held.trans key_lesser_le.2
        · exact least other (List.mem_cons_of_mem _ later)

theorem foldl_lesser_eq_start (least : ∀ candidate ∈ candidates, key start ≤ key candidate) :
    candidates.foldl (lesser key) start = start := by
  induction candidates with
  | nil => rfl
  | cons candidate rest ih =>
    obtain ⟨first, later⟩ := List.forall_mem_cons.mp least
    have kept : lesser key start candidate = start := if_neg (not_lt.mpr first)
    rw [List.foldl_cons, kept]
    exact ih later

/-! ## The position of the best -/

theorem foldl_zipIdx {σ : Type} {step : σ → α × Nat → σ} (Holds : List α → σ → Prop)
    (next : ∀ done item rest state, items = done ++ item :: rest → Holds done state →
      Holds (done ++ [item]) (step state (item, done.length)))
    {state : σ} (start : Holds [] state) : Holds items (items.zipIdx.foldl step state) := by
  have general : ∀ rest done state, items = done ++ rest → Holds done state →
      Holds items ((rest.zipIdx done.length).foldl step state) := by
    intro rest
    induction rest with
    | nil =>
      rintro done state rfl holds
      rw [List.append_nil]
      exact holds
    | cons item rest ih =>
      intro done state split holds
      have shorter := ih (done ++ [item]) (step state (item, done.length))
        (by rw [split, List.append_assoc, List.singleton_append]) (next done item rest state split holds)
      rw [List.length_append, List.length_singleton] at shorter
      exact shorter
  exact general items [] state rfl start

def moveTo (better : α → α → Bool) (items : List α) (best : Nat) (entry : α × Nat) : Nat :=
  if (items[best]?).any (better entry.1) then entry.2 else best

def BestAt (key : α → κ) (items done : List α) (position : Nat) : Prop :=
  (done = [] ∧ position = 0) ∨ ∃ item, items[position]? = some item ∧ Least key done item

theorem bestAt_start : BestAt key items [] 0 := .inl ⟨rfl, rfl⟩

theorem Least.append (least : Least key done item) (le : key item ≤ key other) : Least key (done ++ [other]) item := by
  refine ⟨List.mem_append_left _ least.1, fun any there => ?_⟩
  rcases List.mem_append.mp there with old | new
  · exact least.2 any old
  · rw [List.mem_singleton.mp new]
    exact le

theorem Least.append_new (least : Least key done item) (le : key other ≤ key item) : Least key (done ++ [other]) other := by
  refine ⟨List.mem_append_right _ List.mem_cons_self, fun any there => ?_⟩
  rcases List.mem_append.mp there with old | new
  · exact le.trans (least.2 any old)
  · rw [List.mem_singleton.mp new]

theorem BestAt.move {better : α → α → Bool} {position : Nat} (split : items = done ++ item :: rest)
    (agrees : ∀ held ∈ items, better item held = decide (key item < key held)) (best : BestAt key items done position) :
    BestAt key items (done ++ [item]) (moveTo better items position (item, done.length)) := by
  have own : items[done.length]? = some item := by simp [split]
  have there : item ∈ items := List.mem_of_getElem? own
  rcases best with ⟨rfl, rfl⟩ | ⟨held, isHeld, least⟩
  · -- The first item is compared with itself.
    have atItem : items[0]? = some item := own
    refine .inr ⟨item, ?_, least_singleton⟩
    rw [moveTo, atItem, Option.any_some, agrees item there, decide_eq_false (lt_irrefl _)]
    exact atItem
  · unfold moveTo
    rw [isHeld, Option.any_some, agrees held (List.mem_of_getElem? isHeld)]
    split
    next less => exact .inr ⟨item, own, least.append_new (of_decide_eq_true less).le⟩
    next notLess => exact .inr ⟨held, isHeld, least.append (not_lt.mp (fun less => notLess (decide_eq_true less)))⟩

theorem BestAt.least {position : Nat} (best : BestAt key items items position) (some_ : items ≠ []) :
    ∃ item, items[position]? = some item ∧ Least key items item :=
  best.resolve_left fun none_ => some_ none_.1

/-! ## The best of the groups' best -/

section

variable {γ : Type} [DecidableEq γ] {group : α → γ} {others : List α}

structure Representatives (key : α → κ) (group : α → γ) (items candidates : List α) : Prop where
  least : ∀ candidate ∈ candidates, Least key (items.filter (group · = group candidate)) candidate
  every : ∀ item ∈ items, ∃ candidate ∈ candidates, group candidate = group item
  single : ∀ candidate ∈ candidates, ∀ other ∈ candidates, group candidate = group other → candidate = other

def OneBest (key : α → κ) (group : α → γ) (items : List α) : Prop :=
  (∀ first ∈ items.head?, Least key items first) ∨
    ∀ item other, Least key items item → Least key items other → group item = group other

theorem Representatives.perm (represent : Representatives key group items candidates) (perm : others.Perm candidates) :
    Representatives key group items others where
  least := fun candidate there => represent.least candidate (perm.mem_iff.mp there)
  every := fun item there =>
    let ⟨candidate, isCandidate, same⟩ := represent.every item there
    ⟨candidate, perm.mem_iff.mpr isCandidate, same⟩
  single := fun candidate there other there' =>
    represent.single candidate (perm.mem_iff.mp there) other (perm.mem_iff.mp there')

section

variable (represent : Representatives key group items candidates) (there : start ∈ items)
include represent

theorem Representatives.mem (isCandidate : other ∈ candidates) : other ∈ items :=
  (List.mem_filter.mp (represent.least other isCandidate).1).1

theorem Representatives.least_of_least (least : Least key items item) :
    ∃ candidate ∈ candidates, group candidate = group item ∧ Least key items candidate := by
  obtain ⟨candidate, isCandidate, same⟩ := represent.every item least.1
  have inGroup : item ∈ items.filter (group · = group candidate) :=
    List.mem_filter.mpr ⟨least.1, decide_eq_true same.symm⟩
  have le := (represent.least candidate isCandidate).2 item inGroup
  exact ⟨candidate, isCandidate, same, least.of_le (represent.mem isCandidate) le⟩

include there

theorem Representatives.least_merged : Least key items (candidates.foldl (lesser key) start) := by
  obtain ⟨isOne, least⟩ := least_foldl_lesser key start candidates
  constructor
  · rcases List.mem_cons.mp isOne with same | later
    · rw [same]
      exact there
    · exact represent.mem later
  · intro item isItem
    obtain ⟨candidate, isCandidate, same⟩ := represent.every item isItem
    have inGroup : item ∈ items.filter (group · = group candidate) :=
      List.mem_filter.mpr ⟨isItem, decide_eq_true same.symm⟩
    calc key (candidates.foldl (lesser key) start) ≤ key candidate := least candidate (List.mem_cons_of_mem _ isCandidate)
      _ ≤ key item := (represent.least candidate isCandidate).2 item inGroup

theorem Representatives.merged_mem (notLeast : ¬ Least key items start) : candidates.foldl (lesser key) start ∈ candidates := by
  refine (List.mem_cons.mp (least_foldl_lesser key start candidates).1).resolve_left fun same => ?_
  exact notLeast (same ▸ represent.least_merged there)

end

theorem Representatives.merged_eq (represent : Representatives key group items candidates) (isFirst : items.head? = some start)
    (settled : OneBest key group items) (perm : others.Perm candidates) :
    others.foldl (lesser key) start = candidates.foldl (lesser key) start := by
  have there : start ∈ items := List.mem_of_mem_head? isFirst
  have represent' := represent.perm perm
  by_cases least : Least key items start
  · rw [foldl_lesser_eq_start fun other isOther => least.2 other (represent'.mem isOther),
      foldl_lesser_eq_start fun other isOther => least.2 other (represent.mem isOther)]
  · have oneGroup := settled.resolve_left fun first => least (first start isFirst)
    have same := oneGroup _ _ (represent'.least_merged there) (represent.least_merged there)
    exact represent.single _ (perm.mem_iff.mp (represent'.merged_mem there least)) _ (represent.merged_mem there least) same

theorem foldl_lesser_of_first (least : Least key items item) (notLeast : ¬ Least key items start) (there : start ∈ items)
    (each : ∀ candidate ∈ candidates, candidate ∈ items) : (item :: candidates).foldl (lesser key) start = item := by
  have less : key item < key start := lt_of_not_ge fun le => notLeast (least.of_le there le)
  have moved : lesser key start item = item := if_pos less
  rw [List.foldl_cons, moved]
  exact foldl_lesser_eq_start fun candidate isCandidate => least.2 candidate (each candidate isCandidate)

end

end Boom.Foundations
