import Mathlib.Algebra.Order.Field.Basic
import Mathlib.Algebra.Order.BigOperators.Group.List

/-! # Ranked lists and their running sums

A list in descending order, the sums over its first entries, and where a predicate that
holds of a first part of a list stops to hold. -/

namespace Boom.Foundations

def partitionPoint {α : Type} (holds : α → Bool) (entries : List α) : Nat :=
  (entries.takeWhile holds).length

section Partition

variable {α : Type} {holds : α → Bool} {entries : List α}

theorem partitionPoint_le_length : partitionPoint holds entries ≤ entries.length :=
  (List.takeWhile_sublist _).length_le

def SplitBy (holds : α → Bool) (entries : List α) : Prop :=
  entries.Pairwise fun first second => holds second = true → holds first = true

section

variable (split : SplitBy holds entries)
include split

theorem take_partitionPoint :
    entries.take (partitionPoint holds entries) = entries.filter holds := by
  induction entries with
  | nil => rfl
  | cons first rest ih =>
    obtain ⟨before, later⟩ := List.pairwise_cons.mp split
    by_cases keeps : holds first = true
    · rw [partitionPoint, List.takeWhile_cons_of_pos keeps, List.filter_cons_of_pos keeps, List.length_cons,
        List.take_succ_cons, ← ih later, partitionPoint]
    · have none : ∀ entry ∈ rest, ¬ holds entry = true := fun entry there kept => keeps (before entry there kept)
      rw [partitionPoint, List.takeWhile_cons_of_neg keeps, List.filter_cons_of_neg keeps]
      simpa using (List.filter_eq_nil_iff.mpr none).symm

theorem takeWhile_eq_filter : entries.takeWhile holds = entries.filter holds := by
  rw [← take_partitionPoint split]
  exact List.prefix_iff_eq_take.mp (List.takeWhile_prefix _)

theorem lt_partitionPoint_iff {index : Nat} (inside : index < entries.length) :
    index < partitionPoint holds entries ↔ holds entries[index] = true := by
  induction entries generalizing index with
  | nil => cases inside
  | cons first rest ih =>
    obtain ⟨before, later⟩ := List.pairwise_cons.mp split
    by_cases keeps : holds first = true
    · rw [partitionPoint, List.takeWhile_cons_of_pos keeps, List.length_cons]
      cases index with
      | zero => simpa using keeps
      | succ index =>
        rw [List.length_cons] at inside
        simpa [partitionPoint] using ih later (Nat.lt_of_succ_lt_succ inside)
    · rw [partitionPoint, List.takeWhile_cons_of_neg keeps]
      cases index with
      | zero => simpa using keeps
      | succ index =>
        have inRest : index < rest.length := Nat.lt_of_succ_lt_succ inside
        have there : rest[index] ∈ rest := List.getElem_mem _
        simpa using fun kept => keeps (before _ there kept)

theorem le_partitionPoint_iff {count : Nat} (some : 0 < count) (inside : count - 1 < entries.length) :
    count ≤ partitionPoint holds entries ↔ holds entries[count - 1] = true := by
  rw [← lt_partitionPoint_iff split inside]
  omega

end

/-- The slice between two partition points holds what is past the first and not the second. -/
theorem slice_partitionPoint {past : α → Bool} (split : SplitBy past entries) (split' : SplitBy holds entries) :
    (entries.take (partitionPoint holds entries)).drop (partitionPoint past entries) =
      entries.filter fun entry => !past entry && holds entry := by
  induction entries with
  | nil => rfl
  | cons first rest ih =>
    obtain ⟨before, later⟩ := List.pairwise_cons.mp split
    obtain ⟨before', later'⟩ := List.pairwise_cons.mp split'
    by_cases inside : holds first = true
    · by_cases isPast : past first = true
      · have rest_eq := ih later later'
        simp only [partitionPoint] at rest_eq ⊢
        rw [List.takeWhile_cons_of_pos isPast, List.takeWhile_cons_of_pos inside, List.length_cons, List.length_cons,
          List.take_succ_cons, List.drop_succ_cons, rest_eq, List.filter_cons_of_neg (by simp [isPast])]
      · -- Nothing here is past the slice's start.
        have none : ∀ entry ∈ first :: rest, past entry = false := by
          intro entry there
          rcases List.mem_cons.mp there with rfl | there
          · exact Bool.not_eq_true _ ▸ isPast
          · exact Bool.not_eq_true _ ▸ fun laterPast => isPast (before entry there laterPast)
        rw [take_partitionPoint split', partitionPoint, List.takeWhile_cons_of_neg isPast, List.length_nil, List.drop_zero]
        exact List.filter_congr fun entry there => by rw [none entry there, Bool.not_false, Bool.true_and]
    · have none : ∀ entry ∈ first :: rest, ¬ (!past entry && holds entry) = true := by
        intro entry there keeps
        have kept := (Bool.and_eq_true_iff.mp keeps).2
        rcases List.mem_cons.mp there with rfl | there
        · exact inside kept
        · exact inside (before' entry there kept)
      have start : partitionPoint holds (first :: rest) = 0 := by
        rw [partitionPoint, List.takeWhile_cons_of_neg inside, List.length_nil]
      rw [start, List.take_zero, List.drop_nil, List.filter_eq_nil_iff.mpr none]

end Partition

section Order

variable {F : Type}

/-- An unstable sort, the greatest key first. -/
structure DescendingSort (F : Type) [LE F] where
  sort : {α : Type} → (α → F) → List α → List α
  perm : ∀ {α : Type} (key : α → F) (entries : List α), (sort key entries).Perm entries
  sorted : ∀ {α : Type} (key : α → F) (entries : List α),
    (sort key entries).Pairwise fun first second => key second ≤ key first

def DescendingSort.merge [LinearOrder F] : DescendingSort F where
  sort key entries := entries.mergeSort fun first second => key second ≤ key first
  perm _ _ := List.mergeSort_perm _ _
  sorted key entries := by
    have trans : ∀ first second third, decide (key second ≤ key first) = true → decide (key third ≤ key second) = true →
        decide (key third ≤ key first) = true := fun _ _ _ above below =>
      decide_eq_true ((of_decide_eq_true below).trans (of_decide_eq_true above))
    have total : ∀ first second, (decide (key second ≤ key first) || decide (key first ≤ key second)) = true :=
      fun first second => by simpa using le_total (key second) (key first)
    exact (List.pairwise_mergeSort trans total entries).imp of_decide_eq_true

def Descending [LE F] (ranked : List F) : Prop :=
  ranked.Pairwise fun first second => second ≤ first

def cutoff [Zero F] (ranked : List F) (index : Nat) : F :=
  ranked[index]?.getD 0

variable [LinearOrder F] {ranked : List F} {value : F}

theorem Descending.splitBy (descending : Descending ranked) (value : F) : SplitBy (value < ·) ranked :=
  descending.imp fun ordered above => decide_eq_true ((of_decide_eq_true above).trans_le ordered)

theorem cutoff_le_iff [Zero F] (descending : Descending ranked) (nonneg : 0 ≤ value) {index : Nat} :
    cutoff ranked index ≤ value ↔ partitionPoint (value < ·) ranked ≤ index := by
  by_cases inside : index < ranked.length
  · have above := lt_partitionPoint_iff (descending.splitBy value) inside
    rw [cutoff, List.getElem?_eq_getElem inside, Option.getD_some, ← not_lt, ← not_lt, above, decide_eq_true_eq]
  · rw [cutoff, List.getElem?_eq_none (by omega), Option.getD_none]
    have bounded : partitionPoint (value < ·) ranked ≤ ranked.length := partitionPoint_le_length
    exact ⟨fun _ => by omega, fun _ => nonneg⟩

end Order

section Sums

variable {F : Type}

def runningSums [Add F] : F → List F → List F
  | _, [] => []
  | start, entry :: rest => (start + entry) :: runningSums (start + entry) rest

@[simp] theorem length_runningSums [Add F] (start : F) (entries : List F) :
    (runningSums start entries).length = entries.length := by
  induction entries generalizing start with
  | nil => rfl
  | cons entry rest ih => simp [runningSums, ih]

theorem getElem_runningSums [AddMonoid F] (start : F) (entries : List F) (index : Nat)
    (inside : index < (runningSums start entries).length) :
    (runningSums start entries)[index] = start + (entries.take (index + 1)).sum := by
  induction entries generalizing start index with
  | nil => cases inside
  | cons entry rest ih =>
    cases index with
    | zero => simp [runningSums]
    | succ index =>
      have within : index < (runningSums (start + entry) rest).length := by simpa [runningSums] using inside
      simpa [runningSums, add_assoc] using ih (start + entry) index within

variable [AddCommMonoid F] [LinearOrder F] [IsOrderedAddMonoid F] {entries : List F} {start : F}

section

variable (nonneg : ∀ entry ∈ entries, 0 ≤ entry)
include nonneg

theorem start_le_runningSums :
    ∀ sum ∈ runningSums start entries, start ≤ sum := by
  induction entries generalizing start with
  | nil => exact fun sum there => by cases there
  | cons entry rest ih =>
    intro sum there
    have grows : start ≤ start + entry := le_add_of_nonneg_right (nonneg entry List.mem_cons_self)
    rcases List.mem_cons.mp there with rfl | later
    · exact grows
    · exact grows.trans (ih (fun other there => nonneg other (List.mem_cons_of_mem _ there)) sum later)

theorem runningSums_rising : (runningSums start entries).Pairwise (· ≤ ·) := by
  induction entries generalizing start with
  | nil => exact .nil
  | cons entry rest ih =>
    have later : ∀ other ∈ rest, 0 ≤ other := fun other there => nonneg other (List.mem_cons_of_mem _ there)
    exact .cons (start_le_runningSums later) (ih later)

theorem le_partitionPoint_sums {holds : F → Bool}
    (lower : ∀ {small large}, small ≤ large → holds large = true → holds small = true) (atZero : holds 0 = true)
    {count : Nat} (inside : count ≤ entries.length) :
    count ≤ partitionPoint holds (runningSums 0 entries) ↔ holds (entries.take count).sum = true := by
  cases count with
  | zero => simpa using atZero
  | succ count =>
    have split : SplitBy holds (runningSums 0 entries) := (runningSums_rising nonneg).imp lower
    have there : count < (runningSums 0 entries).length := by rw [length_runningSums]; omega
    rw [le_partitionPoint_iff split (Nat.succ_pos _) there]
    simp [getElem_runningSums]

theorem le_partitionPoint_runningSums {bound : F} (least : 0 ≤ bound)
    {count : Nat} (inside : count ≤ entries.length) :
    count ≤ partitionPoint (· ≤ bound) (runningSums 0 entries) ↔ (entries.take count).sum ≤ bound := by
  rw [le_partitionPoint_sums nonneg (fun ordered within => decide_eq_true (ordered.trans (of_decide_eq_true within)))
    (decide_eq_true least) inside, decide_eq_true_eq]

theorem le_partitionPoint_sums_below {bound : F} (least : 0 < bound) {count : Nat} (inside : count ≤ entries.length) :
    count ≤ partitionPoint (· < bound) (runningSums 0 entries) ↔ (entries.take count).sum < bound := by
  rw [le_partitionPoint_sums nonneg (fun ordered below => decide_eq_true (ordered.trans_lt (of_decide_eq_true below)))
    (decide_eq_true least) inside, decide_eq_true_eq]

end

theorem cutoff_runningSums_le_iff {ranked : List F} (descending : Descending ranked)
    (nonneg : ∀ entry ∈ ranked, 0 ≤ entry) {bound value : F} (least : 0 ≤ bound) (there : value ∈ ranked) :
    cutoff ranked (partitionPoint (· ≤ bound) (runningSums 0 ranked)) ≤ value ↔
      (ranked.filter (value < ·)).sum ≤ bound := by
  rw [cutoff_le_iff descending (nonneg value there), le_partitionPoint_runningSums nonneg least partitionPoint_le_length,
    take_partitionPoint (descending.splitBy value)]

/-! ### Weighted entries -/

section Weighted

variable {entries : List (F × F)}

def weight (passes : F → Bool) (entries : List (F × F)) : F :=
  ((entries.filter fun entry => passes entry.1).map Prod.snd).sum

omit [LinearOrder F] [IsOrderedAddMonoid F] in
theorem weight_eq_take {passes : F → Bool} (split : SplitBy passes (entries.map Prod.fst)) :
    weight passes entries =
      ((entries.map Prod.snd).take (partitionPoint passes (entries.map Prod.fst))).sum := by
  have keys : partitionPoint passes (entries.map Prod.fst) =
      partitionPoint (fun entry => passes entry.1) entries := by
    simp [partitionPoint, List.takeWhile_map, Function.comp_def]
  rw [keys, ← List.map_take, take_partitionPoint (List.pairwise_map.mp split), weight]

theorem weight_above_cutoff (descending : Descending (entries.map Prod.fst))
    (nonneg : ∀ entry ∈ entries, 0 ≤ entry.2) {level : F} (least : 0 < level)
    (reached : level ≤ (entries.map Prod.snd).sum) {key : F} (isKey : cutoff (entries.map Prod.fst)
      (partitionPoint (· < level) (runningSums 0 (entries.map Prod.snd))) = key)
    (keyNonneg : 0 ≤ key) : weight (key < ·) entries < level ∧ level ≤ weight (key ≤ ·) entries := by
  have weights : ∀ dp ∈ entries.map Prod.snd, 0 ≤ dp := List.forall_mem_map.mpr nonneg
  have sums {count : Nat} (inside : count ≤ (entries.map Prod.snd).length) :=
    le_partitionPoint_sums_below weights least inside
  have bounded {passes : F → Bool} : partitionPoint passes (entries.map Prod.fst) ≤ (entries.map Prod.snd).length := by
    simpa using @partitionPoint_le_length F passes (entries.map Prod.fst)
  constructor
  · rw [weight_eq_take (descending.splitBy key), ← sums bounded, ← cutoff_le_iff descending keyNonneg]
    exact isKey.le
  · -- The entry at the cutoff is among those counted, so they are one more than fit below the level.
    have split : SplitBy (key ≤ ·) (entries.map Prod.fst) :=
      descending.imp fun ordered above => decide_eq_true ((of_decide_eq_true above).trans ordered)
    have inside : partitionPoint (· < level) (runningSums 0 (entries.map Prod.snd)) < (entries.map Prod.fst).length := by
      by_contra past
      have all := (sums le_rfl).mp (by simpa using past)
      rw [List.take_length] at all
      exact absurd reached (not_le.mpr all)
    have counted := (lt_partitionPoint_iff split inside).mpr (by
      rw [cutoff, List.getElem?_eq_getElem inside, Option.getD_some] at isKey
      exact decide_eq_true isKey.ge)
    rw [weight_eq_take split, ← not_lt, ← sums bounded]
    exact not_le.mpr counted

end Weighted

end Sums

/-! ## One of the best -/

section Picking

variable {α : Type} {better : α → α → Bool}

def pick (better : α → α → Bool) : List α → Option α
  | [] => none
  | item :: rest => some (rest.foldl (fun best other => if better other best then other else best) item)

theorem exists_pick {atMost : α → α → Prop} (refl : ∀ item, atMost item item)
    (trans : ∀ first second third, atMost first second → atMost second third → atMost first third)
    (rises : ∀ other best, better other best = true → atMost best other)
    (stays : ∀ other best, better other best = false → atMost other best) {items : List α} (some_ : items ≠ []) :
    ∃ best ∈ items, pick better items = some best ∧ ∀ item ∈ items, atMost item best := by
  obtain ⟨item, rest, rfl⟩ := List.exists_cons_of_ne_nil some_
  clear some_
  induction rest generalizing item with
  | nil => exact ⟨item, List.mem_cons_self, rfl, by simpa using refl item⟩
  | cons other rest ih =>
    have goesOn : pick better (item :: other :: rest) = pick better ((if better other item then other else item) :: rest) := rfl
    rw [goesOn]
    cases isBetter : better other item with
    | true =>
      obtain ⟨best, there, picked, greatest⟩ := ih other
      refine ⟨best, List.mem_cons_of_mem item there, picked, ?_⟩
      obtain ⟨first, later⟩ := List.forall_mem_cons.mp greatest
      exact List.forall_mem_cons.mpr ⟨trans _ _ _ (rises _ _ isBetter) first, greatest⟩
    | false =>
      obtain ⟨best, there, picked, greatest⟩ := ih item
      obtain ⟨first, later⟩ := List.forall_mem_cons.mp greatest
      refine ⟨best, ?_, picked, ?_⟩
      · exact (List.mem_cons.mp there).elim (fun same => same ▸ List.mem_cons_self)
          fun inRest => List.mem_cons_of_mem _ (List.mem_cons_of_mem _ inRest)
      · exact List.forall_mem_cons.mpr ⟨first, List.forall_mem_cons.mpr ⟨trans _ _ _ (stays _ _ isBetter) first, later⟩⟩

theorem mem_of_pick {items : List α} {best : α} (picked : pick better items = some best) : best ∈ items := by
  cases items with
  | nil => cases picked
  | cons item rest =>
    have some_ : item :: rest ≠ [] := by simp
    obtain ⟨found, there, isFound, _⟩ := @exists_pick α better (fun _ _ => True) (fun _ => trivial)
      (fun _ _ _ _ _ => trivial) (fun _ _ _ => trivial) (fun _ _ _ => trivial) (item :: rest) some_
    exact Option.some.inj (isFound.symm.trans picked) ▸ there

end Picking

end Boom.Foundations
