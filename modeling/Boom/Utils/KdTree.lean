import Boom.Foundations.Nearest
import Mathlib.Analysis.Real.Sqrt

/-! # The tree that finds the nearest motions

A slice is split at its middle along one axis, and its halves along the next.  The search of a slice looks at
the middle point, goes to the side the query lies on, and to the other side if what is on it can be near
enough. -/

namespace Boom.Utils.Fast

open Boom.Foundations

abbrev Point (F : Type) : Type := Fin 6 → F

structure SelectNth (ι F : Type) [LinearOrder F] where
  select : (ι → F) → Nat → List ι → List ι
  perm : ∀ key nth items, nth < items.length → (select key nth items).Perm items
  before : ∀ key nth items, nth < items.length → ∀ chosen ∈ (select key nth items)[nth]?,
    ∀ item ∈ (select key nth items).take nth, key item ≤ key chosen
  after : ∀ key nth items, nth < items.length → ∀ chosen ∈ (select key nth items)[nth]?,
    ∀ item ∈ (select key nth items).drop (nth + 1), key chosen ≤ key item

def axisOf (depth : Nat) : Fin 6 := Fin.ofNat 6 depth

structure KdTree (F : Type) where
  points : List (Point F)
  index : List (Fin points.length)

namespace KdTree

section

variable {F : Type} [LinearOrder F] (points : List (Point F))

/-- Arrange a slice of the index. -/
def split (selects : SelectNth (Fin points.length) F) (index : List (Fin points.length)) (depth : Nat) :
    List (Fin points.length) :=
  if _few : index.length < 2 then index
  else
    let mid := index.length / 2
    let chosen := selects.select (fun a => points.get a (axisOf depth)) mid index
    let left := chosen.take mid
    let right := chosen.drop mid
    split selects left (depth + 1) ++ (right.take 1 ++ split selects (right.drop 1) (depth + 1))
termination_by index.length
decreasing_by
  all_goals
    have inside : index.length / 2 < index.length := Nat.div_lt_self (by omega) (by decide)
    have same := (selects.perm (fun a => points.get a (axisOf depth)) (index.length / 2) index inside).length_eq
    simp only [List.length_take, List.length_drop, same]
    omega

def new (selects : SelectNth (Fin points.length) F) : KdTree F :=
  { points := points, index := split points selects (List.finRange points.length) 0 }

variable [Field F]

def distanceSquared (point q : Point F) : F :=
  ((List.finRange 6).map fun axis => (point axis - q axis) * (point axis - q axis)).sum

/-- Search a slice of the index. -/
def search (q : Point F) (k : Nat) (r2 : F) (index : List (Fin points.length)) (depth : Nat)
    (best : List (F × Fin points.length)) : List (F × Fin points.length) :=
  if empty : index = [] then best
  else
    let axis := axisOf depth
    let mid := index.length / 2
    let middle := index.get ⟨index.length / 2, Nat.div_lt_self (List.length_pos_of_ne_nil empty) (by decide)⟩
    let best := Nearest.offer k r2 (distanceSquared (points.get middle) q) middle best
    let diff := q axis - points.get middle axis
    let near := if diff < 0 then index.take mid else index.drop (mid + 1)
    let far := if diff < 0 then index.drop (mid + 1) else index.take mid
    let best := search q k r2 near (depth + 1) best
    if diff * diff < Nearest.bound k r2 best then search q k r2 far (depth + 1) best else best
termination_by index.length
decreasing_by
  all_goals
    have some_ := List.length_pos_of_ne_nil empty
    split <;> simp only [List.length_take, List.length_drop] <;> omega

end

def nearest {F : Type} [Field F] [LinearOrder F] (tree : KdTree F) (q : Point F) (k : Nat) (radius : F) :
    List (Fin tree.points.length) :=
  Nearest.kept (search tree.points q k (radius * radius) tree.index 0 [])

/-! ## The layout of the index -/

section

variable {F : Type} [LinearOrder F] (points : List (Point F))

inductive Layout : Nat → List (Fin points.length) → Prop where
  | nil (depth : Nat) : Layout depth []
  | node {depth : Nat} {left right : List (Fin points.length)} {pivot : Fin points.length}
      (middle : (left ++ pivot :: right).length / 2 = left.length)
      (before : ∀ a ∈ left, points.get a (axisOf depth) ≤ points.get pivot (axisOf depth))
      (after : ∀ a ∈ right, points.get pivot (axisOf depth) ≤ points.get a (axisOf depth))
      (leftLayout : Layout (depth + 1) left) (rightLayout : Layout (depth + 1) right) :
      Layout depth (left ++ pivot :: right)

variable {points} (selects : SelectNth (Fin points.length) F)

theorem select_parts {index : List (Fin points.length)} (some_ : 0 < index.length) (axis : Fin 6) :
    ∃ left pivot right, selects.select (fun a => points.get a axis) (index.length / 2) index = left ++ pivot :: right ∧
      left.length = index.length / 2 ∧ (left ++ pivot :: right).Perm index ∧
      (∀ a ∈ left, points.get a axis ≤ points.get pivot axis) ∧
      ∀ a ∈ right, points.get pivot axis ≤ points.get a axis := by
  have inside : index.length / 2 < index.length := Nat.div_lt_self some_ (by decide)
  have perm := selects.perm (fun a => points.get a axis) _ index inside
  have before := selects.before (fun a => points.get a axis) _ index inside
  have after := selects.after (fun a => points.get a axis) _ index inside
  generalize selects.select (fun a => points.get a axis) (index.length / 2) index = chosen at *
  have place : index.length / 2 < chosen.length := by rw [perm.length_eq]; exact inside
  have whole : chosen = chosen.take (index.length / 2) ++ chosen[index.length / 2] :: chosen.drop (index.length / 2 + 1) := by
    rw [← List.drop_eq_getElem_cons place, List.take_append_drop]
  have pivot : chosen[index.length / 2] ∈ chosen[index.length / 2]? := by
    rw [List.getElem?_eq_getElem place]
    rfl
  exact ⟨_, _, _, whole, by rw [List.length_take]; omega, whole ▸ perm, before _ pivot, after _ pivot⟩

theorem split_short {index : List (Fin points.length)} (few : index.length < 2) (depth : Nat) :
    split points selects index depth = index := by
  rw [split, dif_pos few]

theorem split_node {index left right : List (Fin points.length)} {pivot : Fin points.length} (many : ¬ index.length < 2)
    (depth : Nat) (chosen : selects.select (fun a => points.get a (axisOf depth)) (index.length / 2) index =
      left ++ pivot :: right) (place : left.length = index.length / 2) :
    split points selects index depth =
      split points selects left (depth + 1) ++ pivot :: split points selects right (depth + 1) := by
  rw [split, dif_neg many]
  simp only [chosen]
  rw [← place, List.take_left, List.drop_left]
  rfl

theorem split_spec (index : List (Fin points.length)) (depth : Nat) :
    (split points selects index depth).Perm index ∧ Layout points depth (split points selects index depth) := by
  induction size : index.length using Nat.strong_induction_on generalizing index depth with
  | _ size_ ih =>
    by_cases few : index.length < 2
    · rw [split_short selects few]
      refine ⟨List.Perm.refl _, ?_⟩
      match index, few with
      | [], _ => exact .nil depth
      | [a], _ =>
        have alone : Layout points depth ([] ++ a :: []) := .node (by simp) (by simp) (by simp) (.nil _) (.nil _)
        exact alone
    · obtain ⟨left, pivot, right, chosen, place, perm, before, after⟩ :=
        select_parts selects (by omega : 0 < index.length) (axisOf depth)
      have total := perm.length_eq
      rw [List.length_append, List.length_cons] at total
      obtain ⟨leftPerm, leftLayout⟩ := ih left.length (by omega) left (depth + 1) rfl
      obtain ⟨rightPerm, rightLayout⟩ := ih right.length (by omega) right (depth + 1) rfl
      rw [split_node selects few depth chosen place]
      refine ⟨(leftPerm.append (rightPerm.cons pivot)).trans perm, ?_⟩
      refine .node ?_ (fun a member => before a (leftPerm.mem_iff.mp member))
        (fun a member => after a (rightPerm.mem_iff.mp member)) leftLayout rightLayout
      rw [List.length_append, List.length_cons, leftPerm.length_eq, rightPerm.length_eq]
      omega

end

/-! ## The search -/

section

variable {F : Type} [Field F] [LinearOrder F] {points : List (Point F)} (q : Point F) (k : Nat) (r2 : F)

theorem search_nil (depth : Nat) (best : List (F × Fin points.length)) : search points q k r2 [] depth best = best := by
  rw [search, dif_pos rfl]

def searchSides (near far : List (Fin points.length)) (diff : F) (depth : Nat) (best : List (F × Fin points.length)) :
    List (F × Fin points.length) :=
  let best := search points q k r2 near depth best
  if diff * diff < Nearest.bound k r2 best then search points q k r2 far depth best else best

theorem search_node {left right : List (Fin points.length)} {pivot : Fin points.length}
    (middle : (left ++ pivot :: right).length / 2 = left.length) (depth : Nat) (best : List (F × Fin points.length)) :
    search points q k r2 (left ++ pivot :: right) depth best =
      let offered := Nearest.offer k r2 (distanceSquared (points.get pivot) q) pivot best
      let diff := q (axisOf depth) - points.get pivot (axisOf depth)
      if diff < 0 then searchSides q k r2 left right diff (depth + 1) offered
      else searchSides q k r2 right left diff (depth + 1) offered := by
  have drop : (left ++ pivot :: right).drop (left.length + 1) = right := by
    rw [← List.drop_drop, List.drop_left]
    rfl
  rw [search, dif_neg (by simp)]
  simp only [middle, List.get_eq_getElem, List.getElem_append_right (le_refl left.length), Nat.sub_self, List.getElem_cons_zero,
    List.take_left, drop]
  unfold searchSides
  split <;> rfl

variable {q k r2} [IsStrictOrderedRing F]

theorem distanceSquared_ge (point : Point F) (axis : Fin 6) :
    (point axis - q axis) * (point axis - q axis) ≤ distanceSquared point q := by
  unfold distanceSquared
  refine List.single_le_sum (fun square member => ?_) _ (List.mem_map_of_mem (List.mem_finRange axis))
  obtain ⟨other, -, rfl⟩ := List.mem_map.mp member
  exact mul_self_nonneg _

theorem far_of_side {point pivot : Point F} {axis : Fin 6}
    (side : (q axis ≤ pivot axis ∧ pivot axis ≤ point axis) ∨ (pivot axis ≤ q axis ∧ point axis ≤ pivot axis)) :
    (q axis - pivot axis) * (q axis - pivot axis) ≤ distanceSquared point q := by
  refine le_trans ?_ (distanceSquared_ge point axis)
  rcases side with ⟨low, high⟩ | ⟨high, low⟩
  · rw [← neg_mul_neg, neg_sub]
    exact mul_self_le_mul_self (sub_nonneg.mpr low) (sub_le_sub_right high _)
  · rw [← neg_mul_neg (point axis - q axis), neg_sub]
    exact mul_self_le_mul_self (sub_nonneg.mpr high) (sub_le_sub_left low _)

abbrev distances (points : List (Point F)) (q : Point F) (place : Fin points.length) : F :=
  distanceSquared (points.get place) q

def Searches (q : Point F) (k : Nat) (r2 : F) (depth : Nat) (index : List (Fin points.length)) : Prop :=
  ∀ seen best, Nearest (distances points q) k r2 seen best → (index ++ seen).Nodup →
    Nearest (distances points q) k r2 (index ++ seen) (search points q k r2 index depth best)

omit [IsStrictOrderedRing F] in
theorem searchSides_nearest {near far seen : List (Fin points.length)} {diff : F} {depth : Nat}
    {best : List (F × Fin points.length)} (nearSearch : Searches q k r2 depth near) (farSearch : Searches q k r2 depth far)
    (beyond : ∀ place ∈ far, diff * diff ≤ distances points q place) (unique : (far ++ (near ++ seen)).Nodup)
    (nearest : Nearest (distances points q) k r2 seen best) :
    Nearest (distances points q) k r2 (far ++ (near ++ seen)) (searchSides q k r2 near far diff depth best) := by
  have first := nearSearch seen best nearest (List.nodup_append.mp unique).2.1
  unfold searchSides
  dsimp only
  split
  next => exact farSearch _ _ first unique
  next closed => exact first.skip fun place member => (not_lt.mp closed).trans (beyond place member)

theorem search_nearest (positive : 1 ≤ k) {depth : Nat} {index : List (Fin points.length)}
    (layout : Layout points depth index) : Searches q k r2 depth index := by
  induction layout with
  | nil depth =>
    intro seen best nearest _
    rw [search_nil]
    exact nearest
  | @node depth left right pivot middle before after leftLayout rightLayout leftSearch rightSearch =>
    intro seen best nearest unique
    -- the places in the order they are looked at, either side last
    have leftLast : (left ++ (right ++ pivot :: seen)).Perm (left ++ pivot :: right ++ seen) := by
      rw [List.append_assoc, List.cons_append]
      exact List.perm_middle.append_left left
    have rightLast : (right ++ (left ++ pivot :: seen)).Perm (left ++ pivot :: right ++ seen) :=
      (List.perm_append_comm_assoc right left _).trans leftLast
    have new : pivot ∉ seen := by
      have parts := (List.nodup_append.mp (leftLast.nodup_iff.mpr unique)).2.1
      have inner := (List.nodup_append.mp parts).2.1
      exact (List.nodup_cons.mp inner).1
    have offered := Nearest.offer_nearest positive nearest new
    rw [search_node q k r2 middle]
    dsimp only
    split
    next below =>
      refine (searchSides_nearest leftSearch rightSearch (fun place member => far_of_side (.inl ⟨?_, after place member⟩))
        (rightLast.nodup_iff.mpr unique) offered).perm rightLast
      exact (sub_neg.mp below).le
    next above =>
      refine (searchSides_nearest rightSearch leftSearch (fun place member => far_of_side (.inr ⟨?_, before place member⟩))
        (leftLast.nodup_iff.mpr unique) offered).perm leftLast
      exact sub_nonneg.mp (not_lt.mp above)

variable (q r2) in
theorem search_new (positive : 1 ≤ k) (selects : SelectNth (Fin points.length) F) :
    Nearest (distances points q) k r2 (List.finRange points.length)
      (search points q k r2 (new points selects).index 0 []) := by
  obtain ⟨perm, layout⟩ := split_spec selects (List.finRange points.length) 0
  have searched := search_nearest positive layout [] [] (Nearest.nearest_nil (distances points q) k r2)
  rw [List.append_nil] at searched
  exact (searched (perm.nodup_iff.mpr (List.nodup_finRange _))).perm perm

end

/-! ## The nearest points -/

noncomputable section

open Classical in
structure Exact (points : List (Point ℝ)) (q : Point ℝ) (k : Nat) (radius : ℝ) (found : List (Fin points.length)) : Prop where
  distinct : found.Nodup
  size : found.length = min k ((List.finRange points.length).countP fun place =>
    √(distanceSquared (points.get place) q) < radius)
  inside : ∀ place ∈ found, √(distanceSquared (points.get place) q) < radius
  sorted : found.Pairwise fun one other =>
    √(distanceSquared (points.get one) q) ≤ √(distanceSquared (points.get other) q)
  closest : ∀ place, place ∉ found → ∀ inner ∈ found,
    ¬ √(distanceSquared (points.get place) q) < √(distanceSquared (points.get inner) q)

theorem sqrt_lt_abs_iff {square radius : ℝ} (nonneg : 0 ≤ square) : √square < |radius| ↔ square < radius * radius := by
  rw [← Real.sqrt_mul_self_eq_abs, Real.sqrt_lt_sqrt_iff nonneg]

theorem distanceSquared_nonneg (point q : Point ℝ) : 0 ≤ distanceSquared point q :=
  (mul_self_nonneg (point 0 - q 0)).trans (distanceSquared_ge point 0)

/-- The tree finds the nearest points, the radius taken without its sign. -/
theorem nearest_exact (points : List (Point ℝ)) (selects : SelectNth (Fin points.length) ℝ) (q : Point ℝ) (k : Nat)
    (positive : 1 ≤ k) (radius : ℝ) : Exact points q k |radius| (nearest (new points selects) q k radius) := by
  have searched := search_new q (radius * radius) positive selects
  have found : nearest (new points selects) q k radius =
    Nearest.kept (search points q k (radius * radius) (new points selects).index 0 []) := rfl
  rw [found]
  generalize search points q k (radius * radius) (new points selects).index 0 [] = best at *
  refine ⟨searched.distinct, ?_, fun place member => ?_, ?_, fun place left inner member => ?_⟩
  · rw [searched.length_kept (List.nodup_finRange _)]
    congr 1
    refine List.countP_congr fun place _ => ?_
    rw [decide_eq_true_eq, decide_eq_true_eq]
    exact (sqrt_lt_abs_iff (distanceSquared_nonneg (points.get place) q)).symm
  · obtain ⟨entry, held, rfl⟩ := List.mem_map.mp member
    obtain ⟨isDistance, -, near⟩ := searched.among entry held
    exact (sqrt_lt_abs_iff (distanceSquared_nonneg _ _)).mpr (lt_of_eq_of_lt isDistance.symm near)
  · refine List.pairwise_map.mpr (searched.sorted.imp_of_mem fun {one other} member member' ordered => ?_)
    rw [(searched.among one member).1, (searched.among other member').1] at ordered
    exact Real.sqrt_le_sqrt ordered
  · exact not_lt.mpr (Real.sqrt_le_sqrt (searched.closest (List.mem_finRange place) left member))

end

/-! ## A selection by sorting -/

section

variable {ι F : Type} [LinearOrder F]

def sorting : SelectNth ι F where
  select key _ items := items.insertionSort fun one other => key one ≤ key other
  perm key _ items _ := List.perm_insertionSort _ items
  before key nth items _ chosen isChosen item member := by
    obtain ⟨place, inside, rfl⟩ := List.mem_take_iff_getElem.mp member
    obtain ⟨inside', rfl⟩ := List.getElem?_eq_some_iff.mp isChosen
    have total : Std.Total fun one other : ι => key one ≤ key other := ⟨fun one other => le_total _ _⟩
    have transitive : IsTrans ι fun one other => key one ≤ key other := ⟨fun _ _ _ => le_trans⟩
    have ordered := List.pairwise_iff_getElem.mp (List.pairwise_insertionSort (fun one other => key one ≤ key other) items)
    exact ordered place nth (by omega) inside' (by omega)
  after key nth items _ chosen isChosen item member := by
    obtain ⟨place, inside, rfl⟩ := List.mem_drop_iff_getElem.mp member
    obtain ⟨inside', rfl⟩ := List.getElem?_eq_some_iff.mp isChosen
    have total : Std.Total fun one other : ι => key one ≤ key other := ⟨fun one other => le_total _ _⟩
    have transitive : IsTrans ι fun one other => key one ≤ key other := ⟨fun _ _ _ => le_trans⟩
    have ordered := List.pairwise_iff_getElem.mp (List.pairwise_insertionSort (fun one other => key one ≤ key other) items)
    exact ordered nth _ inside' (by omega) (by omega)

end

def twins : List (Point ℝ) := [0, 0]

theorem nearest_exact_twins : Exact twins 0 1 |1| (nearest (new twins sorting) 0 1 1) :=
  nearest_exact twins sorting 0 1 le_rfl 1

/-- A negative radius is squared, and points are found although none is below it. -/
theorem negative_radius_finds : ∃ points : List (Point ℝ), ∃ selects : SelectNth (Fin points.length) ℝ,
    ∃ q : Point ℝ, ∃ k ≥ 1, ∃ radius : ℝ, ¬ Exact points q k radius (nearest (new points selects) q k radius) := by
  refine ⟨[0], sorting, 0, 1, le_rfl, -1, fun exact_ => ?_⟩
  have zero : distanceSquared (0 : Point ℝ) 0 = 0 := by simp [distanceSquared]
  have searched := search_new (0 : Point ℝ) (-1 * -1) (le_refl 1) (sorting : SelectNth (Fin [(0 : Point ℝ)].length) ℝ)
  have size := searched.length_kept (List.nodup_finRange _)
  have one_ : (List.finRange [(0 : Point ℝ)].length).countP
      (fun place => decide (distances [(0 : Point ℝ)] 0 place < -1 * -1)) = 1 := by
    refine List.countP_eq_length.mpr fun place _ => ?_
    match place with
    | 0 => simp [distances, zero]
  rw [one_] at size
  have promised := exact_.size
  rw [List.countP_eq_zero.mpr fun place _ => ?_] at promised
  · exact absurd (size.symm.trans promised) (by decide)
  · rw [decide_eq_true_eq]
    exact not_lt.mpr ((neg_nonpos.mpr zero_le_one).trans (Real.sqrt_nonneg _))

end KdTree

end Boom.Utils.Fast
