import Boom.Utils.SkymapSafety

/-! # Pixels of several orders in one numbering

A number stands for an order and a place in it, and the search of a map finds the pixel that contains a
position at whatever order the pixel is stored. -/

namespace Boom.Utils.Skymap3d

open Boom.Foundations

def Contains (finest pixel hash : Nat) : Prop :=
  Utils.uniqToIpix pixel * 4 ^ (finest - Utils.uniqToOrder pixel) ≤ hash ∧
    hash < (Utils.uniqToIpix pixel + 1) * 4 ^ (finest - Utils.uniqToOrder pixel)

structure Apart (stored : List Nat) : Prop where
  valid : ∀ pixel ∈ stored, 4 ≤ pixel ∧ pixel < 2 ^ 64
  distinct : stored.Nodup
  separate : ∀ pixel ∈ stored, ∀ other ∈ stored, ∀ hash < 12 * 4 ^ finestOrder stored,
    Contains (finestOrder stored) pixel hash → Contains (finestOrder stored) other hash → pixel = other

theorem over_iff_contains (finest hash pixel : Nat) : Over finest hash pixel ↔ Contains finest pixel hash := by
  unfold Over Contains
  have positive : 0 < 4 ^ (finest - Utils.uniqToOrder pixel) := Nat.pow_pos (by norm_num)
  rw [Nat.shiftRight_eq_div_pow, Nat.pow_mul, show 2 ^ 2 = 4 by norm_num]
  constructor
  · rintro same
    rw [← same]
    exact ⟨Nat.div_mul_le_self _ _, Nat.lt_mul_of_div_lt (Nat.lt_succ_self _) positive⟩
  · rintro ⟨least, most⟩
    exact Nat.div_eq_of_lt_le least most

variable {stored : List Nat}

theorem isLast_iff (distinct : stored.Nodup) (pixel row : Nat) :
    IsLast stored pixel row ↔ stored[row]? = some pixel := by
  refine ⟨And.left, fun here => ⟨here, fun later past there => ?_⟩⟩
  obtain ⟨inside, same⟩ := List.getElem?_eq_some_iff.mp here
  obtain ⟨inside', same'⟩ := List.getElem?_eq_some_iff.mp there
  have place := (distinct.getElem_inj_iff).mp (same.trans same'.symm)
  omega

theorem order_le_finestOrder {pixel : Nat} (there : pixel ∈ stored) :
    Utils.uniqToOrder pixel ≤ finestOrder stored :=
  ((foldl_max_le_iff _ 0 (finestOrder stored)).mp le_rfl).2 _ (List.mem_map_of_mem there)

theorem comesTo_iff (apart : Apart stored) {hash : Nat} (inside : hash < 12 * 4 ^ finestOrder stored)
    (row : Nat) : ComesTo stored (finestOrder stored) hash (finestOrder stored) row ↔
      ∃ pixel, stored[row]? = some pixel ∧ Contains (finestOrder stored) pixel hash := by
  constructor
  · rintro ⟨pixel, isLast, isOver, -, -⟩
    exact ⟨pixel, isLast.1, (over_iff_contains _ _ _).mp isOver⟩
  · rintro ⟨pixel, here, contains⟩
    have there : pixel ∈ stored := List.mem_of_getElem? here
    refine ⟨pixel, (isLast_iff apart.distinct pixel row).mpr here, (over_iff_contains _ _ _).mpr contains,
      order_le_finestOrder there, fun other member isOver _ => ?_⟩
    have same := apart.separate pixel there other member hash inside contains ((over_iff_contains _ _ _).mp isOver)
    rw [same]

theorem uniq_order_ipix {order ipix : Nat} (inside : ipix < 12 * 4 ^ order) (room : 4 ^ (order + 1) + ipix < 2 ^ 64) :
    uniqToOrder (4 ^ (order + 1) + ipix) = .ok order ∧ uniqToIpix (4 ^ (order + 1) + ipix) = .ok ipix := by
  have base : 4 ^ (order + 1) = 4 * 4 ^ order := by rw [Nat.pow_succ, Nat.mul_comm]
  have positive : 0 < 4 ^ order := Nat.pow_pos (by norm_num)
  have some_ : 4 ≤ 4 ^ (order + 1) + ipix := by omega
  obtain ⟨isOrder, isIpix⟩ := (eq_add_iff some_).mp ⟨by rw [base], inside⟩
  rw [uniqToOrder_eq some_ room, uniqToIpix_eq some_ room, isOrder, isIpix]
  exact ⟨rfl, rfl⟩

theorem walk_finds (apart : Apart stored) {hash : Nat} (inside : hash < 12 * 4 ^ finestOrder stored) :
    ∃ found, LIGO3dskymap.walk stored.zipIdx (finestOrder stored) hash = .ok found ∧
      ∀ row, found = some row ↔ ∃ pixel, stored[row]? = some pixel ∧ Contains (finestOrder stored) pixel hash := by
  have deep : finestOrder stored ≤ 30 :=
    (foldl_max_le_iff _ 0 30).mpr ⟨by decide, List.forall_mem_map.mpr fun pixel there =>
      order_le (apart.valid pixel there).1 (apart.valid pixel there).2⟩
  obtain ⟨found, walked, isFound⟩ := walk_eq_iff (fun pixel there => (apart.valid pixel there).1) deep inside le_rfl
  rw [Nat.sub_self, Nat.mul_zero, Nat.shiftRight_zero] at walked
  exact ⟨found, walked, fun row => (isFound row).trans (comesTo_iff apart inside row)⟩

/-- Orders and places are read back from their numbers, and the search finds the stored pixel that contains
    a pixel of the finest order, or none if none does. -/
theorem multiOrder_consistent :
    (∀ order ipix, ipix < 12 * 4 ^ order → 4 ^ (order + 1) + ipix < 2 ^ 64 →
      uniqToOrder (4 ^ (order + 1) + ipix) = .ok order ∧ uniqToIpix (4 ^ (order + 1) + ipix) = .ok ipix) ∧
    ∀ stored, Apart stored → ∀ hash < 12 * 4 ^ finestOrder stored,
      ∃ found, LIGO3dskymap.walk stored.zipIdx (finestOrder stored) hash = .ok found ∧
        ∀ row, found = some row ↔ ∃ pixel, stored[row]? = some pixel ∧ Contains (finestOrder stored) pixel hash :=
  ⟨fun _ _ inside room => uniq_order_ipix inside room, fun _ apart _ inside => walk_finds apart inside⟩

theorem apart_mixed : Apart [4, 20] where
  valid := by decide
  distinct := by decide
  separate := by
    have finest : finestOrder [4, 20] = 1 := by decide
    have first : Utils.uniqToIpix 4 = 0 ∧ Utils.uniqToOrder 4 = 0 := by decide
    have second : Utils.uniqToIpix 20 = 4 ∧ Utils.uniqToOrder 20 = 1 := by decide
    intro pixel there other there' hash _ contains contains'
    rw [finest] at contains contains'
    simp only [List.mem_cons, List.not_mem_nil, or_false] at there there'
    rcases there with rfl | rfl <;> rcases there' with rfl | rfl
    · rfl
    · simp only [Contains, first, second] at contains contains'
      omega
    · simp only [Contains, first, second] at contains contains'
      omega
    · rfl

theorem multiOrder_consistent_mixed : uniqToOrder 20 = .ok 1 ∧ uniqToIpix 20 = .ok 4 ∧
    ∃ found, LIGO3dskymap.walk [(4, 0), (20, 1)] 1 3 = .ok found ∧
      ∀ row, found = some row ↔ ∃ pixel, [4, 20][row]? = some pixel ∧ Contains 1 pixel 3 := by
  have inside : 3 < 12 * 4 ^ finestOrder [4, 20] := by decide
  exact ⟨(multiOrder_consistent.1 1 4 (by decide) (by decide)).1, (multiOrder_consistent.1 1 4 (by decide) (by decide)).2,
    multiOrder_consistent.2 [4, 20] apart_mixed 3 inside⟩

end Boom.Utils.Skymap3d
