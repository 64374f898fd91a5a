import Boom.Utils.SkymapTables

/-! # Which sky maps can be searched

A map with a pixel past the deepest order is loaded and cannot be searched, and neither can one
where a position comes to a pixel listed past the end of the probabilities.  All others can. -/

namespace Boom.Utils.Skymap3d

open Boom.Foundations

/-! ## Numbers of pixels -/

section

variable {uniq order ipix : Nat}

theorem log2_lt (some_ : 4 ≤ uniq) (small : uniq < 2 ^ 64) : 2 ≤ uniq.log2 ∧ uniq.log2 < 64 :=
  ⟨(Nat.le_log2 (by omega)).mpr some_, (Nat.log2_lt (by omega)).mpr small⟩

theorem uniqToOrder_eq (some_ : 4 ≤ uniq) (small : uniq < 2 ^ 64) : uniqToOrder uniq = .ok (Utils.uniqToOrder uniq) := by
  obtain ⟨least, most⟩ := log2_lt some_ small
  have zeros : leadingZeros uniq = 63 - uniq.log2 := by
    rw [leadingZeros, if_neg (by omega)]
    omega
  have top : 63 - leadingZeros uniq = uniq.log2 := by omega
  rw [uniqToOrder, checkedSub_of_le (by omega), top]
  exact checkedSub_of_le (by omega)

theorem order_le (some_ : 4 ≤ uniq) (small : uniq < 2 ^ 64) : Utils.uniqToOrder uniq ≤ 30 := by
  obtain ⟨least, most⟩ := log2_lt some_ small
  unfold Utils.uniqToOrder
  omega

theorem order_le_deepest_iff (some_ : 4 ≤ uniq) : Utils.uniqToOrder uniq ≤ deepest ↔ uniq < 2 ^ 62 := by
  rw [← Nat.log2_lt (by omega), Utils.uniqToOrder, deepest]
  omega

theorem pow_order : 2 ^ (2 * order + 2) = 4 * 4 ^ order := by
  rw [Nat.pow_add, Nat.pow_mul]
  norm_num [Nat.mul_comm]

theorem uniqToOrder_eq_iff (some_ : 4 ≤ uniq) :
    Utils.uniqToOrder uniq = order ↔ 4 * 4 ^ order ≤ uniq ∧ uniq < 16 * 4 ^ order := by
  have least : 2 ≤ uniq.log2 := (Nat.le_log2 (by omega)).mpr some_
  have above : 2 ^ (2 * order + 4) = 16 * 4 ^ order := by
    rw [Nat.pow_add, Nat.pow_mul]
    norm_num [Nat.mul_comm]
  rw [← pow_order, ← above, ← Nat.le_log2 (by omega), ← Nat.log2_lt (by omega), Utils.uniqToOrder]
  omega

theorem uniqToIpix_add (some_ : 4 ≤ uniq) : 4 * 4 ^ Utils.uniqToOrder uniq + Utils.uniqToIpix uniq = uniq := by
  have bounds := (uniqToOrder_eq_iff some_).mp rfl
  rw [Utils.uniqToIpix, Nat.one_shiftLeft, pow_order]
  omega

theorem eq_add_iff (some_ : 4 ≤ uniq) : uniq = 4 * 4 ^ order + ipix ∧ ipix < 12 * 4 ^ order ↔
    Utils.uniqToOrder uniq = order ∧ Utils.uniqToIpix uniq = ipix := by
  have made := uniqToIpix_add some_
  constructor
  · rintro ⟨same, inside⟩
    have isOrder : Utils.uniqToOrder uniq = order := (uniqToOrder_eq_iff some_).mpr (by omega)
    rw [isOrder] at made
    exact ⟨isOrder, by omega⟩
  · rintro ⟨rfl, rfl⟩
    have bounds := (uniqToOrder_eq_iff some_).mp rfl
    omega

theorem uniqToIpix_eq (some_ : 4 ≤ uniq) (small : uniq < 2 ^ 64) : uniqToIpix uniq = .ok (Utils.uniqToIpix uniq) := by
  have made := uniqToIpix_add some_
  have order := order_le some_ small
  rw [uniqToIpix, uniqToOrder_eq some_ small]
  change (checkedShl 64 1 (2 * Utils.uniqToOrder uniq + 2) >>= fun base => checkedSub uniq base) = _
  rw [checkedShl_one (by omega)]
  change checkedSub uniq (2 ^ (2 * Utils.uniqToOrder uniq + 2)) = _
  rw [pow_order, checkedSub_of_le (by omega)]
  congr 1
  omega

theorem runs_pixelArea {F : Type} [Field F] [LinearOrder F] [RealFunctions F] (inside : order < 32) :
    Runs (pixelAreaFromOrder order : Checked F) := by
  rw [pixelAreaFromOrder, checkedShl_one (by omega)]
  exact runs_ok _

end

/-! ## Rows of pixels -/

section

variable {uniq : List Nat}

def IsLast (uniq : List Nat) (pixel row : Nat) : Prop :=
  uniq[row]? = some pixel ∧ ∀ later, row < later → uniq[later]? ≠ some pixel

theorem IsLast.unique {pixel row other : Nat} (isLast : IsLast uniq pixel row) (isLast' : IsLast uniq pixel other) :
    row = other := by
  rcases lt_trichotomy row other with less | same | greater
  · exact absurd isLast'.1 (isLast.2 other less)
  · exact same
  · exact absurd isLast.1 (isLast'.2 row greater)

theorem rowOf_zipIdx_iff (pixel row : Nat) : LIGO3dskymap.rowOf uniq.zipIdx pixel = some row ↔ IsLast uniq pixel row := by
  unfold LIGO3dskymap.rowOf
  induction uniq using List.reverseRecOn with
  | nil => simp [IsLast]
  | append_singleton earlier last ih =>
    have place : (earlier ++ [last])[earlier.length]? = some last := List.getElem?_concat_length
    rw [List.zipIdx_append, List.reverse_append]
    simp only [List.zipIdx_singleton, List.reverse_singleton, List.singleton_append, Nat.zero_add, List.lookup_cons]
    by_cases same : pixel = last
    · subst same
      have isLast : IsLast (earlier ++ [pixel]) pixel earlier.length := by
        refine ⟨place, fun later past => ?_⟩
        rw [List.getElem?_eq_none (by rw [List.length_append, List.length_singleton]; omega)]
        exact Option.some_ne_none _ ∘ Eq.symm
      simp only [beq_self_eq_true, Option.some.injEq]
      exact ⟨fun isRow => isRow ▸ isLast, fun isRow => isLast.unique isRow⟩
    · have other : (pixel == last) = false := by simpa using same
      rw [other]
      simp only
      rw [ih]
      have here (index : Nat) : (earlier ++ [last])[index]? = some pixel ↔ earlier[index]? = some pixel := by
        rcases lt_trichotomy index earlier.length with before | rfl | past
        · rw [List.getElem?_append_left before]
        · simp [Ne.symm same]
        · simp [List.getElem?_eq_none, past.le, Nat.succ_le_of_lt past]
      simp only [IsLast, ne_eq, here]

def Over (finest hash pixel : Nat) : Prop :=
  hash >>> (2 * (finest - Utils.uniqToOrder pixel)) = Utils.uniqToIpix pixel

def ComesTo (uniq : List Nat) (finest hash upTo row : Nat) : Prop :=
  ∃ pixel, IsLast uniq pixel row ∧ Over finest hash pixel ∧ Utils.uniqToOrder pixel ≤ upTo ∧
    ∀ other ∈ uniq, Over finest hash other → Utils.uniqToOrder other ≤ upTo → Utils.uniqToOrder other ≤ Utils.uniqToOrder pixel

theorem IsLast.mem {pixel row : Nat} (isLast : IsLast uniq pixel row) : pixel ∈ uniq :=
  List.mem_of_getElem? isLast.1

theorem exists_isLast {pixel : Nat} (there : pixel ∈ uniq) : ∃ row, IsLast uniq pixel row := by
  have found : LIGO3dskymap.rowOf uniq.zipIdx pixel ≠ none := by
    intro none_
    obtain ⟨row, inside, same⟩ := List.getElem_of_mem there
    have listed : (pixel, row) ∈ uniq.zipIdx.reverse := by
      rw [List.mem_reverse, List.mk_mem_zipIdx_iff_getElem?, List.getElem?_eq_getElem inside, same]
    have differs := List.lookup_eq_none_iff.mp none_ (pixel, row) listed
    simp at differs
  obtain ⟨row, isRow⟩ := Option.ne_none_iff_exists'.mp found
  exact ⟨row, (rowOf_zipIdx_iff pixel row).mp isRow⟩

section

variable {finest hash order : Nat} (inside : hash < 12 * 4 ^ finest) (le : order ≤ finest)

include inside le

theorem shiftRight_lt : hash >>> (2 * (finest - order)) < 12 * 4 ^ order := by
  rw [Nat.shiftRight_eq_div_pow, Nat.div_lt_iff_lt_mul (Nat.two_pow_pos _), Nat.pow_mul, Nat.mul_assoc,
    show 2 ^ 2 = 4 by norm_num, ← Nat.pow_add, Nat.add_sub_cancel' le]
  exact inside

theorem over_iff {pixel : Nat} (some_ : 4 ≤ pixel) : Utils.uniqToOrder pixel = order ∧ Over finest hash pixel ↔
    pixel = 4 * 4 ^ order + hash >>> (2 * (finest - order)) := by
  have small := shiftRight_lt inside le
  constructor
  · rintro ⟨rfl, isOver⟩
    exact ((eq_add_iff some_).mpr ⟨rfl, isOver.symm⟩).1
  · intro same
    obtain ⟨isOrder, isIpix⟩ := (eq_add_iff some_).mp ⟨same, small⟩
    exact ⟨isOrder, by rw [Over, isOrder, isIpix]⟩

theorem rowAt_eq (deep : finest ≤ 30) (rows : List (Nat × Nat)) :
    LIGO3dskymap.rowAt rows order (hash >>> (2 * (finest - order))) =
      .ok (LIGO3dskymap.rowOf rows (4 * 4 ^ order + hash >>> (2 * (finest - order)))) := by
  have small := shiftRight_lt inside le
  have room : 16 * 4 ^ order ≤ 2 ^ 64 := by
    calc 16 * 4 ^ order ≤ 16 * 4 ^ 30 := Nat.mul_le_mul_left _ (Nat.pow_le_pow_right (by norm_num) (le.trans deep))
      _ = 2 ^ 64 := by norm_num
  have shift : 2 * order + 2 < 64 := by omega
  rw [LIGO3dskymap.rowAt, checkedShl_one shift]
  change (checkedAdd 64 (2 ^ (2 * order + 2)) _ >>= fun uniq => pure (LIGO3dskymap.rowOf rows uniq)) = _
  rw [pow_order, checkedAdd, fits_of_lt (by omega)]
  rfl

end

theorem walk_eq_iff {finest hash : Nat} (valid : ∀ pixel ∈ uniq, 4 ≤ pixel) (deep : finest ≤ 30)
    (inside : hash < 12 * 4 ^ finest) {order : Nat} (le : order ≤ finest) :
    ∃ found, LIGO3dskymap.walk uniq.zipIdx order (hash >>> (2 * (finest - order))) = .ok found ∧
      ∀ row, found = some row ↔ ComesTo uniq finest hash order row := by
  induction order with
  | zero =>
    refine ⟨_, rowAt_eq inside le deep uniq.zipIdx, fun row => ?_⟩
    rw [rowOf_zipIdx_iff]
    constructor
    · intro isLast
      obtain ⟨isOrder, isOver⟩ := (over_iff inside le (valid _ isLast.mem)).mpr rfl
      exact ⟨_, isLast, isOver, isOrder.le, fun other _ _ coarse => coarse.trans (Nat.zero_le _)⟩
    · rintro ⟨pixel, isLast, isOver, coarse, -⟩
      rwa [← (over_iff inside le (valid pixel isLast.mem)).mp ⟨Nat.le_zero.mp coarse, isOver⟩]
  | succ order ih =>
    have here := rowAt_eq inside le deep uniq.zipIdx
    have parent : hash >>> (2 * (finest - (order + 1))) >>> 2 = hash >>> (2 * (finest - order)) := by
      rw [← Nat.shiftRight_add]
      congr 1
      omega
    cases listed : LIGO3dskymap.rowOf uniq.zipIdx (4 * 4 ^ (order + 1) + hash >>> (2 * (finest - (order + 1)))) with
    | some found =>
      have isLast := (rowOf_zipIdx_iff _ _).mp listed
      obtain ⟨isOrder, isOver⟩ := (over_iff inside le (valid _ isLast.mem)).mpr rfl
      refine ⟨some found, by rw [LIGO3dskymap.walk, here, listed]; rfl, fun row => ?_⟩
      rw [Option.some.injEq]
      constructor
      · rintro rfl
        exact ⟨_, isLast, isOver, isOrder.le, fun other _ _ le => le.trans isOrder.ge⟩
      · rintro ⟨pixel, isLast', isOver', le', finer⟩
        -- It is a pixel of the same order.
        have same := (over_iff inside le (valid pixel isLast'.mem)).mp
          ⟨le_antisymm le' (isOrder.ge.trans (finer _ isLast.mem isOver isOrder.le)), isOver'⟩
        subst same
        exact isLast.unique isLast'
    | none =>
      have absent : ∀ pixel ∈ uniq, Over finest hash pixel → Utils.uniqToOrder pixel ≠ order + 1 := by
        intro pixel there isOver isOrder
        obtain ⟨row, isLast⟩ := exists_isLast there
        rw [(over_iff inside le (valid pixel there)).mp ⟨isOrder, isOver⟩, ← rowOf_zipIdx_iff, listed] at isLast
        cases isLast
      obtain ⟨found, walked, isFound⟩ := ih (by omega)
      refine ⟨found, ?_, fun row => ?_⟩
      · rw [LIGO3dskymap.walk, here, listed, ← walked, ← parent]
        rfl
      · rw [isFound]
        have coarser : ∀ pixel ∈ uniq, Over finest hash pixel →
            (Utils.uniqToOrder pixel ≤ order ↔ Utils.uniqToOrder pixel ≤ order + 1) := by
          intro pixel there isOver
          have := absent pixel there isOver
          omega
        constructor
        · rintro ⟨pixel, isLast, isOver, le', finer⟩
          refine ⟨pixel, isLast, isOver, by omega, fun other there isOver' le' => ?_⟩
          exact finer other there isOver' ((coarser other there isOver').mpr le')
        · rintro ⟨pixel, isLast, isOver, le', finer⟩
          refine ⟨pixel, isLast, isOver, (coarser pixel isLast.mem isOver).mpr le', fun other there isOver' le' => ?_⟩
          exact finer other there isOver' (by omega)

end

/-! ## Maps that were loaded -/

section

variable {F : Type} [Field F] [LinearOrder F] [RealFunctions F]

structure Loaded (map : LIGO3dskymap F) : Prop where
  valid : ∀ pixel ∈ map.uniq, 4 ≤ pixel ∧ pixel < 2 ^ 64
  finest : map.maxOrder = (map.uniq.map Utils.uniqToOrder).foldl max 0
  areas : map.pixelAreaSr.length = map.uniq.length
  probs : map.prob.length ≤ map.uniq.length
  distmu : map.distmu.length = map.prob.length
  distsigma : map.distsigma.length = map.prob.length
  distnorm : map.distnorm.length = map.prob.length

variable {map : LIGO3dskymap F} {row : Nat}

namespace LIGO3dskymap

theorem runs_readAt {α : Type} {items : List α} (inside : row < items.length) : Runs (readAt items row) :=
  ⟨_, readAt_of_lt inside⟩

section

variable (loaded : Loaded map)
include loaded

omit [RealFunctions F] in
theorem runs_distParams (inside : row < map.prob.length) : Runs (distParams map row) := by
  refine (runs_readAt (loaded.distmu ▸ inside)).bind fun mu _ => ?_
  refine (runs_readAt (loaded.distsigma ▸ inside)).bind fun sigma _ => ?_
  refine (runs_readAt (loaded.distnorm ▸ inside)).bind fun norm _ => ?_
  split
  next => exact runs_ok _
  next => exact runs_ok _

theorem runs_pixelDpdv_iff (distance : F) :
    Runs (pixelDpdv map row distance) ↔ row < map.prob.length := by
  constructor
  · rintro ⟨value, ran⟩
    obtain ⟨params, isParams, -⟩ := bind_eq_ok.mp ran
    obtain ⟨mu, isMu, -⟩ := bind_eq_ok.mp isParams
    exact loaded.distmu ▸ lt_of_readAt isMu
  · intro inside
    refine (runs_distParams loaded inside).bind fun params _ => ?_
    split
    next => exact runs_ok _
    next =>
      refine (runs_readAt inside).bind fun prob _ => ?_
      refine (runs_readAt (loaded.areas ▸ inside.trans_le loaded.probs)).bind fun area _ => ?_
      exact runs_ok _

theorem runs_peakDpdv (inside : row < map.prob.length) : Runs (peakDpdv map row) := by
  refine (runs_readAt (loaded.distmu ▸ inside)).bind fun mu _ => ?_
  split
  next => exact (runs_pixelDpdv_iff loaded _).mpr inside
  next => exact runs_ok _

theorem runs_voxelsOf (distBins : Nat) (inside : row < map.prob.length) :
    Runs (voxelsOf map distBins row) := by
  refine (runs_readAt inside).bind fun pPix _ => ?_
  split
  next => exact runs_ok _
  next =>
    refine (runs_readAt (loaded.areas ▸ inside.trans_le loaded.probs)).bind fun area _ => ?_
    refine (runs_distParams loaded inside).bind fun params _ => ?_
    split
    next => exact runs_ok _
    next => exact runs_ok _

theorem runs_build (sorts : DescendingSort F) (distBins : Nat) : Runs (build sorts map distBins) := by
  unfold build
  split
  next => exact runs_ok _
  next =>
    refine (runs_mapM fun row inside => runs_voxelsOf loaded distBins (List.mem_range.mp inside)).bind fun each _ => ?_
    exact runs_ok _

end

omit [LinearOrder F] [RealFunctions F] in
theorem runs_valueBelow (values : List F) (index : Nat) : Runs (valueBelow values index) := by
  unfold valueBelow
  split
  next => exact runs_ok _
  next inside => exact runs_readAt (Nat.not_le.mp inside)

omit [RealFunctions F] in
theorem runs_searchedProbVol (index : CredibleVolumeIndex F) (dpdv : F) : Runs (searchedProbVol index dpdv) := by
  unfold searchedProbVol
  dsimp only
  split
  next => exact runs_ok _
  next some_ =>
    split
    next => exact runs_ok _
    next inside =>
      rw [checkedSub_of_le (by omega)]
      exact runs_readAt (by omega)

theorem runs_includedCell (loaded : Loaded map) (probFloor threshold : F) (inside : row < map.prob.length) :
    Runs (includedCell map probFloor threshold row) := by
  refine (runs_readAt inside).bind fun prob _ => ?_
  split
  next => exact runs_ok _
  next =>
    refine (runs_peakDpdv loaded inside).bind fun peak _ => ?_
    split
    next =>
      have listed := inside.trans_le loaded.probs
      refine (runs_readAt listed).bind fun u isU => ?_
      rw [readAt_of_lt listed, Except.ok.injEq] at isU
      obtain ⟨some_, small⟩ := loaded.valid u (isU ▸ List.getElem_mem listed)
      rw [uniqToOrder_eq some_ small, uniqToIpix_eq some_ small]
      exact runs_ok _
    next => exact runs_ok _

theorem runs_credibleVolume_iff (loaded : Loaded map) (sorts : DescendingSort F) (index : CredibleVolumeIndex F) (level : F) :
    Runs (credibleVolumeTo2dMoc sorts map index level) ↔ map.maxOrder ≤ deepest := by
  constructor
  · rintro ⟨moc, ran⟩
    obtain ⟨threshold, -, ran⟩ := bind_eq_ok.mp ran
    obtain ⟨probFloor, -, ran⟩ := bind_eq_ok.mp ran
    obtain ⟨included, -, ran⟩ := bind_eq_ok.mp ran
    unfold fromCells at ran
    split at ran
    next deep => exact deep
    next => cases ran
  · intro deep
    refine (runs_valueBelow _ _).bind fun threshold _ => ?_
    refine (runs_valueBelow _ _).bind fun probFloor _ => ?_
    refine (runs_mapM fun row inside => runs_includedCell loaded probFloor threshold (List.mem_range.mp inside)).bind
      fun included _ => ?_
    rw [fromCells, if_pos deep]
    exact runs_ok _

theorem runs_searchedProbVolAt_iff {Position : Type} {layers : Layers Position} (loaded : Loaded map)
    (index : CredibleVolumeIndex F) {position : Position} {found : Option Nat}
    (comes : ang2pix layers map position = .ok found) (distance : F) :
    Runs (searchedProbVolAt layers index map position distance) ↔ ∀ row, found = some row → row < map.prob.length := by
  rw [searchedProbVolAt, comes, ok_bind]
  cases found with
  | none => exact ⟨fun _ _ none_ => absurd none_ (by simp), fun _ => runs_ok _⟩
  | some row =>
    simp only [Option.some.injEq, forall_eq']
    constructor
    · rintro ⟨value, ran⟩
      obtain ⟨dpdv, isDpdv, -⟩ := bind_eq_ok.mp ran
      exact (runs_pixelDpdv_iff loaded distance).mp ⟨dpdv, isDpdv⟩
    · intro inside
      refine ((runs_pixelDpdv_iff loaded distance).mpr inside).bind fun dpdv _ => ?_
      split
      next => exact runs_ok _
      next => exact (runs_searchedProbVol index _).bind fun _ _ => runs_ok _

end LIGO3dskymap

end

/-! ## What loading does -/

section

variable {F : Type} [Field F] [LinearOrder F] [RealFunctions F] {table : FitsTable F}

def Rejected {α : Type} (steps : Except Stop α) : Prop :=
  ∃ error, steps = .error (.rejected error)

theorem rejected_invalid {α : Type} (text : String) : Rejected (invalid text : Except Stop α) :=
  ⟨_, rfl⟩

theorem Rejected.bind {α β : Type} {first : Except Stop α} (rejected : Rejected first) (rest : α → Except Stop β) :
    Rejected (first >>= rest) := by
  obtain ⟨error, rfl⟩ := rejected
  exact ⟨error, rfl⟩

theorem readColumn_cases {α : Type} (column : Except String α) (text : String → String) :
    Rejected (readColumn column text) ∨ ∃ values, column = .ok values ∧ readColumn column text = .ok values := by
  cases column with
  | error e => exact .inl (rejected_invalid _)
  | ok values => exact .inr ⟨values, rfl, rfl⟩

theorem length_of_mapM {α β ε : Type} {step : α → Except ε β} {items : List α} {results : List β}
    (ran : items.mapM step = .ok results) : results.length = items.length := by
  induction items generalizing results with
  | nil =>
    cases ran
    rfl
  | cons item rest ih =>
    rw [List.mapM_cons] at ran
    obtain ⟨here, -, ran⟩ := bind_eq_ok.mp ran
    obtain ⟨later, isLater, same⟩ := bind_eq_ok.mp ran
    obtain rfl := Except.ok.inj same
    rw [List.length_cons, List.length_cons, ih isLater]

theorem readUniq_cases (column : List (BitVec 64)) : Rejected (readUniq table column) ∨
    ∃ pixels probdensity, readUniq table column = .ok pixels ∧ table.probdensity = .ok probdensity ∧
      pixels.uniq = column.map BitVec.toNat ∧ (∀ pixel ∈ pixels.uniq, 4 ≤ pixel) ∧
      pixels.pixelAreaSr.length = pixels.uniq.length ∧
      pixels.prob.length = min probdensity.length pixels.uniq.length ∧ pixels.uniqToRow = some pixels.uniq.zipIdx := by
  unfold readUniq
  dsimp only
  cases bad : (column.map BitVec.toNat).find? (· < 4) with
  | some pixel => exact .inl (rejected_invalid _)
  | none =>
    have valid : ∀ pixel ∈ column.map BitVec.toNat, 4 ≤ pixel := fun pixel there => by
      simpa using List.find?_eq_none.mp bad pixel there
    obtain ⟨areas, isAreas⟩ : Runs ((column.map BitVec.toNat).mapM fun u => do
        (pixelAreaFromOrder (← uniqToOrder u) : Checked F)) := by
      refine runs_mapM fun pixel there => ?_
      obtain ⟨bits, -, rfl⟩ := List.mem_map.mp there
      rw [uniqToOrder_eq (valid _ there) bits.isLt]
      exact runs_pixelArea (by have := order_le (valid _ there) bits.isLt; omega)
    have length := length_of_mapM isAreas
    simp only
    rw [isAreas]
    rcases readColumn_cases table.probdensity fun e => s!"PROBDENSITY column missing from UNIQ skymap: {e}" with
      rejected | ⟨probdensity, isProb, read⟩
    · exact .inl (rejected.bind _)
    · refine .inr ⟨⟨_, areas, List.zipWith (· * ·) probdensity areas, some (column.map BitVec.toNat).zipIdx⟩, probdensity, ?_,
        isProb, rfl, valid, length, ?_, rfl⟩
      · change (readColumn table.probdensity _ >>= _) = _
        rw [read]
        rfl
      · rw [List.length_zipWith, length]

structure WholeSky (pixels : Pixels F) (order : Nat) : Prop where
  uniq : pixels.uniq = (List.range (12 * 4 ^ order)).map (4 * 4 ^ order + ·)
  areas : pixels.pixelAreaSr.length = pixels.uniq.length
  prob : pixels.prob.length = 12 * 4 ^ order
  rows : pixels.uniqToRow = none

theorem readFlat_cases : Rejected (readFlat table) ∨
    ∃ nside order, table.nside = .ok nside ∧ (nside.setWidth 32).toNat = 2 ^ order ∧
      ((order ≤ 30 ∧ ∃ pixels, readFlat table = .ok pixels ∧ WholeSky pixels order) ∨
        (order = 31 ∧ readFlat table = .error (.fault .overflow))) := by
  unfold readFlat
  rcases readColumn_cases table.ordering fun e =>
      s!"skymap has neither a readable int64 UNIQ column nor an ORDERING keyword: {e}" with rejected | ⟨ordering, -, read⟩
  · exact .inl (rejected.bind _)
  simp only [read, ok_bind]
  by_cases nested : Filter.trim ordering ≠ "NESTED"
  · rw [if_pos nested]
    exact .inl (rejected_invalid _)
  simp only [if_neg nested]
  rcases readColumn_cases table.nside id with rejected | ⟨nside, isNside, read⟩
  · exact .inl (rejected.bind _)
  simp only [read, ok_bind]
  by_cases power : 2 ^ (nside.setWidth 32).toNat.log2 ≠ (nside.setWidth 32).toNat
  · rw [if_pos power]
    exact .inl (rejected_invalid _)
  simp only [if_neg power]
  have isPower := not_not.mp power
  have bounded : (nside.setWidth 32).toNat.log2 < 32 :=
    (Nat.pow_lt_pow_iff_right Nat.one_lt_two).mp (isPower.le.trans_lt (nside.setWidth 32).isLt)
  rw [← isPower, Nat.log2_two_pow]
  generalize (nside.setWidth 32).toNat.log2 = order at isPower bounded
  obtain ⟨area, isArea⟩ := @runs_pixelArea order F _ _ _ bounded
  -- A side of 2^31 squares without overflow, and only the count of pixels then overflows.
  have squared : checkedPow 64 (2 ^ order) 2 = .ok (4 ^ order) := by
    have same : (2 ^ order) ^ 2 = 4 ^ order := by rw [← Nat.pow_mul, Nat.mul_comm, Nat.pow_mul]
    rw [checkedPow, same, fits_of_lt]
    calc 4 ^ order < 4 ^ 32 := Nat.pow_lt_pow_right (by norm_num) bounded
      _ = 2 ^ 64 := by norm_num
  have areaRead : checked (pixelAreaFromOrder order : Checked F) = .ok area := by rw [isArea]; rfl
  simp only [areaRead, squared, ok_bind]
  by_cases last : order = 31
  · subst last
    have large : checkedMul 64 12 (4 ^ 31) = .error .overflow := by
      rw [checkedMul, fits, if_neg (by norm_num)]
    refine .inr ⟨nside, 31, isNside, isPower.symm, .inr ⟨rfl, ?_⟩⟩
    rw [large]
    rfl
  have small : 12 * 4 ^ order < 2 ^ 64 := by
    calc 12 * 4 ^ order ≤ 12 * 4 ^ 30 := Nat.mul_le_mul_left _ (Nat.pow_le_pow_right (by norm_num) (by omega))
      _ < 2 ^ 64 := by norm_num
  have npix : checked (checkedMul 64 12 (4 ^ order)) = .ok (12 * 4 ^ order) := by
    rw [checkedMul, fits_of_lt small]
    rfl
  simp only [npix, ok_bind]
  rcases readColumn_cases table.prob id with rejected | ⟨prob, -, read⟩
  · exact .inl (rejected.bind _)
  simp only [read, ok_bind]
  by_cases length : prob.length ≠ 12 * 4 ^ order
  · rw [if_pos length]
    exact .inl (rejected_invalid _)
  simp only [if_neg length]
  have base : checkedShl 64 1 (2 * order + 2) = .ok (4 * 4 ^ order) := by
    rw [checkedShl_one (by omega), pow_order]
  have numbers : (List.range (12 * 4 ^ order)).mapM (fun i => checkedAdd 64 (4 * 4 ^ order) i) =
      .ok ((List.range (12 * 4 ^ order)).map (4 * 4 ^ order + ·)) := by
    refine mapM_ok fun i inside => fits_of_lt ?_
    have below := List.mem_range.mp inside
    calc 4 * 4 ^ order + i < 16 * 4 ^ order := by omega
      _ ≤ 16 * 4 ^ 30 := Nat.mul_le_mul_left _ (Nat.pow_le_pow_right (by norm_num) (by omega))
      _ = 2 ^ 64 := by norm_num
  refine .inr ⟨nside, order, isNside, isPower.symm, .inl ⟨by omega, ⟨(List.range (12 * 4 ^ order)).map (4 * 4 ^ order + ·),
    List.replicate (12 * 4 ^ order) area, prob, none⟩, ?_, rfl, ?_, not_not.mp length, rfl⟩⟩
  · rw [base]
    simp only [checked, Except.mapError, ok_bind, numbers]
    rfl
  · rw [List.length_replicate, List.length_map, List.length_range]

theorem readDistances_cases {α : Type} (column : Option α) :
    Rejected (readDistances column) ∨ ∃ values, readDistances column = .ok values := by
  cases column with
  | none => exact .inl ⟨_, rfl⟩
  | some values => exact .inr ⟨values, rfl⟩

structure MadeOf (pixels : Pixels F) (map : LIGO3dskymap F) : Prop where
  uniq : map.uniq = pixels.uniq
  prob : map.prob = pixels.prob
  rows : map.uniqToRow = pixels.uniqToRow

theorem parse_cases : Rejected (parse3dSkymap table) ∨
    (∀ stop, readPixels table = .error stop → parse3dSkymap table = .error stop) ∧
    ∀ pixels, readPixels table = .ok pixels → (∀ pixel ∈ pixels.uniq, 4 ≤ pixel ∧ pixel < 2 ^ 64) →
      pixels.pixelAreaSr.length = pixels.uniq.length → pixels.prob.length ≤ pixels.uniq.length →
      Rejected (parse3dSkymap table) ∨ ∃ map, parse3dSkymap table = .ok map ∧ Loaded map ∧ MadeOf pixels map := by
  unfold parse3dSkymap
  rcases readDistances_cases table.distmu with rejected | ⟨distmu, read⟩
  · exact .inl (rejected.bind _)
  simp only [read, ok_bind]
  rcases readDistances_cases table.distsigma with rejected | ⟨distsigma, read⟩
  · exact .inl (rejected.bind _)
  simp only [read, ok_bind]
  rcases readDistances_cases table.distnorm with rejected | ⟨distnorm, read⟩
  · exact .inl (rejected.bind _)
  simp only [read, ok_bind]
  refine .inr ⟨fun stop stopped => by rw [stopped]; rfl, fun pixels isPixels valid areas probs => ?_⟩
  simp only [isPixels, ok_bind]
  split
  next => exact .inl (rejected_invalid _)
  next lengths =>
    simp only [not_or, not_not] at lengths
    have orders : pixels.uniq.mapM uniqToOrder = .ok (pixels.uniq.map Utils.uniqToOrder) :=
      mapM_ok fun pixel there => uniqToOrder_eq (valid pixel there).1 (valid pixel there).2
    refine .inr ⟨⟨pixels.uniq, pixels.pixelAreaSr, pixels.prob, distmu, distsigma, distnorm,
      (pixels.uniq.map Utils.uniqToOrder).foldl max 0, pixels.uniqToRow⟩, by rw [orders]; rfl, ?_, rfl, rfl, rfl⟩
    exact ⟨valid, rfl, areas, probs, lengths.1, lengths.2.1, lengths.2.2⟩

end

/-! ## Which maps can be searched -/

def finestOrder (uniq : List Nat) : Nat :=
  (uniq.map Utils.uniqToOrder).foldl max 0

theorem foldl_max_le_iff (orders : List Nat) (start most : Nat) :
    orders.foldl max start ≤ most ↔ start ≤ most ∧ ∀ order ∈ orders, order ≤ most := by
  induction orders generalizing start with
  | nil => simp
  | cons order rest ih =>
    rw [List.foldl_cons, ih, Nat.max_le, List.forall_mem_cons, and_assoc]

theorem finestOrder_le_iff {uniq : List Nat} (valid : ∀ pixel ∈ uniq, 4 ≤ pixel) :
    finestOrder uniq ≤ deepest ↔ ∀ pixel ∈ uniq, pixel < 2 ^ 62 := by
  rw [finestOrder, foldl_max_le_iff, List.forall_mem_map]
  refine (and_iff_right (Nat.zero_le _)).trans (forall₂_congr fun pixel there => ?_)
  exact order_le_deepest_iff (valid pixel there)

section

variable {F : Type} [Field F] [LinearOrder F] [RealFunctions F] {Position : Type}

structure Searchable (layers : Layers Position) (sorts : DescendingSort F) (table : FitsTable F) : Prop where
  loads : Runs (parse3dSkymap table)
  searches : ∀ map, parse3dSkymap table = .ok map → ∀ distBins, ∃ index, map.build sorts distBins = .ok index ∧
    (∀ position distance, Runs (map.searchedProbVolAt layers index position distance)) ∧
    ∀ level, Runs (map.credibleVolumeTo2dMoc sorts index level)

def Within (layers : Layers Position) (table : FitsTable F) : Prop :=
  match table.uniq with
  | some column => (∀ pixel ∈ column, pixel.toNat < 2 ^ 62) ∧
      ∀ probdensity, table.probdensity = .ok probdensity → ∀ position row,
        ComesTo (column.map BitVec.toNat) (finestOrder (column.map BitVec.toNat))
          (layers.hash (finestOrder (column.map BitVec.toNat)) position) (finestOrder (column.map BitVec.toNat)) row →
        row < probdensity.length
  | none => ∀ nside, table.nside = .ok nside → (nside.setWidth 32).toNat ≤ 2 ^ 29

variable {layers : Layers Position} {sorts : DescendingSort F} {table : FitsTable F} {map : LIGO3dskymap F}

theorem searchable_iff (isMap : parse3dSkymap table = .ok map) (loaded : Loaded map) {comesTo : Position → Nat → Prop}
    (comes : map.maxOrder ≤ deepest → ∀ position, ∃ found, map.ang2pix layers position = .ok found ∧
      ∀ row, found = some row ↔ comesTo position row) :
    Searchable layers sorts table ↔
      map.maxOrder ≤ deepest ∧ ∀ position row, comesTo position row → row < map.prob.length := by
  constructor
  · intro searchable
    obtain ⟨index, -, searched, covered⟩ := searchable.searches map isMap 1
    have deep := (LIGO3dskymap.runs_credibleVolume_iff loaded sorts index 0).mp (covered 0)
    refine ⟨deep, fun position row there => ?_⟩
    obtain ⟨found, isFound, isRow⟩ := comes deep position
    exact (LIGO3dskymap.runs_searchedProbVolAt_iff loaded index isFound 0).mp (searched position 0) row ((isRow row).mpr there)
  · rintro ⟨deep, inside⟩
    refine ⟨⟨map, isMap⟩, fun map' isMap' distBins => ?_⟩
    obtain rfl := Except.ok.inj (isMap.symm.trans isMap')
    obtain ⟨index, isIndex⟩ := LIGO3dskymap.runs_build loaded sorts distBins
    refine ⟨index, isIndex, fun position distance => ?_, fun level => (LIGO3dskymap.runs_credibleVolume_iff loaded sorts index level).mpr deep⟩
    obtain ⟨found, isFound, isRow⟩ := comes deep position
    exact (LIGO3dskymap.runs_searchedProbVolAt_iff loaded index isFound distance).mpr fun row same =>
      inside position row ((isRow row).mp same)

omit [Field F] [LinearOrder F] [RealFunctions F] in
theorem ang2pix_uniq (loaded : Loaded map) (rows : map.uniqToRow = some map.uniq.zipIdx) (deep : map.maxOrder ≤ deepest)
    (position : Position) : ∃ found, map.ang2pix layers position = .ok found ∧ ∀ row, found = some row ↔
      ComesTo map.uniq (finestOrder map.uniq) (layers.hash (finestOrder map.uniq) position) (finestOrder map.uniq) row := by
  have finest : map.maxOrder = finestOrder map.uniq := loaded.finest
  obtain ⟨found, walked, isFound⟩ := walk_eq_iff (fun pixel there => (loaded.valid pixel there).1) (deep.trans (by decide))
    (layers.hash_lt _ position deep) (le_refl map.maxOrder)
  refine ⟨found, ?_, by rwa [← finest]⟩
  rw [Nat.sub_self, Nat.mul_zero, Nat.shiftRight_zero] at walked
  rw [LIGO3dskymap.ang2pix, nestedGet, if_pos deep, ok_bind, rows]
  exact walked

omit [Field F] [LinearOrder F] [RealFunctions F] in
theorem WholeSky.bounds {pixels : Pixels F} {order : Nat} (whole : WholeSky pixels order) (small : order ≤ 30) :
    ∀ pixel ∈ pixels.uniq, 4 ≤ pixel ∧ pixel < 2 ^ 64 ∧ Utils.uniqToOrder pixel = order := by
  intro pixel there
  rw [whole.uniq] at there
  obtain ⟨ipix, inside, rfl⟩ := List.mem_map.mp there
  have below := List.mem_range.mp inside
  have positive : 0 < 4 ^ order := Nat.pow_pos (by norm_num)
  have room : 16 * 4 ^ order ≤ 2 ^ 64 := by
    calc 16 * 4 ^ order ≤ 16 * 4 ^ 30 := Nat.mul_le_mul_left _ (Nat.pow_le_pow_right (by norm_num) small)
      _ = 2 ^ 64 := by norm_num
  exact ⟨by omega, by omega, (uniqToOrder_eq_iff (by omega)).mpr (by omega)⟩

omit [Field F] [LinearOrder F] [RealFunctions F] in
theorem WholeSky.maxOrder_eq {pixels : Pixels F} {order : Nat} (whole : WholeSky pixels order) (small : order ≤ 30)
    (loaded : Loaded map) (made : MadeOf pixels map) : map.maxOrder = order := by
  have bounds := whole.bounds small
  have finest : map.maxOrder = finestOrder pixels.uniq := made.uniq ▸ loaded.finest
  rw [finest]
  refine le_antisymm ((foldl_max_le_iff _ _ _).mpr ⟨Nat.zero_le _, ?_⟩) ?_
  · rw [List.forall_mem_map]
    exact fun pixel there => (bounds pixel there).2.2.le
  · have first : 4 * 4 ^ order ∈ pixels.uniq := by
      rw [whole.uniq]
      exact List.mem_map.mpr ⟨0, List.mem_range.mpr (by positivity), rfl⟩
    have most := ((foldl_max_le_iff _ _ _).mp (le_refl (finestOrder pixels.uniq))).2
    rw [List.forall_mem_map] at most
    exact (bounds _ first).2.2 ▸ most _ first

/-- A map that loading does not reject can be searched if and only if no pixel is past the deepest
    order, and no position comes to a pixel listed past the probabilities. -/
theorem searchable_iff_within (layers : Layers Position) (sorts : DescendingSort F) {table : FitsTable F}
    (accepted : ¬ Rejected (parse3dSkymap table)) : Searchable layers sorts table ↔ Within layers table := by
  obtain ⟨stops, loads⟩ := (@parse_cases _ _ _ _ table).resolve_left accepted
  have keeps (read : Rejected (readPixels table)) : False := by
    obtain ⟨error, stopped⟩ := read
    exact accepted ⟨error, stops _ stopped⟩
  unfold Within
  cases isUniq : table.uniq with
  | some column =>
    have same : readPixels table = readUniq table column := by rw [readPixels, isUniq]
    rcases @readUniq_cases _ _ _ _ table column with rejected | ⟨pixels, probdensity, read, isProb, uniq, valid, areas, probs, rows⟩
    · exact (keeps (same ▸ rejected)).elim
    have small : ∀ pixel ∈ pixels.uniq, 4 ≤ pixel ∧ pixel < 2 ^ 64 := by
      intro pixel there
      refine ⟨valid pixel there, ?_⟩
      rw [uniq] at there
      obtain ⟨bits, -, rfl⟩ := List.mem_map.mp there
      exact bits.isLt
    obtain ⟨map, isMap, loaded, made⟩ := (loads pixels (same ▸ read) small areas (by omega)).resolve_left accepted
    have isRows : map.uniqToRow = some map.uniq.zipIdx := by rw [made.rows, rows, made.uniq]
    rw [searchable_iff isMap loaded (ang2pix_uniq loaded isRows), show map.maxOrder = finestOrder map.uniq from loaded.finest,
      finestOrder_le_iff fun pixel there => (loaded.valid pixel there).1, made.uniq, made.prob, uniq, List.forall_mem_map]
    refine and_congr_right fun _ => ?_
    simp only [isProb, Except.ok.injEq, forall_eq', probs]
    refine forall₂_congr fun position row => forall_congr' fun comes => ?_
    obtain ⟨pixel, isLast, -⟩ := comes
    have listed := (List.getElem?_eq_some_iff.mp isLast.1).1
    rw [← uniq] at listed
    omega
  | none =>
    have same : readPixels table = readFlat table := by rw [readPixels, isUniq]
    rcases @readFlat_cases _ _ _ _ table with rejected | ⟨nside, order, isNside, isPower, ⟨few, pixels, read, whole⟩ | ⟨rfl, faulty⟩⟩
    · exact (keeps (same ▸ rejected)).elim
    · have bounds := whole.bounds few
      have probs : pixels.prob.length = pixels.uniq.length := by
        rw [whole.prob, whole.uniq, List.length_map, List.length_range]
      obtain ⟨map, isMap, loaded, made⟩ := (loads pixels (same ▸ read)
        (fun pixel there => ⟨(bounds pixel there).1, (bounds pixel there).2.1⟩) whole.areas probs.le).resolve_left accepted
      have maxOrder := whole.maxOrder_eq few loaded made
      have comes (deep : map.maxOrder ≤ deepest) (position : Position) : ∃ found, map.ang2pix layers position = .ok found ∧
          ∀ row, found = some row ↔ layers.hash map.maxOrder position = row := by
        refine ⟨some (layers.hash map.maxOrder position), ?_, fun row => by rw [Option.some.injEq]⟩
        rw [LIGO3dskymap.ang2pix, nestedGet, if_pos deep, ok_bind, made.rows, whole.rows]
        rfl
      rw [searchable_iff isMap loaded comes, maxOrder]
      simp only [isNside, Except.ok.injEq, forall_eq', isPower]
      rw [Nat.pow_le_pow_iff_right (by norm_num)]
      refine and_iff_left_of_imp fun deep => ?_
      intro position
      rw [made.prob, whole.prob]
      exact layers.hash_lt order position deep
    · have isFault := stops _ (same ▸ faulty)
      simp only [isNside, Except.ok.injEq, forall_eq', isPower]
      refine iff_of_false (fun searchable => ?_) (by norm_num)
      have loads := searchable.loads
      rw [isFault] at loads
      exact not_runs_error _ loads

end

/-- A table of one pixel. -/
noncomputable def onePixel (pixel : BitVec 64) : FitsTable ℝ where
  distmu := some [some 100]
  distsigma := some [some 10]
  distnorm := some [some 1]
  uniq := some [pixel]
  probdensity := .ok [1]
  ordering := .error "no ORDERING"
  nside := .error "no NSIDE"
  prob := .error "no PROB"

def firstPixels : Layers Unit where
  hash _ _ := 0
  hash_lt _ _ _ := by positivity

/-- A table with a pixel of order 0 and one of order 1. -/
noncomputable def twoOrders : FitsTable ℝ where
  distmu := some [some 100, some 200]
  distsigma := some [some 10, some 20]
  distnorm := some [some 1, some 1]
  uniq := some [5, 16]
  probdensity := .ok [1, 2]
  ordering := .error "no ORDERING"
  nside := .error "no NSIDE"
  prob := .error "no PROB"

theorem runs_parse_twoOrders : Runs (parse3dSkymap twoOrders) :=
  ⟨_, rfl⟩

theorem searchable_twoOrders : Searchable firstPixels .merge twoOrders := by
  refine (searchable_iff_within firstPixels .merge ?_).mpr ⟨by simp, ?_⟩
  · rintro ⟨error, rejected⟩
    rw [runs_parse_twoOrders.choose_spec] at rejected
    cases rejected
  · rintro probdensity isProb position row ⟨pixel, isLast, -⟩
    cases isProb
    exact (List.getElem?_eq_some_iff.mp isLast.1).1

/-- A pixel of order 30 is loaded, and nothing is found in its map. -/
theorem order30_stops : Runs (parse3dSkymap (onePixel 0x4000000000000000)) ∧
    ¬ Searchable firstPixels .merge (onePixel 0x4000000000000000) := by
  refine ⟨⟨_, rfl⟩, fun searchable => ?_⟩
  obtain ⟨index, -, searched, -⟩ := searchable.searches _ rfl 1
  obtain ⟨value, ran⟩ := searched () 0
  obtain ⟨found, comes, -⟩ := bind_eq_ok.mp ran
  obtain ⟨layer, isLayer, -⟩ := bind_eq_ok.mp comes
  cases isLayer

end Boom.Utils.Skymap3d
