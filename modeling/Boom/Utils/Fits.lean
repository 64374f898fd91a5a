import Boom.Foundations.Decimal
import Boom.Foundations.Rows
import Mathlib.Data.List.ProdSigma

/-! # Cutouts

A cutout's bytes are decoded, two sizes are read from the block of its header, and the pixels
after it are put in the middle of a square and divided by their norm.  The decoding is given:
bytes become an error or any bytes.

The header is scanned by hand: a place that is not found is the first one. -/

namespace Boom.Utils.Fits

open Foundations

def bytesOf (text : String) : List UInt8 := text.toList.map fun char => UInt8.ofNat char.toNat

def NAXIS1_BYTES : List UInt8 := bytesOf "NAXIS1  ="
def NAXIS2_BYTES : List UInt8 := bytesOf "NAXIS2  ="
def FITS_HEADER_LEN : Nat := 2880
def NAXIS_STANDARD : Nat := 63
def NB_PIXELS : Nat := NAXIS_STANDARD * NAXIS_STANDARD
def SPACE : UInt8 := 32

inductive CutoutError where
  | decodeGzip
  | parseInt
deriving DecidableEq, Repr

/-! ## The header -/

def findKey (subset key : List UInt8) (start : Nat) : Option Nat :=
  (List.range' start (subset.length - key.length - start)).find? fun place => (subset.drop place).take key.length = key

def scan (subset : List UInt8) (start : Nat) (test : UInt8 → Bool) : Nat :=
  ((List.range' start (subset.length - start)).find? fun place => subset[place]?.any test).getD 0

def valueSpan (subset : List UInt8) (start : Nat) : Nat × Nat :=
  let first := scan subset start (· ≠ SPACE)
  (first, scan subset first (· = SPACE))

def naxis1Start (subset : List UInt8) : Nat := (findKey subset NAXIS1_BYTES 0).getD 0 + NAXIS1_BYTES.length

def naxis1Span (subset : List UInt8) : Nat × Nat := valueSpan subset (naxis1Start subset)

def naxis2Start (subset : List UInt8) : Nat :=
  let stop := (naxis1Span subset).2
  ((findKey subset NAXIS2_BYTES stop).map (· + NAXIS2_BYTES.length)).getD stop

def naxis2Span (subset : List UInt8) : Nat × Nat := valueSpan subset (naxis2Start subset)

def parseUsize (bytes : List UInt8) : Option Nat := Decimal.parseNat 64 (bytes.map fun byte => Char.ofNat byte.toNat)

def readSize (subset : List UInt8) (span : Nat × Nat) : ExceptT CutoutError Checked Nat := do
  let text ← ExceptT.lift (rangeAt subset span.1 span.2)
  orReject (parseUsize text) .parseInt

def Closed (subset : List UInt8) (start : Nat) : Prop :=
  ∀ place byte, start ≤ place → subset[place]? = some byte → byte ≠ SPACE →
    (∀ earlier, start ≤ earlier → earlier < place → subset[earlier]? = some SPACE) →
    ∃ later, place ≤ later ∧ subset[later]? = some SPACE

def sizeAt (subset : List UInt8) (span : Nat × Nat) : Option Nat := parseUsize ((subset.take span.2).drop span.1)

section

variable {subset : List UInt8} {start : Nat}

theorem scan_cases (subset : List UInt8) (start : Nat) (test : UInt8 → Bool) :
    (∃ byte, start ≤ scan subset start test ∧ subset[scan subset start test]? = some byte ∧ test byte = true ∧
        ∀ earlier, start ≤ earlier → earlier < scan subset start test → subset[earlier]?.any test = false) ∨
      scan subset start test = 0 ∧ ∀ place byte, start ≤ place → subset[place]? = some byte → test byte = false := by
  unfold scan
  cases found : (List.range' start (subset.length - start)).find? fun place => subset[place]?.any test with
  | none =>
    refine .inr ⟨rfl, fun place byte from_ there => ?_⟩
    have inside := (List.getElem?_eq_some_iff.mp there).1
    have none_ := List.find?_eq_none.mp found place (List.mem_range'_1.mpr (by omega))
    simpa [there] using none_
  | some place =>
    obtain ⟨passes, inside, earlier⟩ := List.find?_range'_eq_some.mp found
    obtain ⟨byte, there, holds⟩ := (Option.any_eq_true _ _).mp passes
    refine .inl ⟨byte, (List.mem_range'_1.mp inside).1, there, holds, fun place from_ before => ?_⟩
    simpa using earlier place from_ before

theorem scan_le (subset : List UInt8) (start : Nat) (test : UInt8 → Bool) : scan subset start test ≤ subset.length := by
  rcases scan_cases subset start test with ⟨byte, _, there, _⟩ | ⟨zero, _⟩
  · exact (List.getElem?_eq_some_iff.mp there).1.le
  · omega

theorem valueSpan_le_iff (positive : 0 < start) :
    (valueSpan subset start).1 ≤ (valueSpan subset start).2 ↔ Closed subset start := by
  show scan subset start (· ≠ SPACE) ≤ scan subset (scan subset start (· ≠ SPACE)) (· = SPACE) ↔ Closed subset start
  rcases scan_cases subset start (· ≠ SPACE) with ⟨byte, from_, there, other, earlier⟩ | ⟨zero, none_⟩
  · generalize scan subset start (· ≠ SPACE) = first at *
    have spaces : ∀ place, start ≤ place → place < first → subset[place]? = some SPACE := by
      intro place from_ before
      have inside : place < subset.length := before.trans (List.getElem?_eq_some_iff.mp there).1
      simpa [inside] using earlier place from_ before
    rcases scan_cases subset first (· = SPACE) with ⟨space, later, isThere, isSpace, -⟩ | ⟨zero, none_⟩
    · refine iff_of_true later fun place byte _ there' other' spaces' => ?_
      -- There is only one first byte that is no space.
      have le : place ≤ first := by
        by_contra less
        have := spaces' first from_ (by omega)
        simp_all
      refine ⟨_, le.trans later, ?_⟩
      rw [isThere, of_decide_eq_true isSpace]
    · refine iff_of_false (by omega) fun closed => ?_
      obtain ⟨later, le, isSpace⟩ := closed first byte from_ there (by simpa using other) spaces
      simpa using none_ later SPACE le isSpace
  · refine iff_of_true (by omega) fun place byte from_ there other _ => ?_
    exact absurd (none_ place byte from_ there) (by simpa using other)

theorem runs_readSize_bind {α : Type} {span : Nat × Nat} {rest : Nat → ExceptT CutoutError Checked α}
    (inside : span.2 ≤ subset.length) :
    Runs (readSize subset span >>= rest).run ↔
      span.1 ≤ span.2 ∧ ∀ size, sizeAt subset span = some size → Runs (rest size).run := by
  unfold readSize
  rw [bind_assoc, runs_liftExcept_bind]
  simp only [runs_orReject_bind]
  by_cases ordered : span.1 ≤ span.2
  · have read : rangeAt subset span.1 span.2 = .ok ((subset.take span.2).drop span.1) := if_pos ⟨ordered, inside⟩
    simp [read, ordered, runs_ok, sizeAt]
  · have fails : rangeAt subset span.1 span.2 = .error .outOfRange := if_neg fun both => ordered both.1
    simp [fails, ordered, not_runs_error]

theorem returns_readSize_iff {span : Nat × Nat} {size : Nat} (inside : span.2 ≤ subset.length) :
    Returns (readSize subset span) size ↔ span.1 ≤ span.2 ∧ sizeAt subset span = some size := by
  unfold readSize
  simp only [returns_bind_iff, returns_liftExcept_iff, returns_orReject_iff]
  constructor
  · rintro ⟨text, isText, parsed⟩
    have ordered := (runs_rangeAt_iff.mp ⟨text, isText⟩).1
    rw [rangeAt, if_pos ⟨ordered, inside⟩] at isText
    obtain rfl := Except.ok.inj isText
    exact ⟨ordered, parsed⟩
  · rintro ⟨ordered, parsed⟩
    exact ⟨_, if_pos ⟨ordered, inside⟩, parsed⟩

theorem naxis1Start_pos (subset : List UInt8) : 0 < naxis1Start subset := by
  have length : NAXIS1_BYTES.length = 9 := by decide
  unfold naxis1Start
  omega

theorem naxis2Start_pos {size : Nat} (parsed : sizeAt subset (naxis1Span subset) = some size) :
    0 < naxis2Start subset := by
  have stop : 0 < (naxis1Span subset).2 := by
    by_contra zero
    obtain zero : (naxis1Span subset).2 = 0 := by omega
    have none_ : parseUsize [] = none := by decide
    rw [sizeAt, zero, List.take_zero, List.drop_nil, none_] at parsed
    cases parsed
  have length : NAXIS2_BYTES.length = 9 := by decide
  unfold naxis2Start
  dsimp only
  cases findKey subset NAXIS2_BYTES (naxis1Span subset).2 with
  | none => exact stop
  | some place =>
    simp only [Option.map_some, Option.getD_some]
    omega

theorem valueSpan_le (subset : List UInt8) (start : Nat) : (valueSpan subset start).2 ≤ subset.length :=
  scan_le subset _ _

theorem naxis1Span_le (subset : List UInt8) : (naxis1Span subset).2 ≤ subset.length := by
  rw [naxis1Span]
  exact valueSpan_le _ _

theorem naxis2Span_le (subset : List UInt8) : (naxis2Span subset).2 ≤ subset.length := by
  rw [naxis2Span]
  exact valueSpan_le _ _

end

/-! ## The image -/

def u8ToF32Vec : List UInt8 → List F32
  | first :: second :: third :: fourth :: rest =>
    .ofBits (((first.toNat * 256 + second.toNat) * 256 + third.toNat) * 256 + fourth.toNat) :: u8ToF32Vec rest
  | _ => []

def offsetOf (size : Nat) : Nat := (NAXIS_STANDARD - size + 1) / 2

def pad (naxis1 naxis2 : Nat) (pixels : List F32) : Checked (List F32) :=
  ((List.range naxis2).flatMap fun i => (List.range naxis1).map fun j => (i, j)).foldlM
    (fun image cell => do
      let pixel ← readAt pixels (cell.1 * naxis1 + cell.2)
      setAt image ((cell.1 + offsetOf naxis2) * NAXIS_STANDARD + (cell.2 + offsetOf naxis1)) pixel)
    (List.replicate NB_PIXELS .zero)

def cropImage (naxis1 naxis2 : Nat) (data : List UInt8) : Checked (List F32) := do
  let count ← checkedMul 64 naxis1 naxis2
  let size ← checkedMul 64 count 4
  let stop ← checkedAdd 64 FITS_HEADER_LEN size
  let raw ← rangeAt data FITS_HEADER_LEN stop
  let _ ← checkedSub NAXIS_STANDARD naxis1
  let _ ← checkedSub NAXIS_STANDARD naxis2
  if offsetOf naxis1 = 0 ∧ offsetOf naxis2 = 0 then pure (u8ToF32Vec raw)
  else pad naxis1 naxis2 (u8ToF32Vec raw)

def framedAt (naxis1 naxis2 : Nat) (pixels : List F32) (row column : Nat) : F32 :=
  if (offsetOf naxis2 ≤ row ∧ row < offsetOf naxis2 + naxis2) ∧
      offsetOf naxis1 ≤ column ∧ column < offsetOf naxis1 + naxis1 then
    pixels.getD ((row - offsetOf naxis2) * naxis1 + (column - offsetOf naxis1)) .zero
  else .zero

def framed (naxis1 naxis2 : Nat) (pixels : List F32) : List F32 :=
  (List.range NB_PIXELS).map fun place =>
    framedAt naxis1 naxis2 pixels (place / NAXIS_STANDARD) (place % NAXIS_STANDARD)

theorem foldlM_setAt {α β : Type} {read : α → Checked β} {place : α → Nat} {made : α → β} {cells : List α}
    {base : List β} (reads : ∀ cell ∈ cells, read cell = .ok (made cell))
    (inside : ∀ cell ∈ cells, place cell < base.length) :
    cells.foldlM (fun image cell => do
      let item ← read cell
      setAt image (place cell) item) base = .ok (scatter (cells.map fun cell => (place cell, made cell)) base) := by
  induction cells generalizing base with
  | nil => rfl
  | cons cell rest ih =>
    obtain ⟨readsFirst, readsRest⟩ := List.forall_mem_cons.mp reads
    obtain ⟨insideFirst, insideRest⟩ := List.forall_mem_cons.mp inside
    rw [List.foldlM_cons, readsFirst, ok_bind, setAt, if_pos insideFirst, ok_bind]
    rw [ih readsRest (by simpa using insideRest)]
    rfl

theorem lookup_map_of_mem {α β : Type} {place : α → Nat} {made : α → β} {cells : List α} {cell : α}
    (apart : ∀ other ∈ cells, place other = place cell → other = cell) (there : cell ∈ cells) :
    (cells.map fun cell => (place cell, made cell)).lookup (place cell) = some (made cell) := by
  induction cells with
  | nil => cases there
  | cons first rest ih =>
    obtain ⟨apartFirst, apartRest⟩ := List.forall_mem_cons.mp apart
    rw [List.map_cons, List.lookup_cons]
    by_cases same : place first = place cell
    · rw [apartFirst same]
      simp
    · have differs : (place cell == place first) = false := by simpa using Ne.symm same
      rw [differs]
      refine ih apartRest ((List.mem_cons.mp there).resolve_left fun same' => ?_)
      exact same (by rw [same'])

section

variable {naxis1 naxis2 : Nat} {pixels : List F32}

theorem offsetOf_add_lt {size place : Nat} (fits : size ≤ NAXIS_STANDARD) (inside : place < size) :
    place + offsetOf size < NAXIS_STANDARD := by
  unfold offsetOf
  unfold NAXIS_STANDARD at *
  omega

theorem pixel_lt {row column : Nat} (high : row < naxis2) (wide : column < naxis1) :
    row * naxis1 + column < naxis1 * naxis2 := by
  calc row * naxis1 + column < (row + 1) * naxis1 := by rw [Nat.succ_mul]; omega
    _ ≤ naxis2 * naxis1 := Nat.mul_le_mul_right _ high
    _ = naxis1 * naxis2 := Nat.mul_comm _ _

theorem place_eq {row column place : Nat} (inside : column < NAXIS_STANDARD) :
    row * NAXIS_STANDARD + column = place ↔ row = place / NAXIS_STANDARD ∧ column = place % NAXIS_STANDARD := by
  unfold NAXIS_STANDARD at *
  omega

theorem pad_eq (wide : naxis1 ≤ NAXIS_STANDARD) (high : naxis2 ≤ NAXIS_STANDARD)
    (count : pixels.length = naxis1 * naxis2) : pad naxis1 naxis2 pixels = .ok (framed naxis1 naxis2 pixels) := by
  let place (cell : Nat × Nat) := (cell.1 + offsetOf naxis2) * NAXIS_STANDARD + (cell.2 + offsetOf naxis1)
  let made (cell : Nat × Nat) := pixels.getD (cell.1 * naxis1 + cell.2) .zero
  let cells := (List.range naxis2).product (List.range naxis1)
  have within : ∀ cell ∈ cells, cell.1 < naxis2 ∧ cell.2 < naxis1 := by
    intro cell there
    simpa using List.mem_product.mp there
  have placed : ∀ cell ∈ cells, ∀ index, place cell = index ↔
      cell.1 + offsetOf naxis2 = index / NAXIS_STANDARD ∧ cell.2 + offsetOf naxis1 = index % NAXIS_STANDARD :=
    fun cell there _ => place_eq (offsetOf_add_lt wide (within cell there).2)
  have apart : ∀ cell ∈ cells, ∀ other ∈ cells, place other = place cell → other = cell := by
    intro cell there other there' same
    have both := (placed other there' _).mp same
    have self := (placed cell there _).mp rfl
    exact Prod.ext (by omega) (by omega)
  have reads : ∀ cell ∈ cells, readAt pixels (cell.1 * naxis1 + cell.2) = .ok (made cell) := by
    intro cell there
    have inside : cell.1 * naxis1 + cell.2 < pixels.length := by
      rw [count]
      exact pixel_lt (within cell there).1 (within cell there).2
    rw [readAt_of_lt inside]
    simp [made, List.getD_eq_getElem?_getD, inside]
  have inside : ∀ cell ∈ cells, place cell < (List.replicate NB_PIXELS F32.zero).length := by
    intro cell there
    have first := offsetOf_add_lt high (within cell there).1
    have second := offsetOf_add_lt wide (within cell there).2
    have square := pixel_lt first second
    rwa [List.length_replicate]
  have distinct : ((cells.map fun cell => (place cell, made cell)).map Prod.fst).Nodup := by
    rw [List.map_map]
    refine List.Nodup.map_on (fun cell there other there' same => ?_) (List.nodup_range.product List.nodup_range)
    exact apart other there' cell there same
  refine (foldlM_setAt reads inside).trans (congrArg Except.ok (List.ext_getElem? fun index => ?_))
  rw [getElem?_scatter distinct, List.length_replicate, framed, List.getElem?_map]
  by_cases small : index < NB_PIXELS
  · rw [if_pos small, List.getElem?_range small, List.getElem?_replicate, if_pos small, Option.map_some]
    unfold framedAt
    split
    · next middle =>
      -- The one cell that is written here.
      have there : (index / NAXIS_STANDARD - offsetOf naxis2, index % NAXIS_STANDARD - offsetOf naxis1) ∈ cells :=
        List.mem_product.mpr (by simp only [List.mem_range]; omega)
      have same := (placed _ there index).mpr (by dsimp only; omega)
      have looked : (cells.map fun cell => (place cell, made cell)).lookup _ = _ :=
        lookup_map_of_mem (apart _ there) there
      rw [same] at looked
      rw [looked]
      rfl
    · next outside =>
      have none_ : (cells.map fun cell => (place cell, made cell)).lookup index = none := by
        rw [List.lookup_eq_none_iff]
        intro write there
        obtain ⟨cell, isCell, rfl⟩ := List.mem_map.mp there
        have differs : index ≠ place cell := by
          intro same
          have both := (placed cell isCell index).mp same.symm
          have bounds := within cell isCell
          omega
        simpa using differs
      rw [none_, Option.none_or]
  · rw [if_neg small, List.getElem?_eq_none (by simpa using small)]
    rfl

theorem offsetOf_eq_zero_iff {size : Nat} (fits : size ≤ NAXIS_STANDARD) : offsetOf size = 0 ↔ size = NAXIS_STANDARD := by
  unfold offsetOf
  omega

theorem framed_standard (count : pixels.length = NB_PIXELS) : framed NAXIS_STANDARD NAXIS_STANDARD pixels = pixels := by
  have none_ : offsetOf NAXIS_STANDARD = 0 := rfl
  refine List.ext_getElem? fun index => ?_
  rw [framed, List.getElem?_map]
  by_cases small : index < NB_PIXELS
  · have row : index / NAXIS_STANDARD < NAXIS_STANDARD := Nat.div_lt_of_lt_mul small
    have column : index % NAXIS_STANDARD < NAXIS_STANDARD := Nat.mod_lt _ (by decide)
    have whole : index / NAXIS_STANDARD * NAXIS_STANDARD + index % NAXIS_STANDARD = index := Nat.div_add_mod' _ _
    rw [List.getElem?_range small, Option.map_some, framedAt, none_,
      if_pos ⟨⟨Nat.zero_le _, by rwa [Nat.zero_add]⟩, Nat.zero_le _, by rwa [Nat.zero_add]⟩]
    simp only [Nat.sub_zero, whole]
    simp [count, small]
  · rw [List.getElem?_eq_none (by simpa using small), List.getElem?_eq_none (by omega)]
    rfl

theorem length_u8ToF32Vec {count : Nat} {bytes : List UInt8} (enough : bytes.length = count * 4) :
    (u8ToF32Vec bytes).length = count := by
  induction count generalizing bytes with
  | zero =>
    obtain rfl : bytes = [] := List.eq_nil_of_length_eq_zero (by omega)
    rfl
  | succ count ih =>
    have more : bytes.length = count * 4 + 4 := by omega
    match bytes, more with
    | _ :: _ :: _ :: _ :: rest, more =>
      have fewer : rest.length = count * 4 := by
        simp only [List.length_cons] at more
        omega
      rw [u8ToF32Vec, List.length_cons, ih fewer]

end

def stopOf (naxis1 naxis2 : Nat) : Nat := FITS_HEADER_LEN + naxis1 * naxis2 * 4

def pixelsOf (naxis1 naxis2 : Nat) (data : List UInt8) : List F32 :=
  u8ToF32Vec ((data.take (stopOf naxis1 naxis2)).drop FITS_HEADER_LEN)

def Holds (naxis1 naxis2 : Nat) (data : List UInt8) : Prop :=
  naxis1 ≤ NAXIS_STANDARD ∧ naxis2 ≤ NAXIS_STANDARD ∧ stopOf naxis1 naxis2 ≤ data.length

section

variable {naxis1 naxis2 : Nat} {data : List UInt8}

theorem length_pixelsOf (there : stopOf naxis1 naxis2 ≤ data.length) :
    (pixelsOf naxis1 naxis2 data).length = naxis1 * naxis2 := by
  refine length_u8ToF32Vec ?_
  rw [List.length_drop, List.length_take, Nat.min_eq_left there, stopOf]
  omega

theorem cropImage_eq (holds : Holds naxis1 naxis2 data) :
    cropImage naxis1 naxis2 data = .ok (framed naxis1 naxis2 (pixelsOf naxis1 naxis2 data)) := by
  obtain ⟨wide, high, there⟩ := holds
  have count := length_pixelsOf there
  have few : naxis1 * naxis2 ≤ NAXIS_STANDARD * NAXIS_STANDARD := Nat.mul_le_mul wide high
  have square : NAXIS_STANDARD * NAXIS_STANDARD = 3969 := rfl
  have header : FITS_HEADER_LEN = 2880 := rfl
  unfold cropImage checkedMul checkedAdd
  rw [fits_of_lt (by omega), ok_bind, fits_of_lt (by omega), ok_bind, fits_of_lt (by omega), ok_bind]
  rw [rangeAt, if_pos ⟨by omega, there⟩, ok_bind, checkedSub_of_le wide, ok_bind, checkedSub_of_le high, ok_bind]
  split
  · next none_ =>
    -- Nothing is left over, and the pixels are the image.
    obtain rfl := (offsetOf_eq_zero_iff wide).mp none_.1
    obtain rfl := (offsetOf_eq_zero_iff high).mp none_.2
    rw [framed_standard count]
    rfl
  · exact pad_eq wide high count

theorem holds_of_cropImage {image : List F32} (ok : cropImage naxis1 naxis2 data = .ok image) : Holds naxis1 naxis2 data := by
  unfold cropImage checkedMul checkedAdd at ok
  obtain ⟨count, isCount, ok⟩ := bind_eq_ok.mp ok
  obtain ⟨size, isSize, ok⟩ := bind_eq_ok.mp ok
  obtain ⟨stop, isStop, ok⟩ := bind_eq_ok.mp ok
  obtain ⟨raw, isRaw, ok⟩ := bind_eq_ok.mp ok
  obtain ⟨_, wide, ok⟩ := bind_eq_ok.mp ok
  obtain ⟨_, high, -⟩ := bind_eq_ok.mp ok
  obtain rfl := eq_of_fits isCount
  obtain rfl := eq_of_fits isSize
  obtain rfl := eq_of_fits isStop
  exact ⟨runs_checkedSub_iff.mp ⟨_, wide⟩, runs_checkedSub_iff.mp ⟨_, high⟩, (runs_rangeAt_iff.mp ⟨_, isRaw⟩).2⟩

theorem runs_cropImage_iff : Runs (cropImage naxis1 naxis2 data) ↔ Holds naxis1 naxis2 data :=
  ⟨fun ⟨_, ok⟩ => holds_of_cropImage ok, fun holds => ⟨_, cropImage_eq holds⟩⟩

end

section

variable (decodeGzip : List UInt8 → Option (List UInt8))

def bufferToImage (buffer : List UInt8) : ExceptT CutoutError Checked (List F32) := do
  let data ← orReject (decodeGzip buffer) .decodeGzip
  let subset ← ExceptT.lift (rangeAt data 0 FITS_HEADER_LEN)
  let naxis1 ← readSize subset (naxis1Span subset)
  let naxis2 ← readSize subset (naxis2Span subset)
  ExceptT.lift (cropImage naxis1 naxis2 data)

def cleaned : F32 → F32
  | .nan => .zero
  | .infinite negative => .finite negative F32.largest
  | .finite negative units => .finite negative units

def normalizeImage (image : List F32) : List F32 :=
  let normalized := image.map cleaned
  normalized.map (·.div (F32.norm normalized))

def prepareCutout (cutout : List UInt8) : ExceptT CutoutError Checked (List F32) := do
  let image ← bufferToImage decodeGzip cutout
  pure (normalizeImage image)

def prepareTriplet (science template difference : List UInt8) :
    ExceptT CutoutError Checked (List F32 × List F32 × List F32) := do
  let science ← prepareCutout decodeGzip science
  let template ← prepareCutout decodeGzip template
  let difference ← prepareCutout decodeGzip difference
  pure (science, template, difference)

end

end Boom.Utils.Fits
