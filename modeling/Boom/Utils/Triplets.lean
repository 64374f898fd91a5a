import Boom.Utils.Fits

/-! # Which cutouts the models can be given

A cutout is read without a fault when the block of its header is whole, both values in it end with a
space, and an image of the sizes read is no larger than the square and all there.  Its pixels are
numbers when one of them is not too small to be squared. -/

namespace Boom.Utils.Fits

open Foundations

/-! ## Numbers of a normalized image -/

section

variable {image : List F32} {pixel : F32}

theorem isFinite_cleaned (pixel : F32) : (cleaned pixel).isFinite = true := by
  match pixel with
  | .nan | .infinite _ | .finite _ _ => rfl

def Storable (pixel : F32) : Prop := pixel.magnitude ≤ 2 ^ F32.limitBits

theorem le_limit (significand shift : Nat) (short : significand ≤ 2 ^ 24) (low : shift ≤ 253) :
    significand * 2 ^ shift ≤ 2 ^ F32.limitBits := by
  have parts : F32.limitBits = 24 + 253 := F32.limitBits_eq
  rw [parts, Nat.pow_add]
  exact Nat.mul_le_mul short (Nat.pow_le_pow_right Nat.two_pos low)

theorem storable_ofBits (bits : Nat) : Storable (F32.ofBits bits) := by
  have fraction : bits % 2 ^ 23 < 2 ^ 23 := Nat.mod_lt _ (Nat.two_pow_pos 23)
  have exponent : bits / 2 ^ 23 % 2 ^ 8 < 2 ^ 8 := Nat.mod_lt _ (Nat.two_pow_pos 8)
  unfold Storable F32.ofBits
  dsimp only
  split
  next => split <;> exact Nat.zero_le _
  next notLast =>
    unfold F32.magnitude
    dsimp only
    split
    next =>
      have subnormal := le_limit (bits % 2 ^ 23) 0 (by omega) (Nat.zero_le _)
      rwa [Nat.pow_zero, Nat.mul_one] at subnormal
    next => exact le_limit _ _ (by omega) (by omega)

theorem largest_le : F32.largest ≤ 2 ^ F32.limitBits :=
  le_limit (2 ^ 24 - 1) 253 (Nat.sub_le _ _) (Nat.le_refl 253)

theorem storable_cleaned (storable : Storable pixel) : Storable (cleaned pixel) := by
  unfold cleaned
  split
  next => exact Nat.zero_le _
  next =>
    rw [Storable, F32.magnitude]
    exact largest_le
  next => exact storable

theorem storable_u8ToF32Vec (bytes : List UInt8) : ∀ pixel ∈ u8ToF32Vec bytes, Storable pixel := by
  induction bytes using u8ToF32Vec.induct with
  | case1 first second third fourth rest ih =>
    rw [u8ToF32Vec]
    exact List.forall_mem_cons.mpr ⟨storable_ofBits _, ih⟩
  | case2 bytes short =>
    intro pixel there
    rw [u8ToF32Vec] at there
    · cases there
    · exact short

def Bright (pixel : F32) : Prop := 2 ^ 74 < (cleaned pixel).magnitude

def normOf (image : List F32) : F32 := F32.norm (image.map cleaned)

theorem normalizeImage_eq (image : List F32) : normalizeImage image = image.map fun pixel => (cleaned pixel).div (normOf image) :=
  List.map_map

theorem finite_cleaned (image : List F32) : ∀ pixel ∈ image.map cleaned, pixel.isFinite = true := by
  intro pixel there
  obtain ⟨stored, -, rfl⟩ := List.mem_map.mp there
  exact isFinite_cleaned stored

theorem atLeast_normOf (bright : ∃ pixel ∈ image, Bright pixel) : F32.AtLeast 74 (normOf image) := by
  obtain ⟨pixel, there, isBright⟩ := bright
  exact F32.atLeast_norm_of_large (finite_cleaned image) ⟨_, List.mem_map_of_mem there, isBright⟩

theorem finite_normalizeImage_iff (some_ : image ≠ []) (storable : ∀ pixel ∈ image, Storable pixel) :
    (∀ pixel ∈ normalizeImage image, pixel.isFinite = true) ↔ ∃ pixel ∈ image, Bright pixel := by
  have finite := finite_cleaned image
  rw [normalizeImage_eq, List.forall_mem_map]
  constructor
  · intro each
    by_contra none_
    have small : ∀ pixel ∈ image.map cleaned, pixel.magnitude ≤ 2 ^ 74 := by
      intro pixel there
      obtain ⟨stored, isStored, rfl⟩ := List.mem_map.mp there
      exact Nat.not_lt.mp fun isBright => none_ ⟨stored, isStored, isBright⟩
    obtain ⟨pixel, there⟩ := List.exists_mem_of_ne_nil _ some_
    have whole := each pixel there
    rw [normOf, F32.norm_eq_zero finite small, F32.isFinite_div_zero] at whole
    cases whole
  · rintro ⟨bright, there, isBright⟩ pixel there'
    have bounded : ∀ value ∈ image.map cleaned, value.magnitude ≤ 2 ^ F32.limitBits := by
      intro value isValue
      obtain ⟨stored, isStored, rfl⟩ := List.mem_map.mp isValue
      exact storable_cleaned (storable stored isStored)
    exact F32.isFinite_div_norm finite bounded ⟨_, List.mem_map_of_mem there, isBright⟩ (List.mem_map_of_mem there')

end

/-! ## Data that is read -/

def headerOf (data : List UInt8) : List UInt8 := data.take FITS_HEADER_LEN

def Legible (data : List UInt8) (naxis1 naxis2 : Nat) : Prop :=
  sizeAt (headerOf data) (naxis1Span (headerOf data)) = some naxis1 ∧
    sizeAt (headerOf data) (naxis2Span (headerOf data)) = some naxis2

def Sound (data : List UInt8) : Prop :=
  FITS_HEADER_LEN ≤ data.length ∧ Closed (headerOf data) (naxis1Start (headerOf data)) ∧
    ∀ naxis1, sizeAt (headerOf data) (naxis1Span (headerOf data)) = some naxis1 →
      Closed (headerOf data) (naxis2Start (headerOf data)) ∧
        ∀ naxis2, sizeAt (headerOf data) (naxis2Span (headerOf data)) = some naxis2 → Holds naxis1 naxis2 data

section

variable (decodeGzip : List UInt8 → Option (List UInt8)) {cutout data : List UInt8} {image : List F32} {naxis1 naxis2 : Nat}

theorem Sound.holds (sound : Sound data) (legible : Legible data naxis1 naxis2) : Holds naxis1 naxis2 data :=
  (sound.2.2 naxis1 legible.1).2 naxis2 legible.2

theorem rangeAt_header (whole : FITS_HEADER_LEN ≤ data.length) : rangeAt data 0 FITS_HEADER_LEN = .ok (headerOf data) :=
  if_pos ⟨Nat.zero_le _, whole⟩

theorem runs_bufferToImage_iff :
    Runs (bufferToImage decodeGzip cutout).run ↔ ∀ data, decodeGzip cutout = some data → Sound data := by
  unfold bufferToImage
  rw [runs_orReject_bind]
  refine forall_congr' fun data => imp_congr_right fun _ => ?_
  rw [runs_liftExcept_bind]
  constructor
  · rintro ⟨header, rest⟩
    have whole := (runs_rangeAt_iff.mp header).2
    have read := rest _ (rangeAt_header whole)
    obtain ⟨ordered, later⟩ := (runs_readSize_bind (naxis1Span_le _)).mp read
    refine ⟨whole, (valueSpan_le_iff (naxis1Start_pos _)).mp ordered, fun naxis1 isNaxis1 => ?_⟩
    obtain ⟨ordered', crops⟩ := (runs_readSize_bind (naxis2Span_le _)).mp (later naxis1 isNaxis1)
    refine ⟨(valueSpan_le_iff (naxis2Start_pos isNaxis1)).mp ordered', fun naxis2 isNaxis2 => ?_⟩
    exact runs_cropImage_iff.mp (runs_liftExcept.mp (crops naxis2 isNaxis2))
  · rintro ⟨whole, closed, later⟩
    refine ⟨⟨_, rangeAt_header whole⟩, fun subset isHeader => ?_⟩
    obtain rfl := Except.ok.inj ((rangeAt_header whole).symm.trans isHeader)
    refine (runs_readSize_bind (naxis1Span_le _)).mpr ⟨(valueSpan_le_iff (naxis1Start_pos _)).mpr closed, fun naxis1 isNaxis1 => ?_⟩
    obtain ⟨closed', fits⟩ := later naxis1 isNaxis1
    refine (runs_readSize_bind (naxis2Span_le _)).mpr
      ⟨(valueSpan_le_iff (naxis2Start_pos isNaxis1)).mpr closed', fun naxis2 isNaxis2 => ?_⟩
    exact runs_liftExcept.mpr (runs_cropImage_iff.mpr (fits naxis2 isNaxis2))

theorem returns_bufferToImage_iff : Returns (bufferToImage decodeGzip cutout) image ↔
    ∃ data naxis1 naxis2, decodeGzip cutout = some data ∧ Sound data ∧ Legible data naxis1 naxis2 ∧
      framed naxis1 naxis2 (pixelsOf naxis1 naxis2 data) = image := by
  constructor
  · intro returns
    have runs : Runs (bufferToImage decodeGzip cutout).run := ⟨_, returns⟩
    rw [bufferToImage, returns_bind_iff] at returns
    obtain ⟨data, isData, returns⟩ := returns
    have decodes := returns_orReject_iff.mp isData
    have sound := (runs_bufferToImage_iff decodeGzip).mp runs data decodes
    obtain ⟨header, isHeader, returns⟩ := returns_bind_iff.mp returns
    obtain rfl := Except.ok.inj ((rangeAt_header sound.1).symm.trans (returns_liftExcept_iff.mp isHeader))
    obtain ⟨naxis1, isNaxis1, returns⟩ := returns_bind_iff.mp returns
    obtain ⟨naxis2, isNaxis2, crops⟩ := returns_bind_iff.mp returns
    have legible : Legible data naxis1 naxis2 :=
      ⟨((returns_readSize_iff (naxis1Span_le _)).mp isNaxis1).2, ((returns_readSize_iff (naxis2Span_le _)).mp isNaxis2).2⟩
    have cropped := (cropImage_eq (sound.holds legible)).symm.trans (returns_liftExcept_iff.mp crops)
    exact ⟨data, naxis1, naxis2, decodes, sound, legible, Except.ok.inj cropped⟩
  · rintro ⟨data, naxis1, naxis2, decodes, sound, legible, rfl⟩
    have closed := (sound.2.2 naxis1 legible.1).1
    rw [bufferToImage, returns_bind_iff]
    refine ⟨data, returns_orReject_iff.mpr decodes, returns_bind_iff.mpr ⟨_, returns_liftExcept_iff.mpr (rangeAt_header sound.1), ?_⟩⟩
    refine returns_bind_iff.mpr ⟨naxis1, (returns_readSize_iff (naxis1Span_le _)).mpr ?_, ?_⟩
    · exact ⟨(valueSpan_le_iff (naxis1Start_pos _)).mpr sound.2.1, legible.1⟩
    refine returns_bind_iff.mpr ⟨naxis2, (returns_readSize_iff (naxis2Span_le _)).mpr ?_, ?_⟩
    · exact ⟨(valueSpan_le_iff (naxis2Start_pos legible.1)).mpr closed, legible.2⟩
    · exact returns_liftExcept_iff.mpr (cropImage_eq (sound.holds legible))

end

/-! ## Sizes that a header gives -/

def Card (subset key : List UInt8) (from_ size stop : Nat) : Prop :=
  ∃ place spaces text rest, from_ ≤ place ∧
    subset.drop place = key ++ (List.replicate spaces SPACE ++ (text ++ SPACE :: rest)) ∧
    (∀ earlier, from_ ≤ earlier → earlier < place → (subset.drop earlier).take key.length ≠ key) ∧
    SPACE ∉ text ∧ parseUsize text = some size ∧ stop = place + key.length + spaces + text.length

def HeaderGives (data : List UInt8) (naxis1 naxis2 : Nat) : Prop :=
  ∃ stop stop', Card (headerOf data) NAXIS1_BYTES 0 naxis1 stop ∧ Card (headerOf data) NAXIS2_BYTES stop naxis2 stop'

section

variable {subset key text rest : List UInt8} {start place from_ size stop spaces : Nat} {data : List UInt8} {naxis1 naxis2 : Nat}

theorem scan_eq {test : UInt8 → Bool} (byte : UInt8) (from_ : start ≤ place) (there : subset[place]? = some byte)
    (passes : test byte = true) (earlier : ∀ other, start ≤ other → other < place → subset[other]?.any test = false) :
    scan subset start test = place := by
  have inside := (List.getElem?_eq_some_iff.mp there).1
  have first : (List.range' start (subset.length - start)).find? (fun place => subset[place]?.any test) = some place := by
    refine List.find?_range'_eq_some.mpr ⟨by simp [there, passes], List.mem_range'_1.mpr (by omega), fun other from_ before => ?_⟩
    simp [earlier other from_ before]
  rw [scan, first, Option.getD_some]

theorem getElem?_of_drop (offset : Nat) : subset[start + offset]? = (subset.drop start)[offset]? :=
  List.getElem?_drop.symm

theorem valueSpan_eq (isRest : subset.drop start = List.replicate spaces SPACE ++ (text ++ SPACE :: rest))
    (some_ : text ≠ []) (noSpace : SPACE ∉ text) :
    valueSpan subset start = (start + spaces, start + spaces + text.length) := by
  obtain ⟨byte, others, rfl⟩ := List.exists_cons_of_ne_nil some_
  have first : scan subset start (· ≠ SPACE) = start + spaces := by
    refine scan_eq byte (Nat.le_add_right _ _) ?_ ?_ fun other from_ before => ?_
    · rw [getElem?_of_drop, isRest, List.getElem?_append_right (by simp)]
      simp
    · exact decide_eq_true fun isSpace => noSpace (isSpace ▸ List.mem_cons_self)
    · obtain ⟨offset, rfl⟩ := Nat.exists_eq_add_of_le from_
      rw [getElem?_of_drop, isRest, List.getElem?_append_left (by simp; omega), List.getElem?_replicate, if_pos (by omega)]
      simp
  have second : scan subset (start + spaces) (· = SPACE) = start + spaces + (byte :: others).length := by
    have isRest' : subset.drop (start + spaces) = (byte :: others) ++ SPACE :: rest := by
      rw [← List.drop_drop, isRest, List.drop_left' (List.length_replicate ..)]
    refine scan_eq SPACE (Nat.le_add_right _ _) ?_ (decide_eq_true rfl) fun other from_ before => ?_
    · rw [getElem?_of_drop, isRest', List.getElem?_append_right (le_refl _), Nat.sub_self]
      rfl
    · obtain ⟨offset, rfl⟩ := Nat.exists_eq_add_of_le from_
      have inText : offset < (byte :: others).length := by omega
      rw [getElem?_of_drop, isRest', List.getElem?_append_left inText, List.getElem?_eq_getElem inText, Option.any_some]
      exact decide_eq_false fun isSpace => noSpace (isSpace ▸ List.getElem_mem inText)
  exact Prod.ext first (by rw [← second, ← first]; rfl)

theorem findKey_of_card (card : Card subset key from_ size stop) :
    ∃ place, findKey subset key from_ = some place ∧ (valueSpan subset (place + key.length)).2 = stop ∧
      sizeAt subset (valueSpan subset (place + key.length)) = some size := by
  obtain ⟨place, spaces, text, rest, from_', isCard, none_, noSpace, parsed, rfl⟩ := card
  have some_ : text ≠ [] := by
    rintro rfl
    have empty : parseUsize [] = none := by decide
    rw [empty] at parsed
    cases parsed
  have after : subset.drop (place + key.length) = List.replicate spaces SPACE ++ (text ++ SPACE :: rest) := by
    rw [← List.drop_drop, isCard, List.drop_left]
  have span := valueSpan_eq after some_ noSpace
  have length := congrArg List.length isCard
  rw [List.length_drop, List.length_append, List.length_append, List.length_append, List.length_cons] at length
  have found : findKey subset key from_ = some place := by
    refine List.find?_range'_eq_some.mpr ⟨decide_eq_true ?_, List.mem_range'_1.mpr (by omega), fun earlier from_ before => ?_⟩
    · rw [isCard, List.take_left]
    · simpa using none_ earlier from_ before
  refine ⟨place, found, by rw [span], ?_⟩
  have onlyText : (subset.take (place + key.length + spaces + text.length)).drop (place + key.length + spaces) = text := by
    rw [List.drop_take, Nat.add_sub_cancel_left, ← List.drop_drop, after, List.drop_left' (List.length_replicate ..),
      List.take_left]
  rw [sizeAt, span, onlyText, parsed]

theorem legible_of_gives (gives : HeaderGives data naxis1 naxis2) : Legible data naxis1 naxis2 := by
  obtain ⟨stop, stop', first, second⟩ := gives
  obtain ⟨place, found, ends_, isNaxis1⟩ := findKey_of_card first
  obtain ⟨place', found', -, isNaxis2⟩ := findKey_of_card second
  have span : naxis1Span (headerOf data) = valueSpan (headerOf data) (place + NAXIS1_BYTES.length) := by
    rw [naxis1Span, naxis1Start, found, Option.getD_some]
  have span' : naxis2Span (headerOf data) = valueSpan (headerOf data) (place' + NAXIS2_BYTES.length) := by
    rw [naxis2Span, naxis2Start, span, ends_, found', Option.map_some, Option.getD_some]
  exact ⟨span ▸ isNaxis1, span' ▸ isNaxis2⟩

theorem Legible.unique {naxis1' naxis2' : Nat} (legible : Legible data naxis1 naxis2) (legible' : Legible data naxis1' naxis2') :
    naxis1 = naxis1' ∧ naxis2 = naxis2' :=
  ⟨Option.some.inj (legible.1.symm.trans legible'.1), Option.some.inj (legible.2.symm.trans legible'.2)⟩

end

/-! ## Images in the middle of the square -/

def Centred (naxis1 naxis2 : Nat) (pixels : List F32) (norm : F32) (image : List F32) : Prop :=
  (∀ i j, i < naxis2 → j < naxis1 → ∃ pixel, pixels[i * naxis1 + j]? = some pixel ∧
    image[(i + offsetOf naxis2) * NAXIS_STANDARD + (j + offsetOf naxis1)]? = some ((cleaned pixel).div norm)) ∧
  ∀ place, place < NB_PIXELS →
    (∀ i j, i < naxis2 → j < naxis1 → (i + offsetOf naxis2) * NAXIS_STANDARD + (j + offsetOf naxis1) ≠ place) →
      image[place]? = some .zero

section

variable {naxis1 naxis2 i j place : Nat} {pixels : List F32} {pixel : F32} {data : List UInt8}

theorem length_framed (naxis1 naxis2 : Nat) (pixels : List F32) : (framed naxis1 naxis2 pixels).length = NB_PIXELS := by
  rw [framed, List.length_map, List.length_range]

theorem getElem?_framed (small : place < NB_PIXELS) : (framed naxis1 naxis2 pixels)[place]? =
    some (framedAt naxis1 naxis2 pixels (place / NAXIS_STANDARD) (place % NAXIS_STANDARD)) := by
  rw [framed, List.getElem?_map, List.getElem?_range small, Option.map_some]

theorem framed_inside (pixels : List F32) (wide : naxis1 ≤ NAXIS_STANDARD) (high : naxis2 ≤ NAXIS_STANDARD) (row : i < naxis2) (column : j < naxis1) :
    (framed naxis1 naxis2 pixels)[(i + offsetOf naxis2) * NAXIS_STANDARD + (j + offsetOf naxis1)]? =
      some (pixels.getD (i * naxis1 + j) .zero) := by
  have first := offsetOf_add_lt high row
  have second := offsetOf_add_lt wide column
  obtain ⟨isRow, isColumn⟩ := (place_eq second).mp (rfl : (i + offsetOf naxis2) * NAXIS_STANDARD + (j + offsetOf naxis1) = _)
  rw [getElem?_framed (pixel_lt first second), ← isRow, ← isColumn, framedAt, if_pos (by omega), Nat.add_sub_cancel,
    Nat.add_sub_cancel]

theorem framed_outside (small : place < NB_PIXELS)
    (outside : ∀ i j, i < naxis2 → j < naxis1 → (i + offsetOf naxis2) * NAXIS_STANDARD + (j + offsetOf naxis1) ≠ place) :
    (framed naxis1 naxis2 pixels)[place]? = some .zero := by
  rw [getElem?_framed small, framedAt, if_neg]
  rintro ⟨⟨low, high⟩, left, right⟩
  refine outside (place / NAXIS_STANDARD - offsetOf naxis2) (place % NAXIS_STANDARD - offsetOf naxis1) (by omega) (by omega) ?_
  rw [Nat.sub_add_cancel low, Nat.sub_add_cancel left, Nat.div_add_mod']

theorem mem_of_mem_framed (there : pixel ∈ framed naxis1 naxis2 pixels) : pixel ∈ pixels ∨ pixel = .zero := by
  obtain ⟨place, -, rfl⟩ := List.mem_map.mp there
  rw [framedAt]
  split
  next =>
    rw [List.getD_eq_getElem?_getD]
    cases found : pixels[(place / NAXIS_STANDARD - offsetOf naxis2) * naxis1 + (place % NAXIS_STANDARD - offsetOf naxis1)]? with
    | none => exact .inr rfl
    | some pixel => exact .inl (List.mem_of_getElem? found)
  next => exact .inr rfl

theorem mem_framed (wide : naxis1 ≤ NAXIS_STANDARD) (high : naxis2 ≤ NAXIS_STANDARD) (count : pixels.length = naxis1 * naxis2)
    (there : pixel ∈ pixels) : pixel ∈ framed naxis1 naxis2 pixels := by
  obtain ⟨index, isPixel⟩ := List.mem_iff_getElem?.mp there
  have inside := (List.getElem?_eq_some_iff.mp isPixel).1
  have positive : 0 < naxis1 := by
    by_contra none_
    rw [count, Nat.eq_zero_of_not_pos none_, Nat.zero_mul] at inside
    cases inside
  have row : index / naxis1 < naxis2 := Nat.div_lt_of_lt_mul (count ▸ inside)
  have placed := framed_inside pixels wide high row (Nat.mod_lt index positive)
  rw [Nat.div_add_mod', List.getD_eq_getElem?_getD, isPixel] at placed
  exact List.mem_of_getElem? placed

theorem not_bright_zero : ¬ Bright .zero := by
  have none_ : (cleaned F32.zero).magnitude = 0 := rfl
  rw [Bright, none_]
  exact Nat.not_lt.mpr (Nat.zero_le _)

theorem exists_bright_framed_iff (holds : Holds naxis1 naxis2 data) :
    (∃ pixel ∈ framed naxis1 naxis2 (pixelsOf naxis1 naxis2 data), Bright pixel) ↔
      ∃ pixel ∈ pixelsOf naxis1 naxis2 data, Bright pixel := by
  obtain ⟨wide, high, there⟩ := holds
  constructor
  · rintro ⟨pixel, isPixel, bright⟩
    rcases mem_of_mem_framed isPixel with old | rfl
    · exact ⟨pixel, old, bright⟩
    · exact absurd bright not_bright_zero
  · rintro ⟨pixel, isPixel, bright⟩
    exact ⟨pixel, mem_framed wide high (length_pixelsOf there) isPixel, bright⟩

theorem storable_framed : ∀ pixel ∈ framed naxis1 naxis2 (pixelsOf naxis1 naxis2 data), Storable pixel := by
  intro pixel there
  rcases mem_of_mem_framed there with old | rfl
  · exact storable_u8ToF32Vec _ pixel old
  · exact Nat.zero_le _

theorem zero_div_of_atLeast {norm : F32} {exponent : Nat} (atLeast : F32.AtLeast exponent norm) : F32.zero.div norm = .zero := by
  match norm with
  | .infinite false => rfl
  | .finite false units =>
    have positive : units ≠ 0 := ((Nat.two_pow_pos exponent).trans_le atLeast).ne'
    rw [F32.zero, F32.div, if_neg positive, Nat.zero_mul, F32.round_zero]
    rfl

theorem zero_div_normOf {image : List F32} (bright : ∃ pixel ∈ image, Bright pixel) : F32.zero.div (normOf image) = .zero :=
  zero_div_of_atLeast (atLeast_normOf bright)

theorem centred_normalizeImage (holds : Holds naxis1 naxis2 data) (bright : ∃ pixel ∈ pixelsOf naxis1 naxis2 data, Bright pixel) :
    Centred naxis1 naxis2 (pixelsOf naxis1 naxis2 data) (normOf (framed naxis1 naxis2 (pixelsOf naxis1 naxis2 data)))
      (normalizeImage (framed naxis1 naxis2 (pixelsOf naxis1 naxis2 data))) := by
  have bright' := (exists_bright_framed_iff holds).mpr bright
  obtain ⟨wide, high, there⟩ := holds
  rw [normalizeImage_eq]
  refine ⟨fun i j row column => ?_, fun place small outside => ?_⟩
  · have inside : i * naxis1 + j < (pixelsOf naxis1 naxis2 data).length := length_pixelsOf there ▸ pixel_lt row column
    refine ⟨_, List.getElem?_eq_getElem inside, ?_⟩
    rw [List.getElem?_map, framed_inside _ wide high row column, List.getD_eq_getElem _ _ inside, Option.map_some]
  · rw [List.getElem?_map, framed_outside small outside, Option.map_some]
    exact congrArg some (zero_div_normOf bright')

end

/-! ## Three cutouts -/

section

variable (decodeGzip : List UInt8 → Option (List UInt8)) (cutout : List UInt8)

structure IsImage (image : List F32) : Prop where
  size : image.length = NB_PIXELS
  finite : ∀ pixel ∈ image, pixel.isFinite = true
  centred : ∀ data naxis1 naxis2, decodeGzip cutout = some data → HeaderGives data naxis1 naxis2 →
    Centred naxis1 naxis2 (pixelsOf naxis1 naxis2 data) (normOf (framed naxis1 naxis2 (pixelsOf naxis1 naxis2 data))) image

def Sturdy : Prop := ∀ data, decodeGzip cutout = some data → Sound data

def Read : Prop := ∃ data naxis1 naxis2, decodeGzip cutout = some data ∧ Legible data naxis1 naxis2

def Lit : Prop := ∀ data naxis1 naxis2, decodeGzip cutout = some data → Legible data naxis1 naxis2 →
  ∃ pixel ∈ pixelsOf naxis1 naxis2 data, Bright pixel

variable {decodeGzip cutout} {image : List F32}

theorem runs_prepareCutout_iff : Runs (prepareCutout decodeGzip cutout).run ↔ Sturdy decodeGzip cutout := by
  unfold prepareCutout
  rw [runs_bind_iff_returns, runs_bufferToImage_iff]
  exact and_iff_left fun _ _ => runs_ok _

theorem returns_prepareCutout_iff : Returns (prepareCutout decodeGzip cutout) image ↔
    ∃ data naxis1 naxis2, decodeGzip cutout = some data ∧ Sound data ∧ Legible data naxis1 naxis2 ∧
      normalizeImage (framed naxis1 naxis2 (pixelsOf naxis1 naxis2 data)) = image := by
  unfold prepareCutout
  simp only [returns_bind_iff, returns_pure_iff, returns_bufferToImage_iff]
  constructor
  · rintro ⟨_, ⟨data, naxis1, naxis2, decodes, sound, legible, rfl⟩, rfl⟩
    exact ⟨data, naxis1, naxis2, decodes, sound, legible, rfl⟩
  · rintro ⟨data, naxis1, naxis2, decodes, sound, legible, rfl⟩
    exact ⟨_, ⟨data, naxis1, naxis2, decodes, sound, legible, rfl⟩, rfl⟩

theorem read_of_returns (returns : Returns (prepareCutout decodeGzip cutout) image) : Read decodeGzip cutout := by
  obtain ⟨data, naxis1, naxis2, decodes, -, legible, -⟩ := returns_prepareCutout_iff.mp returns
  exact ⟨data, naxis1, naxis2, decodes, legible⟩

theorem exists_returns (sturdy : Sturdy decodeGzip cutout) (read : Read decodeGzip cutout) :
    ∃ image, Returns (prepareCutout decodeGzip cutout) image := by
  obtain ⟨data, naxis1, naxis2, decodes, legible⟩ := read
  exact ⟨_, returns_prepareCutout_iff.mpr ⟨data, naxis1, naxis2, decodes, sturdy data decodes, legible, rfl⟩⟩

theorem isImage_iff (returns : Returns (prepareCutout decodeGzip cutout) image) :
    IsImage decodeGzip cutout image ↔ Lit decodeGzip cutout := by
  obtain ⟨data, naxis1, naxis2, decodes, sound, legible, rfl⟩ := returns_prepareCutout_iff.mp returns
  have holds := sound.holds legible
  have some_ : framed naxis1 naxis2 (pixelsOf naxis1 naxis2 data) ≠ [] := by
    refine List.ne_nil_of_length_pos ?_
    rw [length_framed]
    decide
  have finite := (finite_normalizeImage_iff some_ storable_framed).trans (exists_bright_framed_iff holds)
  constructor
  · intro isImage data' naxis1' naxis2' decodes' legible'
    obtain rfl := Option.some.inj (decodes.symm.trans decodes')
    obtain ⟨rfl, rfl⟩ := legible.unique legible'
    exact finite.mp isImage.finite
  · intro lit
    have bright := lit data naxis1 naxis2 decodes legible
    refine ⟨?_, finite.mpr bright, fun data' naxis1' naxis2' decodes' gives => ?_⟩
    · rw [normalizeImage_eq, List.length_map, length_framed]
    · obtain rfl := Option.some.inj (decodes.symm.trans decodes')
      obtain ⟨rfl, rfl⟩ := legible.unique (legible_of_gives gives)
      exact centred_normalizeImage holds bright

end

section

variable (decodeGzip : List UInt8 → Option (List UInt8)) (science template difference : List UInt8)

def Unharmed : Prop :=
  Runs (prepareTriplet decodeGzip science template difference).run ∧
    ∀ images, Returns (prepareTriplet decodeGzip science template difference) images →
      IsImage decodeGzip science images.1 ∧ IsImage decodeGzip template images.2.1 ∧ IsImage decodeGzip difference images.2.2

theorem returns_prepareTriplet_iff {images : List F32 × List F32 × List F32} :
    Returns (prepareTriplet decodeGzip science template difference) images ↔
      Returns (prepareCutout decodeGzip science) images.1 ∧ Returns (prepareCutout decodeGzip template) images.2.1 ∧
        Returns (prepareCutout decodeGzip difference) images.2.2 := by
  unfold prepareTriplet
  simp only [returns_bind_iff, returns_pure_iff]
  constructor
  · rintro ⟨first, isFirst, second, isSecond, third, isThird, rfl⟩
    exact ⟨isFirst, isSecond, isThird⟩
  · rintro ⟨isFirst, isSecond, isThird⟩
    exact ⟨_, isFirst, _, isSecond, _, isThird, rfl⟩

theorem runs_prepareTriplet_iff : Runs (prepareTriplet decodeGzip science template difference).run ↔
    Sturdy decodeGzip science ∧ (Read decodeGzip science → Sturdy decodeGzip template ∧
      (Read decodeGzip template → Sturdy decodeGzip difference)) := by
  unfold prepareTriplet
  simp only [runs_bind_iff_returns, runs_prepareCutout_iff]
  constructor
  · rintro ⟨sturdy, rest⟩
    refine ⟨sturdy, fun read => ?_⟩
    obtain ⟨image, returns⟩ := exists_returns sturdy read
    obtain ⟨sturdy', rest'⟩ := rest image returns
    refine ⟨sturdy', fun read' => ?_⟩
    obtain ⟨image', returns'⟩ := exists_returns sturdy' read'
    exact (rest' image' returns').1
  · rintro ⟨sturdy, rest⟩
    refine ⟨sturdy, fun image returns => ?_⟩
    obtain ⟨sturdy', rest'⟩ := rest (read_of_returns returns)
    exact ⟨sturdy', fun image' returns' => ⟨rest' (read_of_returns returns'), fun _ _ => runs_ok _⟩⟩

/-- The models are given three images, or none, exactly when each cutout that is looked at is sound and,
where all three are, each has a pixel that can be squared. -/
theorem prepareTriplet_unharmed_iff : Unharmed decodeGzip science template difference ↔
    Sturdy decodeGzip science ∧ (Read decodeGzip science → Sturdy decodeGzip template ∧
      (Read decodeGzip template → Sturdy decodeGzip difference ∧
        (Read decodeGzip difference → Lit decodeGzip science ∧ Lit decodeGzip template ∧ Lit decodeGzip difference))) := by
  unfold Unharmed
  rw [runs_prepareTriplet_iff]
  constructor
  · rintro ⟨⟨sturdy, rest⟩, each⟩
    refine ⟨sturdy, fun read => ?_⟩
    obtain ⟨sturdy', rest'⟩ := rest read
    refine ⟨sturdy', fun read' => ⟨rest' read', fun read'' => ?_⟩⟩
    obtain ⟨first, isFirst⟩ := exists_returns sturdy read
    obtain ⟨second, isSecond⟩ := exists_returns sturdy' read'
    obtain ⟨third, isThird⟩ := exists_returns (rest' read') read''
    have images := each (first, second, third)
      ((returns_prepareTriplet_iff decodeGzip science template difference).mpr ⟨isFirst, isSecond, isThird⟩)
    exact ⟨(isImage_iff isFirst).mp images.1, (isImage_iff isSecond).mp images.2.1, (isImage_iff isThird).mp images.2.2⟩
  · rintro ⟨sturdy, rest⟩
    refine ⟨⟨sturdy, fun read => ⟨(rest read).1, fun read' => ((rest read).2 read').1⟩⟩, fun images returns => ?_⟩
    obtain ⟨isFirst, isSecond, isThird⟩ := (returns_prepareTriplet_iff decodeGzip science template difference).mp returns
    have lit := (((rest (read_of_returns isFirst)).2 (read_of_returns isSecond)).2 (read_of_returns isThird))
    exact ⟨(isImage_iff isFirst).mpr lit.1, (isImage_iff isSecond).mpr lit.2.1, (isImage_iff isThird).mpr lit.2.2⟩

end

def emptyFile : List UInt8 := [31, 139, 8, 0, 0, 0, 0, 0, 0, 3, 3, 0, 0, 0, 0, 0, 0, 0, 0, 0]

/-- Nothing at all is sliced as if it were a header. -/
theorem empty_cutout_faults :
    ¬ Unharmed (fun cutout => if cutout = emptyFile then some [] else none) emptyFile emptyFile emptyFile := by
  rintro ⟨runs, -⟩
  have sound := ((runs_prepareTriplet_iff _ _ _ _).mp runs).1 [] (if_pos rfl)
  exact absurd sound.1 (by decide)

end Boom.Utils.Fits
