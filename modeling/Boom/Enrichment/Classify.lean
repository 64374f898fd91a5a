import Boom.Enrichment.Outburst
import Boom.Foundations.Rows
import Boom.Foundations.Except

/-! # Classifying a batch

The classifiers run on the CPU one alert at a time, or on the GPU in padded chunks of
one size.  A model is a function of one row.  An alert whose inputs cannot be prepared is
left without classifications. -/

namespace Boom.Enrichment

open Boom.Foundations

/-! ## What is classified -/

structure PhotometryMag where
  time : F64
  mag : F32
  magErr : F32
  band : Nat

structure ZtfAlertProperties (φ : Type) where
  features : φ
  sso : ZtfSsoAssociation
  outburst : Option Outburst

structure AlertWork (ρ κ φ β : Type) where
  candid : Int
  programid : Int
  properties : ZtfAlertProperties φ
  allBandsProperties : β
  cutouts : κ
  alert : ZtfAlertForEnrichment ρ
  ztfLightcurve : List PhotometryMag

structure Scores where
  acaiH : F32
  acaiN : F32
  acaiV : F32
  acaiO : F32
  acaiB : F32
  btsbot : F32
deriving DecidableEq

structure ZtfAlertClassifications (δ : Type) where
  scores : Scores
  applecider : Option δ
deriving DecidableEq

/-- The models, as functions of one row, and the preparation of their inputs. -/
structure Models (ρ κ β δ : Type) where
  Triplet : Type
  Row : Type
  Photometry : Type
  Alpha : Type
  prepareTriplet : κ → Option Triplet
  acaiMetadata : ZtfAlertForEnrichment ρ → Option Row
  btsbotMetadata : ZtfAlertForEnrichment ρ → Option Row
  /-- Rows of zeros. -/
  blankTriplet : Triplet
  blankRow : Row
  acaiH : Row → Triplet → F32
  acaiN : Row → Triplet → F32
  acaiV : Row → Triplet → F32
  acaiO : Row → Triplet → F32
  acaiB : Row → Triplet → F32
  btsbot : Row → Triplet → F32
  ciderMetadata : ZtfAlertForEnrichment ρ → β → Row
  /-- The inputs of a light curve, and how many detections are in them. -/
  photometryInputs : List PhotometryMag → Photometry × Nat
  cider : Photometry → Row → Triplet → Alpha
  derive : Alpha → Nat → δ

/-- `100.0`. -/
def CIDER_MAX_LC_SPAN_DAYS : F64 := ⟨0x4059000000000000⟩

def CIDER_MIN_PHOTOMETRY_POINTS : Nat := 2

variable {ρ κ φ β δ : Type}

def AlertWork.ciderEligible (numerics : Numerics) (item : AlertWork ρ κ φ β) : Bool :=
  decide (CIDER_MIN_PHOTOMETRY_POINTS ≤ item.ztfLightcurve.length) &&
    match item.ztfLightcurve.head?, item.ztfLightcurve.getLast? with
    | some first, some last => (numerics.minus last.time first.time).le CIDER_MAX_LC_SPAN_DAYS
    | _, _ => false

variable (numerics : Numerics) (models : Models ρ κ β δ)

/-! ## The models on rows -/

/-- What the six models return for a batch. -/
structure Predictions where
  acaiH : List F32
  acaiN : List F32
  acaiV : List F32
  acaiO : List F32
  acaiB : List F32
  btsbot : List F32

def Predictions.row (predictions : Predictions) (index : Nat) : Option Scores := do
  return {
    acaiH := ← predictions.acaiH[index]?
    acaiN := ← predictions.acaiN[index]?
    acaiV := ← predictions.acaiV[index]?
    acaiO := ← predictions.acaiO[index]?
    acaiB := ← predictions.acaiB[index]?
    btsbot := ← predictions.btsbot[index]? }

def predictAcaiBtsbot (metadata btsbotMetadata : List models.Row) (triplets : List models.Triplet) :
    Predictions where
  acaiH := List.zipWith models.acaiH metadata triplets
  acaiN := List.zipWith models.acaiN metadata triplets
  acaiV := List.zipWith models.acaiV metadata triplets
  acaiO := List.zipWith models.acaiO metadata triplets
  acaiB := List.zipWith models.acaiB metadata triplets
  btsbot := List.zipWith models.btsbot btsbotMetadata triplets

def scoresOf (metadata btsbotMetadata : models.Row) (triplet : models.Triplet) : Scores where
  acaiH := models.acaiH metadata triplet
  acaiN := models.acaiN metadata triplet
  acaiV := models.acaiV metadata triplet
  acaiO := models.acaiO metadata triplet
  acaiB := models.acaiB metadata triplet
  btsbot := models.btsbot btsbotMetadata triplet

/-! ## On the CPU -/

def ciderOf (item : AlertWork ρ κ φ β) (image : models.Triplet) : δ :=
  let inputs := models.photometryInputs item.ztfLightcurve
  models.derive (models.cider inputs.1 (models.ciderMetadata item.alert item.allBandsProperties) image) inputs.2

def classifyPerItem (items : List (AlertWork ρ κ φ β)) : List (Option (ZtfAlertClassifications δ)) :=
  items.map fun item =>
    match models.prepareTriplet item.cutouts with
    | none => none
    | some triplet =>
      match models.acaiMetadata item.alert, models.btsbotMetadata item.alert with
      | some metadata, some btsbotMetadata =>
        ((predictAcaiBtsbot models [metadata] [btsbotMetadata] [triplet]).row 0).map fun scores =>
          { scores := scores
            applecider :=
              if item.ciderEligible numerics then
                (models.prepareTriplet item.cutouts).map fun image => ciderOf models item image
              else none }
      | _, _ => none

/-! ## On the GPU -/

structure Selected where
  index : Nat
  triplet : Nat
  acai : Nat
  btsbot : Nat

def ciderChunk (batchSize : Nat) (items : List (AlertWork ρ κ φ β)) (chunk : List Nat) : Option (List δ) := do
  let first ← chunk.head?
  let rows ← gather (fun index => items[index]?) (padded batchSize first chunk)
  let metadata := rows.map fun item => models.ciderMetadata item.alert item.allBandsProperties
  let images ← gather (fun item => models.prepareTriplet item.cutouts) rows
  let inputs := rows.map fun item => models.photometryInputs item.ztfLightcurve
  let out := List.zipWith (fun run image => run image)
    (List.zipWith (fun input row => models.cider input row) (inputs.map Prod.fst) metadata) images
  return List.zipWith models.derive (out.take chunk.length) ((inputs.map Prod.snd).take chunk.length)

def ciderRows (batchSize : Nat) (items : List (AlertWork ρ κ φ β)) (indices : List Nat) : Option (List δ) :=
  if indices.isEmpty then none
  else (gather (ciderChunk models batchSize items) (chunks batchSize indices)).map List.flatten

def ACAI_BTS_NAMES : List String := ["acai_h", "acai_n", "acai_v", "acai_o", "acai_b", "btsbot"]

def checkLengths (batchSize : Nat) (predictions : Predictions) : Except String Unit :=
  let lengths := [predictions.acaiH, predictions.acaiN, predictions.acaiV, predictions.acaiO,
    predictions.acaiB, predictions.btsbot].map List.length
  match (ACAI_BTS_NAMES.zip lengths).find? fun entry => entry.2 != batchSize with
  | none => .ok ()
  | some (name, got) => .error ("model " ++ name ++ " returned " ++ toString got ++ " scores for " ++
      toString batchSize ++ " padded inputs")

def scoreChunk (batchSize : Nat) (triplets : List models.Triplet) (acai bts : List models.Row)
    (cider : Nat → Option δ) (chunk : List Selected) :
    Except String (List (Nat × Option (ZtfAlertClassifications δ))) :=
  let triplet := padded batchSize models.blankTriplet
    (chunk.map fun selected => (triplets[selected.triplet]?).getD models.blankTriplet)
  let metadata := padded batchSize models.blankRow
    (chunk.map fun selected => (acai[selected.acai]?).getD models.blankRow)
  let btsbotMetadata := padded batchSize models.blankRow
    (chunk.map fun selected => (bts[selected.btsbot]?).getD models.blankRow)
  let predictions := predictAcaiBtsbot models metadata btsbotMetadata triplet
  (checkLengths batchSize predictions).map fun _ =>
    chunk.zipIdx.map fun entry => (entry.1.index, (predictions.row entry.2).map fun scores =>
      { scores := scores, applecider := cider entry.1.index })

def selectAt (triplets acai bts : List Nat) (index : Nat) : Option Selected := do
  return {
    index := index
    triplet := ← positionIndex triplets index
    acai := ← positionIndex acai index
    btsbot := ← positionIndex bts index }

def selectedOf (triplets acai bts : List Nat) (items : List (AlertWork ρ κ φ β)) : List Selected :=
  items.zipIdx.filterMap fun entry => selectAt triplets acai bts entry.2

def classifyGpuBatch (batchSize : Nat) (items : List (AlertWork ρ κ φ β)) :
    Except String (List (Option (ZtfAlertClassifications δ))) := do
  let triplets := indexed (fun item : AlertWork ρ κ φ β => models.prepareTriplet item.cutouts) items
  let acai := indexed (fun item : AlertWork ρ κ φ β => models.acaiMetadata item.alert) items
  let bts := indexed (fun item : AlertWork ρ κ φ β => models.btsbotMetadata item.alert) items
  let selected := selectedOf triplets.1 acai.1 bts.1 items
  let ciderIndices := (selected.map Selected.index).filter fun index =>
    (items[index]?).any fun item => item.ciderEligible numerics
  let derived := ciderRows models batchSize items ciderIndices
  let cider (index : Nat) : Option δ := do
    let row ← positionIndex ciderIndices index
    (← derived)[row]?
  let writes ← (chunks batchSize selected).mapM fun chunk =>
    scoreChunk models batchSize triplets.2 acai.2 bts.2 cider chunk
  return scatter writes.flatten (List.replicate items.length none)

/-! ## Row by row -/

def classifyRow (item : AlertWork ρ κ φ β) : Option (ZtfAlertClassifications δ) := do
  let triplet ← models.prepareTriplet item.cutouts
  let metadata ← models.acaiMetadata item.alert
  let btsbotMetadata ← models.btsbotMetadata item.alert
  return {
    scores := scoresOf models metadata btsbotMetadata triplet
    applecider := if item.ciderEligible numerics then some (ciderOf models item triplet) else none }

theorem classifyPerItem_eq (items : List (AlertWork ρ κ φ β)) :
    classifyPerItem numerics models items = items.map (classifyRow numerics models) := by
  refine List.map_congr_left fun item _ => ?_
  cases prepared : models.prepareTriplet item.cutouts with
  | none => simp [classifyRow, prepared]
  | some triplet =>
    cases acai : models.acaiMetadata item.alert with
    | none => simp [classifyRow, prepared, acai]
    | some metadata =>
      cases bts : models.btsbotMetadata item.alert with
      | none => simp [classifyRow, prepared, acai, bts]
      | some btsbotMetadata =>
        simp [classifyRow, prepared, acai, bts, predictAcaiBtsbot, Predictions.row, scoresOf]

def scoresAlone (item : AlertWork ρ κ φ β) : Option Scores := do
  let triplet ← models.prepareTriplet item.cutouts
  let metadata ← models.acaiMetadata item.alert
  let btsbotMetadata ← models.btsbotMetadata item.alert
  return scoresOf models metadata btsbotMetadata triplet

theorem classifyRow_eq (item : AlertWork ρ κ φ β) :
    classifyRow numerics models item = (models.prepareTriplet item.cutouts).bind fun triplet =>
      (scoresAlone models item).map fun scores =>
        { scores := scores
          applecider := if item.ciderEligible numerics then some (ciderOf models item triplet) else none } := by
  cases prepared : models.prepareTriplet item.cutouts <;> cases acai : models.acaiMetadata item.alert <;>
    cases bts : models.btsbotMetadata item.alert <;> simp [classifyRow, scoresAlone, prepared, acai, bts]

section Gpu

variable {numerics models} {batchSize : Nat} {items : List (AlertWork ρ κ φ β)}

def ciderAt (models : Models ρ κ β δ) (items : List (AlertWork ρ κ φ β)) (index : Nat) : Option δ := do
  let item ← items[index]?
  let image ← models.prepareTriplet item.cutouts
  return ciderOf models item image

theorem ciderChunk_eq {chunk : List Nat} (nonempty : chunk ≠ [])
    (each : ∀ index ∈ chunk, (ciderAt models items index).isSome) :
    ciderChunk models batchSize items chunk = some (chunk.filterMap (ciderAt models items)) := by
  obtain ⟨first, rest, rfl⟩ := List.exists_cons_of_ne_nil nonempty
  -- every row, the pad rows too, is an item of the chunk with its image
  have present (index : Nat) (member : index ∈ first :: rest) :
      ∃ item image, items[index]? = some item ∧ models.prepareTriplet item.cutouts = some image := by
    obtain ⟨derived, found⟩ := Option.isSome_iff_exists.mp (each index member)
    simp only [ciderAt, Option.bind_eq_bind, Option.bind_eq_some_iff] at found
    obtain ⟨item, stands, image, prepared, _⟩ := found
    exact ⟨item, image, stands, prepared⟩
  have rowMember (index : Nat) (member : index ∈ padded batchSize first (first :: rest)) :
      index ∈ first :: rest := by
    rcases List.mem_append.mp member with inChunk | pad
    · exact inChunk
    · rw [List.eq_of_mem_replicate pad]
      exact List.mem_cons_self
  obtain ⟨firstItem, firstImage, _, _⟩ := present first List.mem_cons_self
  let itemAt (index : Nat) := (items[index]?).getD firstItem
  let imageOf (item : AlertWork ρ κ φ β) := (models.prepareTriplet item.cutouts).getD firstImage
  have rows : gather (fun index => items[index]?) (padded batchSize first (first :: rest)) =
      some ((padded batchSize first (first :: rest)).map itemAt) := by
    refine gather_eq fun index member => ?_
    obtain ⟨item, _, stands, _⟩ := present index (rowMember index member)
    simp [itemAt, stands]
  have images : gather (fun item : AlertWork ρ κ φ β => models.prepareTriplet item.cutouts)
      ((padded batchSize first (first :: rest)).map itemAt) =
      some (((padded batchSize first (first :: rest)).map itemAt).map imageOf) := by
    refine gather_eq fun item member => ?_
    obtain ⟨index, inRows, rfl⟩ := List.mem_map.mp member
    obtain ⟨item, image, stands, prepared⟩ := present index (rowMember index inRows)
    simp [itemAt, imageOf, stands, prepared]
  have whole : (first :: rest).filterMap (ciderAt models items) =
      (first :: rest).map fun index => ciderOf models (itemAt index) (imageOf (itemAt index)) := by
    rw [← List.filterMap_eq_map]
    refine List.filterMap_congr fun index member => ?_
    obtain ⟨item, image, stands, prepared⟩ := present index member
    simp [ciderAt, itemAt, imageOf, stands, prepared]
  rw [whole]
  simp only [ciderChunk, List.head?_cons, Option.bind_eq_bind, Option.bind_some, rows, images, List.map_map,
    List.zipWith_map, List.zipWith_self, take_map_padded]
  rfl

theorem ciderRows_eq (positive : 0 < batchSize) {indices : List Nat}
    (each : ∀ index ∈ indices, (ciderAt models items index).isSome) :
    (ciderRows models batchSize items indices).getD [] = indices.filterMap (ciderAt models items) := by
  unfold ciderRows
  split
  next nothing => rw [List.isEmpty_iff.mp nothing]; rfl
  next =>
    have chunked : gather (ciderChunk models batchSize items) (chunks batchSize indices) =
        some ((chunks batchSize indices).map fun chunk => chunk.filterMap (ciderAt models items)) := by
      refine gather_eq fun chunk member => ciderChunk_eq (of_mem_chunks positive member).1 fun index inChunk => ?_
      refine each index ?_
      rw [← flatten_chunks positive indices]
      exact List.mem_flatten.mpr ⟨chunk, member, inChunk⟩
    rw [chunked, Option.map_some, Option.getD_some, ← List.filterMap_flatten, flatten_chunks positive]

abbrev preparedTriplets (models : Models ρ κ β δ) (items : List (AlertWork ρ κ φ β)) :=
  indexed (fun item : AlertWork ρ κ φ β => models.prepareTriplet item.cutouts) items

abbrev preparedAcai (models : Models ρ κ β δ) (items : List (AlertWork ρ κ φ β)) :=
  indexed (fun item : AlertWork ρ κ φ β => models.acaiMetadata item.alert) items

abbrev preparedBtsbot (models : Models ρ κ β δ) (items : List (AlertWork ρ κ φ β)) :=
  indexed (fun item : AlertWork ρ κ φ β => models.btsbotMetadata item.alert) items

abbrev selection (models : Models ρ κ β δ) (items : List (AlertWork ρ κ φ β)) : List Selected :=
  selectedOf (preparedTriplets models items).1 (preparedAcai models items).1 (preparedBtsbot models items).1 items

/-- A selected item, with the inputs its positions lead to. -/
structure Ready (models : Models ρ κ β δ) (items : List (AlertWork ρ κ φ β)) (selected : Selected)
    (item : AlertWork ρ κ φ β) (triplet : models.Triplet) (metadata btsbotMetadata : models.Row) : Prop where
  stands : items[selected.index]? = some item
  image : models.prepareTriplet item.cutouts = some triplet
  acai : models.acaiMetadata item.alert = some metadata
  btsbot : models.btsbotMetadata item.alert = some btsbotMetadata
  imageRow : (preparedTriplets models items).2[selected.triplet]? = some triplet
  acaiRow : (preparedAcai models items).2[selected.acai]? = some metadata
  btsbotRow : (preparedBtsbot models items).2[selected.btsbot]? = some btsbotMetadata

theorem selectAt_cases {index : Nat} {item : AlertWork ρ κ φ β} (stands : items[index]? = some item) :
    (selectAt (preparedTriplets models items).1 (preparedAcai models items).1 (preparedBtsbot models items).1
      index = none ∧ scoresAlone models item = none) ∨
      ∃ selected, selectAt (preparedTriplets models items).1 (preparedAcai models items).1
        (preparedBtsbot models items).1 index = some selected ∧
        ∃ triplet metadata btsbotMetadata, Ready models items selected item triplet metadata btsbotMetadata := by
  rcases indexed_cases (fun item : AlertWork ρ κ φ β => models.prepareTriplet item.cutouts) stands with
    ⟨absent, refused⟩ | ⟨triplet, image, placed, row, prepared⟩
  · exact .inl ⟨by simp [selectAt, absent], by simp [scoresAlone, refused]⟩
  rcases indexed_cases (fun item : AlertWork ρ κ φ β => models.acaiMetadata item.alert) stands with
    ⟨absent, refused⟩ | ⟨acai, metadata, placedAcai, rowAcai, preparedAcai⟩
  · exact .inl ⟨by simp [selectAt, absent], by simp [scoresAlone, refused]⟩
  rcases indexed_cases (fun item : AlertWork ρ κ φ β => models.btsbotMetadata item.alert) stands with
    ⟨absent, refused⟩ | ⟨bts, btsbotMetadata, placedBts, rowBts, preparedBts⟩
  · exact .inl ⟨by simp [selectAt, absent], by simp [scoresAlone, refused]⟩
  exact .inr ⟨⟨index, triplet, acai, bts⟩, by simp [selectAt, placed, placedAcai, placedBts],
    image, metadata, btsbotMetadata, stands, prepared, preparedAcai, preparedBts, row, rowAcai, rowBts⟩

theorem index_of_selectAt {triplets acai bts : List Nat} {index : Nat} {selected : Selected}
    (found : selectAt triplets acai bts index = some selected) : selected.index = index := by
  simp only [selectAt, Option.bind_eq_bind, Option.bind_eq_some_iff] at found
  obtain ⟨_, _, _, _, _, _, made⟩ := found
  rw [← Option.some.inj made]

theorem mem_selection {selected : Selected} :
    selected ∈ selection models items ↔ ∃ item, items[selected.index]? = some item ∧
      selectAt (preparedTriplets models items).1 (preparedAcai models items).1 (preparedBtsbot models items).1
        selected.index = some selected := by
  simp only [selection, selectedOf, List.mem_filterMap]
  constructor
  · rintro ⟨⟨item, index⟩, stands, found⟩
    have same := index_of_selectAt found
    exact ⟨item, same ▸ List.mem_zipIdx_iff_getElem?.mp stands, same ▸ found⟩
  · rintro ⟨item, stands, found⟩
    exact ⟨(item, selected.index), List.mem_zipIdx_iff_getElem?.mpr stands, found⟩

theorem ready_of_mem {selected : Selected} (member : selected ∈ selection models items) :
    ∃ item triplet metadata btsbotMetadata,
      Ready models items selected item triplet metadata btsbotMetadata := by
  obtain ⟨item, stands, found⟩ := mem_selection.mp member
  rcases selectAt_cases stands with ⟨absent, _⟩ | ⟨other, same, ready⟩
  · rw [absent] at found
    cases found
  · obtain rfl : other = selected := Option.some.inj (same.symm.trans found)
    exact ⟨item, ready⟩

theorem nodup_selection : ((selection models items).map Selected.index).Nodup := by
  have places : ((selection models items).map Selected.index).Sublist (items.zipIdx.map Prod.snd) := by
    simp only [selection, selectedOf]
    generalize items.zipIdx = entries
    induction entries with
    | nil => exact .slnil
    | cons entry rest ih =>
      cases found : selectAt (preparedTriplets models items).1 (preparedAcai models items).1
          (preparedBtsbot models items).1 entry.2 with
      | none => simpa [found] using ih.cons entry.2
      | some selected => simpa [found, index_of_selectAt found] using ih
  rw [List.zipIdx_map_snd] at places
  exact places.nodup List.nodup_range'

def classifiedAt (numerics : Numerics) (models : Models ρ κ β δ) (items : List (AlertWork ρ κ φ β))
    (index : Nat) : Option (ZtfAlertClassifications δ) :=
  (items[index]?).bind (classifyRow numerics models)

theorem scoreChunk_scores {chunk : List Selected} (fits : chunk.length ≤ batchSize)
    (selected : ∀ entry ∈ chunk, entry ∈ selection models items) (cider : Nat → Option δ) :
    scoreChunk models batchSize (preparedTriplets models items).2 (preparedAcai models items).2
      (preparedBtsbot models items).2 cider chunk =
      .ok (chunk.map fun entry => (entry.index, ((items[entry.index]?).bind (scoresAlone models)).map fun scores =>
        { scores := scores, applecider := cider entry.index })) := by
  have sized {α : Type} (made : Selected → α) : (chunk.map made).length ≤ batchSize := by
    rw [List.length_map]
    exact fits
  simp only [scoreChunk, predictAcaiBtsbot, zipWith_padded]
  rw [checkLengths, List.map_cons]
  simp only [List.map_cons, List.map_nil, length_padded (sized _), ACAI_BTS_NAMES, List.zip_cons_cons,
    List.zip_nil_right, List.find?_cons, bne_self_eq_false, List.find?_nil]
  refine congrArg Except.ok ?_
  have places {γ : Type} (made : Selected → γ) : chunk.map made = chunk.zipIdx.map fun entry => made entry.1 := by
    conv_lhs => rw [← List.zipIdx_map_fst 0 chunk, List.map_map]
    rfl
  refine (List.map_congr_left fun entry member => ?_).trans (places _).symm
  obtain ⟨entry, row⟩ := entry
  have stands : chunk[row]? = some entry := List.mem_zipIdx_iff_getElem?.mp member
  obtain ⟨within, _⟩ := List.getElem?_eq_some_iff.mp stands
  have inChunk : entry ∈ chunk := List.mem_of_getElem? stands
  obtain ⟨item, triplet, metadata, btsbotMetadata, ready⟩ := ready_of_mem (selected entry inChunk)
  -- the padded batch has the item's own scores in its row
  have inRow {α : Type} (pad : α) (made : Selected → α) :
      (padded batchSize pad (chunk.map made))[row]? = some (made entry) := by
    rw [getElem?_padded (by simpa using within), List.getElem?_map, stands, Option.map_some]
  simp only [Predictions.row, inRow, Option.bind_eq_bind, Option.bind_some, Option.pure_def, Option.map_some,
    ready.imageRow, ready.acaiRow, ready.btsbotRow, Option.getD_some, scoresAlone, ready.stands, ready.image,
    ready.acai, ready.btsbot, scoresOf]

theorem scoreChunk_eq (numerics : Numerics) {chunk : List Selected} (fits : chunk.length ≤ batchSize)
    (selected : ∀ entry ∈ chunk, entry ∈ selection models items) {cider : Nat → Option δ}
    (derived : ∀ entry ∈ chunk, ∀ item, items[entry.index]? = some item →
      cider entry.index = if item.ciderEligible numerics then ciderAt models items entry.index else none) :
    scoreChunk models batchSize (preparedTriplets models items).2 (preparedAcai models items).2
      (preparedBtsbot models items).2 cider chunk =
      .ok (chunk.map fun entry => (entry.index, classifiedAt numerics models items entry.index)) := by
  rw [scoreChunk_scores fits selected]
  refine congrArg Except.ok (List.map_congr_left fun entry inChunk => ?_)
  obtain ⟨item, triplet, metadata, btsbotMetadata, ready⟩ := ready_of_mem (selected entry inChunk)
  have alone : ciderAt models items entry.index = some (ciderOf models item triplet) := by
    simp [ciderAt, ready.stands, ready.image]
  rw [derived entry inChunk item ready.stands, alone, classifiedAt, ready.stands, Option.bind_some,
    Option.bind_some, classifyRow_eq, ready.image, Option.bind_some]

abbrev eligible (numerics : Numerics) (models : Models ρ κ β δ) (items : List (AlertWork ρ κ φ β)) : List Nat :=
  ((selection models items).map Selected.index).filter fun index =>
    (items[index]?).any fun item => item.ciderEligible numerics

theorem isSome_ciderAt {index : Nat} (member : index ∈ (selection models items).map Selected.index) :
    (ciderAt models items index).isSome := by
  obtain ⟨entry, inSelection, rfl⟩ := List.mem_map.mp member
  obtain ⟨item, triplet, _, _, ready⟩ := ready_of_mem inSelection
  simp [ciderAt, ready.stands, ready.image]

theorem cider_lookup (positive : 0 < batchSize) {entry : Selected} (member : entry ∈ selection models items)
    {item : AlertWork ρ κ φ β} (stands : items[entry.index]? = some item) :
    ((positionIndex (eligible numerics models items) entry.index).bind fun row =>
      (ciderRows models batchSize items (eligible numerics models items)).bind fun derived => derived[row]?) =
      if item.ciderEligible numerics then ciderAt models items entry.index else none := by
  have each : ∀ index ∈ eligible numerics models items, (ciderAt models items index).isSome :=
    fun index inEligible => isSome_ciderAt (List.mem_filter.mp inEligible).1
  have rows (row : Nat) : ((ciderRows models batchSize items (eligible numerics models items)).bind fun derived =>
      derived[row]?) = (eligible numerics models items)[row]?.bind (ciderAt models items) := by
    rw [← getElem?_filterMap each, ← ciderRows_eq positive each]
    cases ciderRows models batchSize items (eligible numerics models items) <;> simp
  simp only [rows]
  have isEligible : entry.index ∈ eligible numerics models items ↔ item.ciderEligible numerics = true := by
    simp only [eligible, List.mem_filter, stands, Option.any_some, and_iff_right_iff_imp]
    exact fun _ => List.mem_map.mpr ⟨entry, member, rfl⟩
  cases found : positionIndex (eligible numerics models items) entry.index with
  | none =>
    have absent : ¬ item.ciderEligible numerics = true := fun chosen =>
      List.idxOf?_eq_none_iff.mp found (isEligible.mpr chosen)
    rw [if_neg absent, Option.bind_none]
  | some row =>
    obtain ⟨within, same, _⟩ := List.idxOf?_eq_some_iff.mp found
    have chosen := isEligible.mp (same ▸ List.getElem_mem within)
    rw [if_pos chosen, Option.bind_some, List.getElem?_eq_getElem within, same, Option.bind_some]

theorem scatter_selection {γ : Type} {result : AlertWork ρ κ φ β → Option γ}
    (unscored : ∀ item, scoresAlone models item = none → result item = none) :
    scatter ((selection models items).map fun entry => (entry.index, (items[entry.index]?).bind result))
      (List.replicate items.length none) = items.map result := by
  have unique : (((selection models items).map fun entry =>
      (entry.index, (items[entry.index]?).bind result)).map Prod.fst).Nodup := by
    rw [List.map_map]
    exact nodup_selection
  refine List.ext_getElem? fun index => ?_
  rw [getElem?_scatter unique, List.length_replicate, List.getElem?_map]
  split
  next within =>
    have stands : items[index]? = some items[index] := List.getElem?_eq_getElem within
    rw [stands, Option.map_some]
    rcases selectAt_cases stands with ⟨unselected, nothing⟩ | ⟨entry, found, _⟩
    · -- an item that was not selected is written nowhere, and has no classifications
      have absent : (((selection models items).map fun entry =>
          (entry.index, (items[entry.index]?).bind result)).lookup index) = none := by
        rw [List.lookup_eq_none_iff]
        intro write member
        obtain ⟨entry, inSelection, rfl⟩ := List.mem_map.mp member
        obtain ⟨_, _, found⟩ := mem_selection.mp inSelection
        have differs : index ≠ entry.index := by
          rintro rfl
          rw [unselected] at found
          cases found
        simpa using differs
      simp [absent, unscored _ nothing, within]
    · have written : (((selection models items).map fun entry =>
          (entry.index, (items[entry.index]?).bind result)).lookup index) =
            some ((items[index]?).bind result) := by
        obtain rfl := index_of_selectAt found
        refine (Collection.mem_iff_lookup unique).mp (List.mem_map.mpr ⟨entry, ?_, rfl⟩)
        exact mem_selection.mpr ⟨_, stands, found⟩
      rw [written, Option.some_or, stands, Option.bind_some]
  next outside => rw [List.getElem?_eq_none (Nat.le_of_not_lt outside), Option.map_none]

theorem classifyRow_unscored (item : AlertWork ρ κ φ β) (nothing : scoresAlone models item = none) :
    classifyRow numerics models item = none := by
  rw [classifyRow_eq, nothing]
  cases models.prepareTriplet item.cutouts <;> rfl

theorem classifyGpuBatch_eq (positive : 0 < batchSize) :
    classifyGpuBatch numerics models batchSize items = .ok (items.map (classifyRow numerics models)) := by
  have inSelection {chunk : List Selected} (member : chunk ∈ chunks batchSize (selection models items))
      (entry : Selected) (inChunk : entry ∈ chunk) : entry ∈ selection models items := by
    rw [← flatten_chunks positive (selection models items)]
    exact List.mem_flatten.mpr ⟨chunk, member, inChunk⟩
  have writes : (chunks batchSize (selection models items)).mapM (fun chunk =>
      scoreChunk models batchSize (preparedTriplets models items).2 (preparedAcai models items).2
        (preparedBtsbot models items).2 (fun index =>
          (positionIndex (eligible numerics models items) index).bind fun row =>
            (ciderRows models batchSize items (eligible numerics models items)).bind fun derived =>
              derived[row]?) chunk) =
      .ok ((chunks batchSize (selection models items)).map fun chunk =>
        chunk.map fun entry => (entry.index, classifiedAt numerics models items entry.index)) :=
    mapM_ok fun chunk member => scoreChunk_eq numerics (of_mem_chunks positive member).2 (inSelection member)
      fun entry inChunk item stands => cider_lookup positive (inSelection member entry inChunk) stands
  refine (congrArg (fun result : Except String _ => result.bind fun writes =>
    .ok (scatter writes.flatten (List.replicate items.length none))) writes).trans ?_
  rw [Except.bind, ← List.map_flatten, flatten_chunks positive]
  exact congrArg Except.ok (scatter_selection classifyRow_unscored)

end Gpu

end Boom.Enrichment
