import Boom.Enrichment.Alone

/-! # AppleCiDER on a batch

Every input of AppleCiDER is prepared on its own and may fail, and so may what is derived of
its outputs.  On the CPU this concerns one alert.  On the GPU the rows of a chunk stand in one
buffer, filled up with the chunk's first alert, and the batch has AppleCiDER for all of its
eligible alerts or for none. -/

namespace Boom.Enrichment

open Boom.Foundations

def CLASS_NAMES : List String := ["AGN-like", "Accreting WD Var", "Other Stellar Var", "TDE", "Ia-like SN",
  "Stripped Envelope SN", "H-rich CCSN", "Superluminous SN"]

structure FusionOutputs (width : Nat) where
  alpha : List F32
  embedding : List F32
  length_alpha : alpha.length = CLASS_NAMES.length
  length_embedding : embedding.length = width

structure CiderFusionModel (ρ κ β ω : Type) where
  Metadata : Type
  Image : Type
  Photometry : Type
  width : Nat
  getMetadata : ZtfAlertForEnrichment ρ → β → Option Metadata
  getTriplet : κ → Option Image
  /-- The inputs of a light curve, and how many detections are in them. -/
  photometryInputs : List PhotometryMag → Option (Photometry × Nat)
  predict : Photometry → Metadata → Image → FusionOutputs width
  derive : List F32 → Nat → Option ω

structure Fused (ω : Type) where
  derived : ω
  embedding : List F32
deriving DecidableEq

namespace CiderFusionModel

variable {ρ κ φ β ω : Type} (fusion : CiderFusionModel ρ κ β ω)

/-! ## On the CPU -/

def ciderResult (item : AlertWork ρ κ φ β) : Option (Fused ω) := do
  let metadata ← fusion.getMetadata item.alert item.allBandsProperties
  let image ← fusion.getTriplet item.cutouts
  let (inputs, detections) ← fusion.photometryInputs item.ztfLightcurve
  let out := fusion.predict inputs metadata image
  let derived ← fusion.derive out.alpha detections
  return { derived := derived, embedding := out.embedding }

variable (numerics : Numerics) (models : Models ρ κ β (Fused ω))

/-- The models classify; AppleCiDER is `fusion`. -/
def classifyPerItem (items : List (AlertWork ρ κ φ β)) : List (Option (ZtfAlertClassifications (Fused ω))) :=
  items.map fun item =>
    match models.prepareTriplet item.cutouts with
    | none => none
    | some triplet =>
      match models.acaiMetadata item.alert, models.btsbotMetadata item.alert with
      | some metadata, some btsbotMetadata =>
        ((predictAcaiBtsbot models [metadata] [btsbotMetadata] [triplet]).row 0).map fun scores =>
          { scores := scores
            applecider := if item.ciderEligible numerics then fusion.ciderResult item else none }
      | _, _ => none

/-! ## On the GPU -/

structure Buffers where
  alpha : List F32
  embedding : List F32

def predictBatch (inputs : List fusion.Photometry) (metadata : List fusion.Metadata) (images : List fusion.Image) :
    Buffers :=
  let rows := (inputs.zip (metadata.zip images)).map fun row => fusion.predict row.1 row.2.1 row.2.2
  { alpha := rows.flatMap FusionOutputs.alpha, embedding := rows.flatMap FusionOutputs.embedding }

def deriveBatch (alphaBatch : List F32) (detectionsUsed : List Nat) : Option (List ω) :=
  if detectionsUsed.length = 0 ∨ alphaBatch.length ≠ detectionsUsed.length * CLASS_NAMES.length then none
  else gather (fun row => fusion.derive row.1 row.2) ((chunks CLASS_NAMES.length alphaBatch).zip detectionsUsed)

def ciderChunk (batchSize : Nat) (items : List (AlertWork ρ κ φ β)) (chunk : List Nat) :
    Option (List ω × List (List F32)) := do
  let rows ← gather (fun index => items[index]?) (padFirst batchSize chunk)
  let metadata ← gather (fun item => fusion.getMetadata item.alert item.allBandsProperties) rows
  let images ← gather (fun item => fusion.getTriplet item.cutouts) rows
  let photometry ← gather (fun item => fusion.photometryInputs item.ztfLightcurve) rows
  let detections := (photometry.take chunk.length).map Prod.snd
  let out := fusion.predictBatch (photometry.map Prod.fst) metadata images
  let derived ← fusion.deriveBatch (out.alpha.take (chunk.length * CLASS_NAMES.length)) detections
  let dimension := out.embedding.length / batchSize
  return (derived, (List.range chunk.length).map fun row => (out.embedding.drop (row * dimension)).take dimension)

def ciderRows (batchSize : Nat) (items : List (AlertWork ρ κ φ β)) (indices : List Nat) :
    Option (List ω × List (List F32)) :=
  if indices.isEmpty then none
  else (gather (fusion.ciderChunk batchSize items) (chunks batchSize indices)).map fun made =>
    ((made.map Prod.fst).flatten, (made.map Prod.snd).flatten)

def classifyGpuBatch (batchSize : Nat) (items : List (AlertWork ρ κ φ β)) :
    Except String (List (Option (ZtfAlertClassifications (Fused ω)))) := do
  let triplets := indexed (fun item : AlertWork ρ κ φ β => models.prepareTriplet item.cutouts) items
  let acai := indexed (fun item : AlertWork ρ κ φ β => models.acaiMetadata item.alert) items
  let bts := indexed (fun item : AlertWork ρ κ φ β => models.btsbotMetadata item.alert) items
  let selected := selectedOf triplets.1 acai.1 bts.1 items
  let ciderIndices := (selected.map Selected.index).filter fun index =>
    (items[index]?).any fun item => item.ciderEligible numerics
  let rows := fusion.ciderRows batchSize items ciderIndices
  let cider (index : Nat) : Option (Fused ω) := do
    let row ← positionIndex ciderIndices index
    let (derived, embeddings) ← rows
    return { derived := ← derived[row]?, embedding := ← embeddings[row]? }
  let writes ← (chunks batchSize selected).mapM fun chunk =>
    scoreChunk models batchSize triplets.2 acai.2 bts.2 cider chunk
  return scatter writes.flatten (List.replicate items.length none)

/-! ## A chunk is its items -/

section Chunks

variable {fusion} {batchSize : Nat} {items : List (AlertWork ρ κ φ β)}

abbrev Inputs (fusion : CiderFusionModel ρ κ β ω) : Type :=
  fusion.Metadata × fusion.Image × fusion.Photometry × Nat

def inputsOf (fusion : CiderFusionModel ρ κ β ω) (item : AlertWork ρ κ φ β) : Option fusion.Inputs :=
  (fusion.getMetadata item.alert item.allBandsProperties).bind fun metadata =>
    ((fusion.getTriplet item.cutouts).bind fun image =>
      (fusion.photometryInputs item.ztfLightcurve).map fun inputs => (image, inputs)).map fun others =>
        (metadata, others)

def outputsOf (fusion : CiderFusionModel ρ κ β ω) (inputs : fusion.Inputs) : FusionOutputs fusion.width :=
  fusion.predict inputs.2.2.1 inputs.1 inputs.2.1

def derivedOf (fusion : CiderFusionModel ρ κ β ω) (inputs : fusion.Inputs) : Option ω :=
  fusion.derive (fusion.outputsOf inputs).alpha inputs.2.2.2

theorem ciderResult_eq (item : AlertWork ρ κ φ β) :
    fusion.ciderResult item = (fusion.inputsOf item).bind fun inputs =>
      ((fusion.derivedOf inputs).map fun derived => (derived, (fusion.outputsOf inputs).embedding)).map fun made =>
        ⟨made.1, made.2⟩ := by
  cases metadata : fusion.getMetadata item.alert item.allBandsProperties with
  | none => simp [ciderResult, inputsOf, metadata]
  | some row =>
    cases image : fusion.getTriplet item.cutouts with
    | none => simp [ciderResult, inputsOf, metadata, image]
    | some triplet =>
      cases inputs : fusion.photometryInputs item.ztfLightcurve with
      | none => simp [ciderResult, inputsOf, metadata, image, inputs]
      | some lightcurve =>
        simp only [ciderResult, inputsOf, derivedOf, outputsOf, metadata, image, inputs, Option.bind_eq_bind,
          Option.bind_some, Option.map_some, Option.pure_def]
        cases fusion.derive (fusion.predict lightcurve.1 row triplet).alpha lightcurve.2 <;> rfl

theorem predictBatch_eq (rows : List fusion.Inputs) :
    fusion.predictBatch (rows.map fun row => row.2.2.1) (rows.map fun row => row.1) (rows.map fun row => row.2.1) =
      { alpha := rows.flatMap fun row => (fusion.outputsOf row).alpha
        embedding := rows.flatMap fun row => (fusion.outputsOf row).embedding } := by
  simp only [predictBatch, List.zip_map', List.map_map, List.flatMap_map]
  rfl

theorem outputs_padded {rows : List fusion.Inputs} (nonempty : rows ≠ []) (fits : rows.length ≤ batchSize) :
    let out := (padFirst batchSize rows).flatMap fun row => (fusion.outputsOf row).embedding
    let dimension := out.length / batchSize
    (List.range rows.length).map (fun row => (out.drop (row * dimension)).take dimension) =
      rows.map fun row => (fusion.outputsOf row).embedding := by
  have wide (row : fusion.Inputs) : (fusion.outputsOf row).embedding.length = fusion.width :=
    (fusion.outputsOf row).length_embedding
  have some_ : 0 < rows.length := List.length_pos_of_ne_nil nonempty
  have dimension : ((padFirst batchSize rows).flatMap fun row => (fusion.outputsOf row).embedding).length / batchSize =
      fusion.width := by
    rw [length_flatMap_width wide, length_padFirst nonempty fits, Nat.mul_div_cancel_left _ (by omega)]
  simp only [dimension]
  refine List.ext_getElem (by simp) fun place inside inside' => ?_
  have inRows : place < rows.length := by simpa using inside'
  have stands : (padFirst batchSize rows)[place]? = some rows[place] := by
    rw [← List.getElem?_take_of_lt inRows, take_padFirst, List.getElem?_eq_getElem inRows]
  simpa using cells_of_place wide stands

theorem deriveBatch_padded {rows : List fusion.Inputs} (nonempty : rows ≠ []) :
    fusion.deriveBatch (((padFirst batchSize rows).flatMap fun row => (fusion.outputsOf row).alpha).take
      (rows.length * CLASS_NAMES.length)) (rows.map fun row => row.2.2.2) = gather fusion.derivedOf rows := by
  have wide (row : fusion.Inputs) : (fusion.outputsOf row).alpha.length = CLASS_NAMES.length :=
    (fusion.outputsOf row).length_alpha
  have some_ : rows.length ≠ 0 := fun none_ => nonempty (List.eq_nil_of_length_eq_zero none_)
  rw [take_flatMap_width wide, take_padFirst, deriveBatch, if_neg (by simp [length_flatMap_width wide, some_]),
    chunks_flatMap_width wide (by decide), List.zip_map', ← gather_comp]
  rfl

theorem gather_ciderResult (rows : List (AlertWork ρ κ φ β)) :
    gather fusion.ciderResult rows =
      (gather (fun item : AlertWork ρ κ φ β => fusion.getMetadata item.alert item.allBandsProperties) rows).bind
        fun metadata => (gather (fun item : AlertWork ρ κ φ β => fusion.getTriplet item.cutouts) rows).bind fun images =>
          (gather (fun item : AlertWork ρ κ φ β => fusion.photometryInputs item.ztfLightcurve) rows).bind
            fun photometry =>
              let inputs := metadata.zip (images.zip photometry)
              (gather fusion.derivedOf inputs).map fun derived =>
                (derived.zip (inputs.map fun row => (fusion.outputsOf row).embedding)).map fun made =>
                  ⟨made.1, made.2⟩ := by
  have each : fusion.ciderResult = fun item : AlertWork ρ κ φ β => (fusion.inputsOf item).bind fun inputs =>
      ((fusion.derivedOf inputs).map fun derived => (derived, (fusion.outputsOf inputs).embedding)).map fun made =>
        ⟨made.1, made.2⟩ := funext ciderResult_eq
  have inputs : gather fusion.inputsOf rows =
      (gather (fun item : AlertWork ρ κ φ β => fusion.getMetadata item.alert item.allBandsProperties) rows).bind
        fun metadata => (gather (fun item : AlertWork ρ κ φ β => (fusion.getTriplet item.cutouts).bind fun image =>
          (fusion.photometryInputs item.ztfLightcurve).map fun inputs => (image, inputs)) rows).map fun others =>
            metadata.zip others := gather_zip _ _ rows
  have made : gather (fun inputs => ((fusion.derivedOf inputs).map fun derived =>
      (derived, (fusion.outputsOf inputs).embedding)).map fun made => (⟨made.1, made.2⟩ : Fused ω)) =
      fun inputs => (gather fusion.derivedOf inputs).map fun derived =>
        (derived.zip (inputs.map fun row => (fusion.outputsOf row).embedding)).map fun made => ⟨made.1, made.2⟩ := by
    funext inputs
    rw [gather_map, gather_labelled, Option.map_map]
    rfl
  rw [each, gather_bind, inputs, made, gather_zip]
  cases gather (fun item : AlertWork ρ κ φ β => fusion.getMetadata item.alert item.allBandsProperties) rows <;>
    cases gather (fun item : AlertWork ρ κ φ β => fusion.getTriplet item.cutouts) rows <;>
    cases gather (fun item : AlertWork ρ κ φ β => fusion.photometryInputs item.ztfLightcurve) rows <;> rfl

theorem ciderChunk_eq {chunk : List Nat} (nonempty : chunk ≠ []) (fits : chunk.length ≤ batchSize) :
    fusion.ciderChunk batchSize items chunk =
      (gather (fun index => (items[index]?).bind fusion.ciderResult) chunk).map fun made =>
        (made.map Fused.derived, made.map Fused.embedding) := by
  simp only [ciderChunk, gather_padFirst, gather_bind, Option.bind_eq_bind]
  cases gathered : gather (fun index => items[index]?) chunk with
  | none => rfl
  | some rows =>
    have length_rows := length_of_gather gathered
    simp only [Option.map_some, Option.bind_some, gather_padFirst, gather_ciderResult]
    cases metadata : gather (fun item : AlertWork ρ κ φ β => fusion.getMetadata item.alert item.allBandsProperties) rows with
    | none => rfl
    | some metadata =>
      cases images : gather (fun item : AlertWork ρ κ φ β => fusion.getTriplet item.cutouts) rows with
      | none => rfl
      | some images =>
        cases photometry : gather (fun item : AlertWork ρ κ φ β => fusion.photometryInputs item.ztfLightcurve) rows with
        | none => rfl
        | some photometry =>
          rename_i metadataRows imageRows photometryRows
          have sameLength : imageRows.length = photometryRows.length := by
            rw [length_of_gather images, length_of_gather photometry]
          have sameLength' : metadataRows.length = (imageRows.zip photometryRows).length := by
            rw [List.length_zip, length_of_gather metadata, length_of_gather images, length_of_gather photometry,
              Nat.min_self]
          -- the prepared inputs, row by row, and their columns
          obtain ⟨inputs, isInputs⟩ : ∃ inputs, inputs = metadataRows.zip (imageRows.zip photometryRows) := ⟨_, rfl⟩
          have whole : inputs.length = chunk.length := by
            rw [isInputs, List.length_zip, ← sameLength', Nat.min_self, length_of_gather metadata, length_rows]
          have isMetadata : metadataRows = inputs.map fun row => row.1 := by
            rw [isInputs]
            exact (List.map_fst_zip (by omega)).symm
          have others : (inputs.map fun row => row.2) = imageRows.zip photometryRows := by
            rw [isInputs]
            exact List.map_snd_zip (by omega)
          have isImages : imageRows = inputs.map fun row => row.2.1 := by
            have columns := congrArg (List.map Prod.fst) others
            rw [List.map_map, List.map_fst_zip (by omega)] at columns
            exact columns.symm
          have isPhotometry : photometryRows = inputs.map fun row => row.2.2 := by
            have columns := congrArg (List.map Prod.snd) others
            rw [List.map_map, List.map_snd_zip (by omega)] at columns
            exact columns.symm
          have nonempty' : inputs ≠ [] := fun none_ => nonempty (List.eq_nil_of_length_eq_zero (by rw [← whole, none_]; rfl))
          simp only [Option.map_some, Option.bind_some, ← isInputs]
          have padded_ : fusion.predictBatch ((padFirst batchSize photometryRows).map Prod.fst)
              (padFirst batchSize metadataRows) (padFirst batchSize imageRows) =
                { alpha := (padFirst batchSize inputs).flatMap fun row => (fusion.outputsOf row).alpha
                  embedding := (padFirst batchSize inputs).flatMap fun row => (fusion.outputsOf row).embedding } := by
            rw [← predictBatch_eq, isMetadata, isImages, isPhotometry, ← map_padFirst, ← map_padFirst, ← map_padFirst,
              List.map_map]
            rfl
          have detections : ((padFirst batchSize photometryRows).take chunk.length).map Prod.snd =
              inputs.map fun row => row.2.2.2 := by
            rw [← whole, isPhotometry, ← map_padFirst, ← List.map_take, take_padFirst, List.map_map]
            rfl
          rw [padded_, detections, ← whole, deriveBatch_padded nonempty', outputs_padded nonempty' (by omega)]
          cases derived : gather fusion.derivedOf inputs with
          | none => rfl
          | some documents =>
            have sameLength := length_of_gather derived
            have firsts : ((documents.zip (inputs.map fun row => (fusion.outputsOf row).embedding)).map Prod.fst) =
                documents := List.map_fst_zip (by simp [sameLength])
            have seconds : ((documents.zip (inputs.map fun row => (fusion.outputsOf row).embedding)).map Prod.snd) =
                inputs.map fun row => (fusion.outputsOf row).embedding := List.map_snd_zip (by simp [sameLength])
            simp only [Option.bind_some, Option.map_some, Option.pure_def, List.map_map, Function.comp_def, firsts, seconds]

def resultAt (fusion : CiderFusionModel ρ κ β ω) (items : List (AlertWork ρ κ φ β)) (index : Nat) : Option (Fused ω) :=
  (items[index]?).bind fusion.ciderResult

theorem ciderRows_eq (positive : 0 < batchSize) {indices : List Nat} (nonempty : indices ≠ []) :
    fusion.ciderRows batchSize items indices = (gather (fusion.resultAt items) indices).map fun made =>
      (made.map Fused.derived, made.map Fused.embedding) := by
  have each : gather (fusion.ciderChunk batchSize items) (chunks batchSize indices) =
      gather (fun chunk => (gather (fusion.resultAt items) chunk).map fun made =>
        (made.map Fused.derived, made.map Fused.embedding)) (chunks batchSize indices) :=
    gather_congr fun chunk member =>
      ciderChunk_eq (of_mem_chunks positive member).1 (of_mem_chunks positive member).2
  rw [ciderRows, if_neg (by simpa using nonempty), each, gather_map]
  conv_rhs => rw [← flatten_chunks positive indices, ← gather_flatten]
  cases gather (gather (fusion.resultAt items)) (chunks batchSize indices) with
  | none => rfl
  | some made => simp [List.map_flatten, Function.comp_def]

theorem resultAt_row (positive : 0 < batchSize) {indices : List Nat} {index : Nat} :
    ((positionIndex indices index).bind fun row => (fusion.ciderRows batchSize items indices).bind fun rows =>
      (rows.1[row]?).bind fun derived => (rows.2[row]?).bind fun embedding => some (⟨derived, embedding⟩ : Fused ω)) =
      if index ∈ indices ∧ ∀ other ∈ indices, (fusion.resultAt items other).isSome then fusion.resultAt items index
      else none := by
  cases found : positionIndex indices index with
  | none =>
    have absent : index ∉ indices := List.idxOf?_eq_none_iff.mp found
    rw [if_neg fun both => absent both.1]
    rfl
  | some row =>
    obtain ⟨within, same, _⟩ := List.idxOf?_eq_some_iff.mp found
    have present : index ∈ indices := same ▸ List.getElem_mem within
    rw [Option.bind_some, ciderRows_eq positive (List.ne_nil_of_mem present), gather_spec]
    by_cases each : ∀ other ∈ indices, (fusion.resultAt items other).isSome
    · have stands : (indices.filterMap (fusion.resultAt items))[row]? = fusion.resultAt items index := by
        rw [getElem?_filterMap each, List.getElem?_eq_getElem within, same, Option.bind_some]
      rw [if_pos each, if_pos ⟨present, each⟩, Option.map_some, Option.bind_some, List.getElem?_map, List.getElem?_map,
        stands]
      cases fusion.resultAt items index <;> rfl
    · rw [if_neg each, if_neg fun both => each both.2]
      rfl

end Chunks

/-! ## The batch and its items -/

section Batches

variable {fusion numerics models} {batchSize : Nat} {items : List (AlertWork ρ κ φ β)}

def CiderReady (fusion : CiderFusionModel ρ κ β ω) (numerics : Numerics) (models : Models ρ κ β (Fused ω))
    (items : List (AlertWork ρ κ φ β)) : Prop :=
  ∀ item ∈ items, (scoresAlone models item).isSome → item.ciderEligible numerics → (fusion.ciderResult item).isSome

instance : Decidable (CiderReady fusion numerics models items) :=
  inferInstanceAs (Decidable (∀ item ∈ items, _))

def classifyRow (fusion : CiderFusionModel ρ κ β ω) (numerics : Numerics) (models : Models ρ κ β (Fused ω))
    (withCider : Bool) (item : AlertWork ρ κ φ β) : Option (ZtfAlertClassifications (Fused ω)) :=
  (scoresAlone models item).map fun scores =>
    { scores := scores
      applecider := if withCider && item.ciderEligible numerics then fusion.ciderResult item else none }

theorem classifyPerItem_eq (items : List (AlertWork ρ κ φ β)) :
    fusion.classifyPerItem numerics models items = items.map (fusion.classifyRow numerics models true) := by
  refine List.map_congr_left fun item _ => ?_
  cases prepared : models.prepareTriplet item.cutouts with
  | none => simp [classifyRow, scoresAlone, prepared]
  | some triplet =>
    cases acai : models.acaiMetadata item.alert with
    | none => simp [classifyRow, scoresAlone, prepared, acai]
    | some metadata =>
      cases bts : models.btsbotMetadata item.alert with
      | none => simp [classifyRow, scoresAlone, prepared, acai, bts]
      | some btsbotMetadata =>
        simp [classifyRow, scoresAlone, prepared, acai, bts, predictAcaiBtsbot, Predictions.row, scoresOf]

theorem mem_eligible {index : Nat} : index ∈ eligible numerics models items ↔ ∃ item, items[index]? = some item ∧
    (scoresAlone models item).isSome ∧ item.ciderEligible numerics = true := by
  simp only [eligible, List.mem_filter, List.mem_map, Option.any_eq_true]
  constructor
  · rintro ⟨⟨entry, member, rfl⟩, item, stands, chosen⟩
    obtain ⟨item', triplet, metadata, btsbotMetadata, ready⟩ := ready_of_mem member
    obtain rfl := Option.some.inj (stands.symm.trans ready.stands)
    exact ⟨item, stands, by simp [scoresAlone, ready.image, ready.acai, ready.btsbot], chosen⟩
  · rintro ⟨item, stands, scored, chosen⟩
    rcases @selectAt_cases ρ κ φ β (Fused ω) models items index item stands with ⟨_, unscored⟩ | ⟨entry, found, _⟩
    · simp [unscored] at scored
    · obtain rfl := index_of_selectAt found
      exact ⟨⟨entry, mem_selection.mpr ⟨item, stands, found⟩, rfl⟩, item, stands, chosen⟩

theorem ready_eligible : (∀ index ∈ eligible numerics models items, (fusion.resultAt items index).isSome) ↔
    CiderReady fusion numerics models items := by
  simp only [mem_eligible, CiderReady]
  simp only [List.mem_iff_getElem?]
  constructor
  · rintro each item ⟨index, stands⟩ scored chosen
    simpa [resultAt, stands] using each index ⟨item, stands, scored, chosen⟩
  · rintro each index ⟨item, stands, scored, chosen⟩
    simpa [resultAt, stands] using each item ⟨index, stands⟩ scored chosen

theorem classifyGpuBatch_rows (positive : 0 < batchSize) :
    fusion.classifyGpuBatch numerics models batchSize items =
      .ok (items.map (fusion.classifyRow numerics models (decide (CiderReady fusion numerics models items)))) := by
  have inSelection {chunk : List Selected} (member : chunk ∈ chunks batchSize (selection models items))
      (entry : Selected) (inChunk : entry ∈ chunk) : entry ∈ selection models items := by
    rw [← flatten_chunks positive (selection models items)]
    exact List.mem_flatten.mpr ⟨chunk, member, inChunk⟩
  let cider (index : Nat) : Option (Fused ω) :=
    (positionIndex (eligible numerics models items) index).bind fun row =>
      (fusion.ciderRows batchSize items (eligible numerics models items)).bind fun rows =>
        (rows.1[row]?).bind fun derived => (rows.2[row]?).bind fun embedding => some ⟨derived, embedding⟩
  -- a selected item finds its own result, or none if one is missing
  have found (entry : Selected) (member : entry ∈ selection models items) :
      ((items[entry.index]?).bind (scoresAlone models)).map (fun scores =>
        ({ scores := scores, applecider := cider entry.index } : ZtfAlertClassifications (Fused ω))) =
        (items[entry.index]?).bind
          (fusion.classifyRow numerics models (decide (CiderReady fusion numerics models items))) := by
    obtain ⟨item, triplet, metadata, btsbotMetadata, ready⟩ := ready_of_mem member
    have scored : (scoresAlone models item).isSome := by simp [scoresAlone, ready.image, ready.acai, ready.btsbot]
    have chosen : entry.index ∈ eligible numerics models items ↔ item.ciderEligible numerics = true := by
      rw [mem_eligible]
      refine ⟨?_, fun chosen => ⟨item, ready.stands, scored, chosen⟩⟩
      rintro ⟨other, stands, _, chosen⟩
      obtain rfl := Option.some.inj (stands.symm.trans ready.stands)
      exact chosen
    have result : cider entry.index = if decide (CiderReady fusion numerics models items) && item.ciderEligible numerics
        then fusion.ciderResult item else none := by
      simp only [cider, resultAt_row positive, ready_eligible, chosen]
      simp only [resultAt, ready.stands, Option.bind_some, Bool.and_eq_true, decide_eq_true_eq, and_comm]
    rw [ready.stands, Option.bind_some, Option.bind_some, classifyRow, result]
  have writes : (chunks batchSize (selection models items)).mapM (fun chunk =>
      scoreChunk models batchSize (preparedTriplets models items).2 (preparedAcai models items).2
        (preparedBtsbot models items).2 cider chunk) =
      .ok ((chunks batchSize (selection models items)).map fun chunk => chunk.map fun entry =>
        (entry.index, (items[entry.index]?).bind
          (fusion.classifyRow numerics models (decide (CiderReady fusion numerics models items))))) := by
    refine mapM_ok fun chunk member => ?_
    rw [scoreChunk_scores (of_mem_chunks positive member).2 (inSelection member)]
    exact congrArg Except.ok (List.map_congr_left fun entry inChunk =>
      congrArg (Prod.mk entry.index) (found entry (inSelection member entry inChunk)))
  refine (congrArg (fun result : Except String _ => result.bind fun writes =>
    .ok (scatter writes.flatten (List.replicate items.length none))) writes).trans ?_
  rw [Except.bind, ← List.map_flatten, flatten_chunks positive]
  refine congrArg Except.ok (scatter_selection fun item unscored => ?_)
  rw [classifyRow, unscored, Option.map_none]

def withoutCider (classifications : ZtfAlertClassifications (Fused ω)) : ZtfAlertClassifications (Fused ω) :=
  { classifications with applecider := none }

/-- The batch gives every alert what it is given alone, if AppleCiDER gives something for every
    alert it is asked about, and else everything but AppleCiDER. -/
theorem classifyGpuBatch_perItem (fusion : CiderFusionModel ρ κ β ω) (numerics : Numerics)
    (models : Models ρ κ β (Fused ω)) {batchSize : Nat} (positive : 0 < batchSize) (items : List (AlertWork ρ κ φ β)) :
    fusion.classifyGpuBatch numerics models batchSize items =
      .ok (if CiderReady fusion numerics models items then fusion.classifyPerItem numerics models items
        else (fusion.classifyPerItem numerics models items).map (Option.map withoutCider)) := by
  rw [classifyGpuBatch_rows positive, classifyPerItem_eq]
  refine congrArg Except.ok ?_
  split
  next ready => rw [decide_eq_true ready]
  next missing =>
    rw [decide_eq_false missing, List.map_map]
    refine List.map_congr_left fun item _ => ?_
    cases scored : scoresAlone models item <;> simp [classifyRow, withoutCider, scored]

end Batches

/-! ### A light curve that cannot be prepared -/

section Pair

/-- Models that prepare every alert and score it zero. -/
def zeroModels : Models Unit Unit Unit (Fused Unit) where
  Triplet := Unit
  Row := Unit
  Photometry := Unit
  Alpha := Unit
  prepareTriplet _ := some ()
  acaiMetadata _ := some ()
  btsbotMetadata _ := some ()
  blankTriplet := ()
  blankRow := ()
  acaiH _ _ := ⟨0⟩
  acaiN _ _ := ⟨0⟩
  acaiV _ _ := ⟨0⟩
  acaiO _ _ := ⟨0⟩
  acaiB _ _ := ⟨0⟩
  btsbot _ _ := ⟨0⟩
  ciderMetadata _ _ := ()
  photometryInputs _ := ((), 0)
  cider _ _ _ := ()
  derive _ _ := ⟨(), []⟩

def twoPointFusion : CiderFusionModel Unit Unit Unit Unit where
  Metadata := Unit
  Image := Unit
  Photometry := Unit
  width := 1
  getMetadata _ _ := some ()
  getTriplet _ := some ()
  photometryInputs lightcurve := if lightcurve.length = 2 then some ((), 2) else none
  predict _ _ _ := ⟨List.replicate 8 ⟨0⟩, [⟨0⟩], rfl, rfl⟩
  derive alpha _ := if alpha.length = CLASS_NAMES.length then some () else none

def alertOfPoints (candid : Int) (points : Nat) : AlertWork Unit Unit Unit Unit where
  candid := candid
  programid := 1
  properties := ⟨(), ⟨false, none, none, none, none, none, none, none, none, none⟩, none⟩
  allBandsProperties := ()
  cutouts := ()
  alert := {
    candid := candid
    candidate := {
      jd := ⟨0⟩, fid := 1, programid := 1, magpsf := ⟨0⟩, sigmapsf := ⟨0⟩
      ssnamenr := none, ssdistnr := none, ssmagnr := none }
    rest := () }
  ztfLightcurve := List.replicate points ⟨⟨0⟩, ⟨0⟩, ⟨0⟩, 1⟩

def zeroScores : Scores := ⟨⟨0⟩, ⟨0⟩, ⟨0⟩, ⟨0⟩, ⟨0⟩, ⟨0⟩⟩

theorem classifyGpuBatch_pair :
    twoPointFusion.classifyGpuBatch ZtfEnrichmentWorker.zeros zeroModels 2 [alertOfPoints 1 2, alertOfPoints 2 3] =
      .ok [some ⟨zeroScores, none⟩, some ⟨zeroScores, none⟩] :=
  (classifyGpuBatch_perItem twoPointFusion ZtfEnrichmentWorker.zeros zeroModels (by decide)
    [alertOfPoints 1 2, alertOfPoints 2 3]).trans (by decide)

/-- An alert whose light curve cannot be prepared takes AppleCiDER from the other alerts of its
    batch. -/
theorem cider_lost_with_another : ¬ ∀ (fusion : CiderFusionModel Unit Unit Unit Unit) (numerics : Numerics)
    (models : Models Unit Unit Unit (Fused Unit)) (batchSize : Nat) (items : List (AlertWork Unit Unit Unit Unit)),
      0 < batchSize → fusion.classifyGpuBatch numerics models batchSize items =
        .ok (fusion.classifyPerItem numerics models items) := by
  intro claimed
  have same := claimed twoPointFusion ZtfEnrichmentWorker.zeros zeroModels 2
    [alertOfPoints 1 2, alertOfPoints 2 3] (by decide)
  have together : twoPointFusion.classifyGpuBatch ZtfEnrichmentWorker.zeros zeroModels 2
      [alertOfPoints 1 2, alertOfPoints 2 3] = .ok [some ⟨zeroScores, none⟩, some ⟨zeroScores, none⟩] := by decide
  have apart : twoPointFusion.classifyPerItem ZtfEnrichmentWorker.zeros zeroModels
      [alertOfPoints 1 2, alertOfPoints 2 3] =
        [some ⟨zeroScores, some ⟨(), [⟨0⟩]⟩⟩, some ⟨zeroScores, none⟩] := by decide
  rw [together, apart] at same
  exact absurd same (by decide)

end Pair

end CiderFusionModel

end Boom.Enrichment
