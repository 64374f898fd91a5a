import Boom.Filter.Base
import Boom.Foundations.Checked
import Boom.Utils.Moc

/-! # Sky maps from tables

What `Utils/Moc` says of a sky map, in the machine's own numbers: a table is read into columns,
and the columns are searched.  A number that does not fit is a fault, and so are a row that is
not there and an order past the deepest one that pixels have. -/

namespace Boom.Utils.Skymap3d

open Boom.Foundations

variable {F : Type}

/-! ## Pixels -/

def leadingZeros (value : Nat) : Nat :=
  64 - (if value = 0 then 0 else value.log2 + 1)

def uniqToOrder (uniq : Nat) : Checked Nat := do
  let top ← checkedSub 63 (leadingZeros uniq)
  checkedSub (top / 2) 1

def uniqToIpix (uniq : Nat) : Checked Nat := do
  let order ← uniqToOrder uniq
  let base ← checkedShl 64 1 (2 * order + 2)
  checkedSub uniq base

def pixelAreaFromOrder [Field F] [LinearOrder F] [RealFunctions F] (order : Nat) : Checked F := do
  let pixels ← checkedShl 64 1 (2 * order)
  pure (4 * RealFunctions.pi / (12 * (pixels : F)))

def deepest : Nat := 29

structure Layers (Position : Type) where
  hash : Nat → Position → Nat
  hash_lt : ∀ order position, order ≤ deepest → hash order position < 12 * 4 ^ order

def nestedGet {Position : Type} (layers : Layers Position) (order : Nat) : Checked (Position → Nat) :=
  if order ≤ deepest then .ok (layers.hash order) else .error .unsupported

/-! ## Loading -/

structure FitsTable (F : Type) where
  distmu : Option (List (Option F))
  distsigma : Option (List (Option F))
  distnorm : Option (List (Option F))
  uniq : Option (List (BitVec 64))
  probdensity : Except String (List F)
  ordering : Except String String
  nside : Except String (BitVec 64)
  prob : Except String (List F)

structure LIGO3dskymap (F : Type) where
  uniq : List Nat
  pixelAreaSr : List F
  prob : List F
  distmu : List (Option F)
  distsigma : List (Option F)
  distnorm : List (Option F)
  maxOrder : Nat
  /-- The entries of the map from pixels to rows, in the order they were put; `none` where the row
      is the pixel. -/
  uniqToRow : Option (List (Nat × Nat))

inductive Skymap3dError where
  | notThreeDimensional
  | invalid (text : String)
deriving DecidableEq

/-- Why loading stopped. -/
inductive Stop where
  | rejected (error : Skymap3dError)
  | fault (fault : Fault)
deriving DecidableEq

def checked {α : Type} (steps : Checked α) : Except Stop α :=
  steps.mapError .fault

def invalid {α : Type} (text : String) : Except Stop α :=
  .error (.rejected (.invalid text))

def readColumn {α : Type} (column : Except String α) (text : String → String) : Except Stop α :=
  match column with
  | .ok values => .ok values
  | .error e => invalid (text e)

def readDistances {α : Type} (column : Option α) : Except Stop α :=
  match column with
  | some values => .ok values
  | none => .error (.rejected .notThreeDimensional)

structure Pixels (F : Type) where
  uniq : List Nat
  pixelAreaSr : List F
  prob : List F
  uniqToRow : Option (List (Nat × Nat))

section

variable [Field F] [LinearOrder F] [RealFunctions F]

def readUniq (table : FitsTable F) (column : List (BitVec 64)) : Except Stop (Pixels F) := do
  let uniq := column.map BitVec.toNat
  match uniq.find? (· < 4) with
  | some bad => invalid s!"Invalid UNIQ index in skymap FITS: {bad} (minimum valid UNIQ is 4)"
  | none =>
    let areas ← checked (uniq.mapM fun u => do pixelAreaFromOrder (← uniqToOrder u))
    let probdensity ← readColumn table.probdensity fun e => s!"PROBDENSITY column missing from UNIQ skymap: {e}"
    pure {
      uniq := uniq
      pixelAreaSr := areas
      prob := List.zipWith (· * ·) probdensity areas
      uniqToRow := some uniq.zipIdx }

def readFlat (table : FitsTable F) : Except Stop (Pixels F) := do
  let ordering ← readColumn table.ordering fun e =>
    s!"skymap has neither a readable int64 UNIQ column nor an ORDERING keyword: {e}"
  if Filter.trim ordering ≠ "NESTED" then
    invalid s!"Unsupported HEALPix ORDERING {Filter.trim ordering}: only NESTED is supported"
  else
    let nside ← readColumn table.nside id
    let nside := (nside.setWidth 32).toNat
    if 2 ^ nside.log2 ≠ nside then invalid s!"NSIDE must be a power of two, got {nside}"
    else
      let order := nside.log2
      let area ← checked (pixelAreaFromOrder order)
      let npix ← checked (do checkedMul 64 12 (← checkedPow 64 nside 2))
      let prob ← readColumn table.prob id
      if prob.length ≠ npix then
        invalid s!"Flat skymap has {prob.length} rows but NSIDE={nside} implies {npix} pixels; only implicit full-sky maps are supported"
      else
        let base ← checked (checkedShl 64 1 (2 * order + 2))
        let uniq ← checked ((List.range npix).mapM fun i => checkedAdd 64 base i)
        pure { uniq := uniq, pixelAreaSr := List.replicate npix area, prob := prob, uniqToRow := none }

def readPixels (table : FitsTable F) : Except Stop (Pixels F) :=
  match table.uniq with
  | some column => readUniq table column
  | none => readFlat table

def parse3dSkymap (table : FitsTable F) : Except Stop (LIGO3dskymap F) := do
  let distmu ← readDistances table.distmu
  let distsigma ← readDistances table.distsigma
  let distnorm ← readDistances table.distnorm
  let pixels ← readPixels table
  if distmu.length ≠ pixels.prob.length ∨ distsigma.length ≠ pixels.prob.length ∨ distnorm.length ≠ pixels.prob.length then
    invalid "DISTMU/DISTSIGMA/DISTNORM lengths do not match the probability column"
  else
    let orders ← checked (pixels.uniq.mapM uniqToOrder)
    pure {
      uniq := pixels.uniq
      pixelAreaSr := pixels.pixelAreaSr
      prob := pixels.prob
      distmu := distmu
      distsigma := distsigma
      distnorm := distnorm
      maxOrder := orders.foldl max 0
      uniqToRow := pixels.uniqToRow }

end

/-! ## Searching -/

namespace LIGO3dskymap

def rowOf (rows : List (Nat × Nat)) (uniq : Nat) : Option Nat :=
  rows.reverse.lookup uniq

def rowAt (rows : List (Nat × Nat)) (order ipix : Nat) : Checked (Option Nat) := do
  let base ← checkedShl 64 1 (2 * order + 2)
  let uniq ← checkedAdd 64 base ipix
  pure (rowOf rows uniq)

def walk (rows : List (Nat × Nat)) : Nat → Nat → Checked (Option Nat)
  | 0, ipix => rowAt rows 0 ipix
  | order + 1, ipix => do
    match ← rowAt rows (order + 1) ipix with
    | some row => pure (some row)
    | none => walk rows order (ipix >>> 2)

def ang2pix {Position : Type} (layers : Layers Position) (map : LIGO3dskymap F) (position : Position) : Checked (Option Nat) := do
  let layer ← nestedGet layers map.maxOrder
  match map.uniqToRow with
  | none => pure (some (layer position))
  | some rows => walk rows map.maxOrder (layer position)

section

variable [Field F] [LinearOrder F] [RealFunctions F]

def distParams (map : LIGO3dskymap F) (row : Nat) : Checked (Option (F × F × F)) := do
  let mu ← readAt map.distmu row
  let sigma ← readAt map.distsigma row
  let norm ← readAt map.distnorm row
  match mu, sigma, norm with
  | some mu, some sigma, some norm => pure (if 0 < sigma ∧ 0 < norm then some (mu, sigma, norm) else none)
  | _, _, _ => pure none

def gauss (sigma zSq : F) : F :=
  RealFunctions.exp (-0.5 * zSq) / (sigma * sqrtTwoPi)

def pixelDpdv (map : LIGO3dskymap F) (row : Nat) (distance : F) : Checked (Option F) := do
  match ← distParams map row with
  | none => pure none
  | some (mu, sigma, norm) =>
    let prob ← readAt map.prob row
    let area ← readAt map.pixelAreaSr row
    pure (some (prob / area * norm * gauss sigma (((distance - mu) / sigma) ^ 2)))

def peakDpdv (map : LIGO3dskymap F) (row : Nat) : Checked (Option F) := do
  match ← readAt map.distmu row with
  | some mu => pixelDpdv map row mu
  | none => pure none

def dMax (map : LIGO3dskymap F) : F :=
  ((map.distmu.zip map.distsigma).filterMap fun column =>
    match column.1, column.2 with
    | some mu, some sigma => if 0 < sigma then some (mu + 5 * sigma) else none
    | _, _ => none).foldl max 0

def voxelsOf (map : LIGO3dskymap F) (distBins : Nat) (row : Nat) : Checked (List (F × F)) := do
  let dr := map.dMax / distBins
  let pPix ← readAt map.prob row
  if pPix < map.prob.sum * 1e-7 then pure []
  else
    let area ← readAt map.pixelAreaSr row
    match ← distParams map row with
    | none => pure []
    | some (mu, sigma, norm) =>
      pure ((List.range distBins).filterMap fun (bin : Nat) =>
        let r := ((bin : F) + 0.5) * dr
        let zSq := ((r - mu) / sigma) ^ 2
        if 25 < zSq then none
        else
          let dpdv := pPix / area * norm * gauss sigma zSq
          if 0 < dpdv then some (dpdv, dpdv * area * r * r * dr) else none)

def build (sorts : DescendingSort F) (map : LIGO3dskymap F) (distBins : Nat) : Checked (CredibleVolumeIndex F) := do
  if map.dMax ≤ 0 then pure ⟨[], []⟩
  else
    let each ← (List.range map.prob.length).mapM (voxelsOf map distBins)
    let voxels := sorts.sort Prod.fst each.flatten
    let totalDp := (voxels.map Prod.snd).sum
    let normFactor := if 0 < totalDp then 1 / totalDp else 1
    pure {
      sortedDpdv := voxels.map Prod.fst
      cumProb := runningSums 0 (voxels.map fun voxel => voxel.2 * normFactor) }

def valueBelow (values : List F) (index : Nat) : Checked F :=
  if values.length ≤ index then pure 0 else readAt values index

def densityThreshold (index : CredibleVolumeIndex F) (credibleLevel : F) : Checked F :=
  valueBelow index.sortedDpdv (partitionPoint (· < credibleLevel) index.cumProb)

def searchedProbVol (index : CredibleVolumeIndex F) (dpdv : F) : Checked F := do
  let k := partitionPoint (dpdv < ·) index.sortedDpdv
  if k = 0 then pure 0
  else if index.cumProb.length ≤ k then pure 1
  else readAt index.cumProb (← checkedSub k 1)

def searchedProbVolAt {Position : Type} (layers : Layers Position) (index : CredibleVolumeIndex F) (map : LIGO3dskymap F)
    (position : Position) (distance : F) : Checked (Option F) := do
  match ← ang2pix layers map position with
  | none => pure none
  | some row =>
    match ← pixelDpdv map row distance with
    | none => pure none
    | some dpdv => pure (some (← searchedProbVol index dpdv))

def includedCell (map : LIGO3dskymap F) (probFloor threshold : F) (row : Nat) : Checked (Option (Nat × Nat)) := do
  let prob ← readAt map.prob row
  if prob < probFloor then pure none
  else
    let peak ← peakDpdv map row
    if peak.any (threshold ≤ ·) then
      let u ← readAt map.uniq row
      pure (some (← uniqToOrder u, ← uniqToIpix u))
    else pure none

def fromCells (depth : Nat) (cells : List (Nat × Nat)) : Checked HpxMoc :=
  if depth ≤ deepest then .ok ⟨depth, cells⟩ else .error .unsupported

def credibleVolumeTo2dMoc (sorts : DescendingSort F) (map : LIGO3dskymap F) (index : CredibleVolumeIndex F)
    (credibleLevel : F) : Checked HpxMoc := do
  let threshold ← densityThreshold index credibleLevel
  let sortedProb := sorts.sort id map.prob
  let probFloor ← valueBelow sortedProb (partitionPoint (· ≤ credibleLevel) (runningSums 0 sortedProb))
  let included ← (List.range map.prob.length).mapM (includedCell map probFloor threshold)
  fromCells map.maxOrder (included.filterMap id)

end

end LIGO3dskymap

end Boom.Utils.Skymap3d
