import Boom.Enrichment.Classify
import Boom.Enrichment.SsoReads

/-! # Enriching a batch of ZTF alerts

A batch of candids is read, enriched alert by alert, classified, and written at the end
with one bulk write.  An error on the way ends the batch before anything is written;
only an alert with an empty light curve is skipped. -/

namespace Boom.Enrichment

open Boom.Foundations

variable {ρ κ φ β δ : Type}

inductive EnrichmentWorkerError where
  | mongoDeserialize
  | cutoutStorage
  | missingCutouts (candid : Int)
  | emptyLightcurve (candid : Int)
  | configuration (message : String)
deriving DecidableEq

inductive CutoutStorage where
  | mongo
  | s3 (compressStamps : Bool)

def CutoutStorage.compressed : CutoutStorage → Bool
  | .mongo => false
  | .s3 compressStamps => compressStamps

/-- A worker, with the code it calls on one alert: a batch is never empty and never
    longer than `batchSize`. -/
structure ZtfEnrichmentWorker (ρ κ φ β δ : Type) where
  numerics : Numerics
  models : Models ρ κ β δ
  gpuEnabled : Bool
  batchSize : Nat
  batchSize_pos : 0 < batchSize
  storage : CutoutStorage
  decompressStamps : κ → Option κ
  /-- Reading a joined document as an alert. -/
  fromDocument : Fields → Option (Candidate × ρ)
  /-- The detections and forced photometry of the alert up to its epoch, prepared. -/
  lightcurve : ZtfAlertForEnrichment ρ → List PhotometryMag
  /-- Everything else that is computed of an alert and its light curve. -/
  analyzePhotometry : ZtfAlertForEnrichment ρ → List PhotometryMag → φ × β

structure AlertUpdate (φ δ : Type) where
  candid : Int
  properties : ZtfAlertProperties φ
  classifications : Option (ZtfAlertClassifications δ)

structure Enriched (φ δ : Type) where
  updates : List (AlertUpdate φ δ)
  processed : List (Int × Int)

namespace ZtfEnrichmentWorker

variable (worker : ZtfEnrichmentWorker ρ κ φ β δ) (database : Database κ)

def joinedDocuments (candids : List Int) : List (Int × Fields) :=
  (database.alerts.find fun id _ => candids.contains id).filterMap fun doc =>
    (database.joined doc.1).map fun fields => (doc.1, fields)

def readAlert (doc : Int × Fields) : Option (ZtfAlertForEnrichment ρ) :=
  (worker.fromDocument doc.2).map fun read => { candid := doc.1, candidate := read.1, rest := read.2 }

def fetchAlerts (candids : List Int) : Except EnrichmentWorkerError (List (ZtfAlertForEnrichment ρ)) :=
  match gather worker.readAlert (joinedDocuments database candids) with
  | some alerts => .ok alerts
  | none => .error .mongoDeserialize

def retrieveMultipleCutouts (candids : List Int) : Except EnrichmentWorkerError (List (Int × κ)) :=
  let found := database.cutouts.find fun id _ => candids.contains id
  if worker.storage.compressed then
    match gather (fun held => (worker.decompressStamps held.2).map fun cutouts => (held.1, cutouts)) found with
    | some cutouts => .ok cutouts
    | none => .error .cutoutStorage
  else .ok found

structure SsoContext where
  orbits : String → Option OrbitalElements
  history : String → Option (List (F64 × Point))
  baselines : String → Option (Nat → Option PhaseCurve)

def ssoContext (alerts : List (ZtfAlertForEnrichment ρ)) : SsoContext where
  orbits name := (fetchOrbits worker.numerics database alerts).lookup name
  history name := fetchSsoHistory worker.numerics database alerts name
  baselines name := (fetchBaselines worker.numerics database alerts).lookup name

def getAlertProperties (context : SsoContext) (alert : ZtfAlertForEnrichment ρ) :
    Except EnrichmentWorkerError (ZtfAlertProperties φ × β × Int × List PhotometryMag) :=
  let candidate := alert.candidate
  let elements := candidate.ssnamenr.bind context.orbits
  let sso := (ZtfSsoAssociation.fromIpac candidate.ssnamenr candidate.ssdistnr candidate.ssmagnr).withGeometry
    worker.numerics elements candidate.jd
  let outburst := outburstFor worker.numerics sso candidate context.history context.baselines
  let lightcurve := worker.lightcurve alert
  -- no usable photometry: every feature would come from placeholder zeros
  if lightcurve.isEmpty then .error (.emptyLightcurve alert.candid)
  else
    let analyzed := worker.analyzePhotometry alert lightcurve
    .ok ({ features := analyzed.1, sso := sso, outburst := outburst }, analyzed.2, candidate.programid, lightcurve)

/-- The alerts in turn, each with the cutouts taken out of the map. -/
def workItems (context : SsoContext) : List (Int × κ) → List (ZtfAlertForEnrichment ρ) →
    Except EnrichmentWorkerError (List (AlertWork ρ κ φ β))
  | _, [] => .ok []
  | cutouts, alert :: rest =>
    match cutouts.lookup alert.candid with
    | none => .error (.missingCutouts alert.candid)
    | some held =>
      let left := cutouts.filter fun entry => entry.1 != alert.candid
      match worker.getAlertProperties context alert with
      | .ok (properties, allBands, programid, lightcurve) => do
        let items ← workItems context left rest
        return {
          candid := alert.candid
          programid := programid
          properties := properties
          allBandsProperties := allBands
          cutouts := held
          alert := alert
          ztfLightcurve := lightcurve } :: items
      -- skip the alert instead of aborting the batch
      | .error (.emptyLightcurve _) => workItems context left rest
      | .error error => .error error

def classify (items : List (AlertWork ρ κ φ β)) :
    Except EnrichmentWorkerError (List (Option (ZtfAlertClassifications δ))) :=
  if worker.gpuEnabled then
    (classifyGpuBatch worker.numerics worker.models worker.batchSize items).mapError .configuration
  else .ok (classifyPerItem worker.numerics worker.models items)

def processAlerts (candids : List Int) : Except EnrichmentWorkerError (Enriched φ δ) := do
  let alerts ← worker.fetchAlerts database candids
  if alerts.isEmpty then return { updates := [], processed := [] }
  let cutouts ← worker.retrieveMultipleCutouts database candids
  let items ← worker.workItems (worker.ssoContext database alerts) cutouts alerts
  let classifications ← worker.classify items
  return {
    updates := (items.zip classifications).map fun entry =>
      { candid := entry.1.candid, properties := entry.1.properties, classifications := entry.2 }
    processed := (items.zip classifications).map fun entry => (entry.1.programid, entry.1.candid) }

end ZtfEnrichmentWorker

end Boom.Enrichment
