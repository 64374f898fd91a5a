import Boom.Alert.TimeSeries
import Boom.Foundations.Collection
import Boom.Foundations.Program

/-! # Ingesting a ZTF alert

`processAlert` writes the light curves of the object, then the cutouts, then the
alert itself.  The light curves are written by the first of three operations that
applies: an insert of the object, an update prepared in memory and guarded by the
version it was prepared against, and an update the database computes alone.

A record keeps the fields these functions read: the photometry next to a time, the
cross-matches and the images are carried along by the source and looked at by none
of it. -/

namespace Boom.Alert

open Boom.Foundations

/-! ## Packets -/

structure ZtfPrvCandidate where
  jd : F64
  magpsf : Option (BitVec 32)
deriving DecidableEq, Repr

instance : TimeSeries ZtfPrvCandidate := ⟨ZtfPrvCandidate.jd⟩

structure ZtfForcedPhot where
  jd : F64
deriving DecidableEq, Repr

instance : TimeSeries ZtfForcedPhot := ⟨ZtfForcedPhot.jd⟩

structure ZtfCandidate where
  jd : F64
  ra : F64
  dec : F64
  magpsf : BitVec 32
deriving DecidableEq, Repr

def ZtfPrvCandidate.ofCandidate (candidate : ZtfCandidate) : ZtfPrvCandidate where
  jd := candidate.jd
  magpsf := some candidate.magpsf

structure ZtfRawAvroAlert where
  candid : Int
  objectId : String
  candidate : ZtfCandidate
  prvCandidates : Option (List ZtfPrvCandidate)
  fpHists : Option (List ZtfForcedPhot)
deriving DecidableEq, Repr

structure Lightcurves where
  prvCandidates : List ZtfPrvCandidate
  prvNondetections : List ZtfPrvCandidate
  fpHists : List ZtfForcedPhot
deriving DecidableEq, Repr

structure ZtfAliases where
  lsst : List String
  decam : List String
deriving DecidableEq, Repr

structure ZtfObject extends Lightcurves where
  aliases : Option ZtfAliases
  createdAt : F64
  updatedAt : F64
  version : Option Int
deriving DecidableEq, Repr

structure ZtfAlert where
  candid : Int
  objectId : String
  candidate : ZtfCandidate
  createdAt : F64
  updatedAt : F64
deriving DecidableEq, Repr

/-! ## The database -/

inductive Neighbour where
  | lsst
  | decam
deriving DecidableEq, Repr

structure ZtfDb where
  alerts : Collection Int ZtfAlert
  aux : Collection String ZtfObject
  cutouts : Collection Int Unit
  nearby : Neighbour → F64 → F64 → Option (Option String)

structure AuxPush where
  prvCandidates : List ZtfPrvCandidate × Bool
  prvNondetections : List ZtfPrvCandidate × Bool
  fpHists : List ZtfForcedPhot × Bool
deriving DecidableEq, Repr

def wrapI32 (version : Int) : Int := version.bmod 0x100000000

def inI32 (version : Int) : Bool := -0x80000000 ≤ version && version < 0x80000000

def i32Max : Int := 0x7fffffff

def ZtfObject.pushed (object : ZtfObject) (push : AuxPush) (current : Option Int)
    (aliases : Option ZtfAliases) (now : F64) : ZtfObject where
  prvCandidates := pushUpdate object.prvCandidates push.prvCandidates.1 push.prvCandidates.2
  prvNondetections :=
    pushUpdate object.prvNondetections push.prvNondetections.1 push.prvNondetections.2
  fpHists := pushUpdate object.fpHists push.fpHists.1 push.fpHists.2
  aliases := aliases
  createdAt := object.createdAt
  updatedAt := now
  version := some (wrapI32 (current.getD 0 + 1))

def ZtfObject.merged (object : ZtfObject) (packet : Lightcurves) (aliases : Option ZtfAliases)
    (now : F64) : ZtfObject where
  prvCandidates := updateTimeseriesOp object.prvCandidates packet.prvCandidates
  prvNondetections := updateTimeseriesOp object.prvNondetections packet.prvNondetections
  fpHists := updateTimeseriesOp object.fpHists packet.fpHists
  aliases := aliases
  createdAt := object.createdAt
  updatedAt := now
  -- An `i32` that overflows here becomes an `i64`.
  version := some (object.version.getD 0 + 1)

/-- The requests ingestion makes. -/
inductive ZtfOp : Type → Type where
  | countAlerts (candid : Int) : ZtfOp Nat
  | nearest (catalog : Neighbour) (ra dec : F64) : ZtfOp (Option (Option String))
  | findAux (objectId : String) : ZtfOp (Option ZtfObject)
  | xmatch (objectId : String) (ra dec : F64) : ZtfOp Unit
  | insertAux (objectId : String) (object : ZtfObject) : ZtfOp Bool
  | pushAux (objectId : String) (current : Option Int) (push : AuxPush) (aliases : Option ZtfAliases)
      (now : F64) : ZtfOp Nat
  | mergeAux (objectId : String) (packet : Lightcurves) (aliases : Option ZtfAliases) (now : F64) :
      ZtfOp Nat
  | insertCutouts (candid : Int) : ZtfOp Bool
  | insertAlert (alert : ZtfAlert) : ZtfOp Bool

def ZtfOp.exec {β : Type} (op : ZtfOp β) (db : ZtfDb) : β × ZtfDb :=
  match op with
  | .countAlerts candid => (if (db.alerts.get candid).isSome then 1 else 0, db)
  | .nearest catalog ra dec => (db.nearby catalog ra dec, db)
  | .findAux objectId => (db.aux.get objectId, db)
  | .xmatch _ _ _ => ((), db)
  | .insertAux objectId object =>
    match db.aux.insertOne objectId object with
    | some aux => (true, { db with aux := aux })
    | none => (false, db)
  | .pushAux objectId current push aliases now =>
    (if db.aux.matches? objectId fun object => object.version == current then 1 else 0,
      { db with aux := db.aux.updateOne objectId (fun object => object.version == current)
                  (·.pushed push current aliases now) })
  | .mergeAux objectId packet aliases now =>
    (if db.aux.matches? objectId fun _ => true then 1 else 0,
      { db with aux := db.aux.updateOne objectId (fun _ => true) (·.merged packet aliases now) })
  | .insertCutouts candid =>
    match db.cutouts.insertOne candid () with
    | some cutouts => (true, { db with cutouts := cutouts })
    | none => (false, db)
  | .insertAlert alert =>
    match db.alerts.insertOne alert.candid alert with
    | some alerts => (true, { db with alerts := alerts })
    | none => (false, db)

instance : Store ZtfOp ZtfDb := ⟨ZtfOp.exec⟩

abbrev ZtfProg : Type → Type 1 := ExceptT AlertError (Prog ZtfOp)

def ask {β : Type} (op : ZtfOp β) : ZtfProg β :=
  Prog.request .mongodb op

/-! ## Updating the object -/

/-- What an update reads of the stored object. -/
structure AlertAuxForUpdate where
  prvCandidates : List LightcurveJdOnly
  prvNondetections : List LightcurveJdOnly
  fpHists : List LightcurveJdOnly
  version : Option Int
deriving DecidableEq, Repr

def ZtfObject.forUpdate (object : ZtfObject) : AlertAuxForUpdate where
  prvCandidates := jdOnly object.prvCandidates
  prvNondetections := jdOnly object.prvNondetections
  fpHists := jdOnly object.fpHists
  version := object.version

def getExistingAux (objectId : String) : ZtfProg (Option AlertAuxForUpdate) := do
  let found ← ask (.findAux objectId)
  if found.any fun object => object.version.any fun version => !inI32 version then
    throw .mongodb
  return found.map (·.forUpdate)

def updateAuxFallback (objectId : String) (packet : Lightcurves) (aliases : Option ZtfAliases)
    (now : F64) : ZtfProg Unit := do
  let matched ← ask (.mergeAux objectId packet aliases now)
  if matched = 0 then
    throw (.alertAuxFallbackUpdateFailed objectId)

def preparePush (packet : Lightcurves) (existing : AlertAuxForUpdate) : Except AlertError AuxPush := do
  let prvCandidates ←
    prepareTimeseriesUpdate packet.prvCandidates existing.prvCandidates "prv_candidates"
  let prvNondetections ←
    prepareTimeseriesUpdate packet.prvNondetections existing.prvNondetections "prv_nondetections"
  let fpHists ← prepareTimeseriesUpdate packet.fpHists existing.fpHists "fp_hists"
  return { prvCandidates := prvCandidates, prvNondetections := prvNondetections, fpHists := fpHists }

def updateAuxInner (objectId : String) (packet : Lightcurves) (aliases : Option ZtfAliases) (now : F64)
    (existing : AlertAuxForUpdate) : ZtfProg Unit := do
  let push ← Prog.lift (preparePush packet existing)
  let matched ← ask (.pushAux objectId existing.version push aliases now)
  if matched = 0 then
    throw (.concurrentAuxUpdate objectId)

def updateAux (objectId : String) (packet : Lightcurves) (aliases : Option ZtfAliases) (now : F64)
    (existing : AlertAuxForUpdate) : ZtfProg Unit :=
  tryCatch (updateAuxInner objectId packet aliases now existing) fun _ =>
    updateAuxFallback objectId packet aliases now

def insertAux (objectId : String) (object : ZtfObject) : ZtfProg Unit := do
  let inserted ← ask (.insertAux objectId object)
  if !inserted then
    throw .alertAuxExists

def auxStep (objectId : String) (ra dec : F64) (packet : Lightcurves) (aliases : Option ZtfAliases)
    (now : F64) : ZtfProg Unit := do
  let existing ← getExistingAux objectId
  match existing with
  | some existing => updateAux objectId packet aliases now existing
  | none =>
    Prog.request .xmatch (.xmatch objectId ra dec)
    let object : ZtfObject :=
      { toLightcurves := packet, aliases := aliases, createdAt := now, updatedAt := now
        version := none }
    tryCatch (insertAux objectId object) fun
      | .alertAuxExists => updateAuxFallback objectId packet aliases now
      | error => throw error

/-! ## Processing an alert -/

def splitPrvCandidates (prvCandidates : List ZtfPrvCandidate) :
    List ZtfPrvCandidate × List ZtfPrvCandidate :=
  prvCandidates.partition fun point => point.magpsf.isSome

def packetLightcurves (alert : ZtfRawAvroAlert) : Lightcurves :=
  let (detections, nondetections) := splitPrvCandidates (alert.prvCandidates.getD [])
  let detections := if detections.any fun point => point.jd.eq alert.candidate.jd then detections
    else detections ++ [ZtfPrvCandidate.ofCandidate alert.candidate]
  { prvCandidates := sanitizeTimeseries detections
    prvNondetections := sanitizeTimeseries nondetections
    fpHists := sanitizeTimeseries (alert.fpHists.getD []) }

def decRange : F64 × F64 := (⟨0xc056800000000000⟩, ⟨0x4040c00000000000⟩)

def getMatches (catalog : Neighbour) (ra dec : F64) : ZtfProg (List String) :=
  if decRange.1.le dec && dec.le decRange.2 then
    ExceptT.mk (.call (.nearest catalog ra dec) fun
      | some (some (some objectId)) => .ret (.ok [objectId])
      | some (some none) => .ret (.error .bsonValueAccess)
      | some none | none => .ret (.ok []))
  else pure []

def getSurveyMatches (ra dec : F64) : ZtfProg ZtfAliases := do
  let lsst ← getMatches .lsst ra dec
  let decam ← getMatches .decam ra dec
  return { lsst := lsst, decam := decam }

inductive ProcessAlertStatus where
  | added (candid : Int)
  | exists (candid : Int)
deriving DecidableEq, Repr

def formatAndInsertCutouts (candid : Int) : ZtfProg Unit := do
  let _ ← Prog.request .cutoutStorageError (.insertCutouts candid)

def formatAndInsertAlert (alert : ZtfAlert) : ZtfProg ProcessAlertStatus := do
  let inserted ← ask (.insertAlert alert)
  return if inserted then .added alert.candid else .exists alert.candid

def prepareAlert (alert : ZtfRawAvroAlert) (now : F64) : ZtfProg Unit := do
  let aliases ← getSurveyMatches alert.candidate.ra alert.candidate.dec
  auxStep alert.objectId alert.candidate.ra alert.candidate.dec (packetLightcurves alert)
    (some aliases) now
  formatAndInsertCutouts alert.candid

def processAlert (decoded : Except AlertError ZtfRawAvroAlert) (now : F64) :
    ZtfProg ProcessAlertStatus := do
  let alert ← Prog.lift decoded
  let count ← ask (.countAlerts alert.candid)
  if 0 < count then
    return .exists alert.candid
  prepareAlert alert now
  formatAndInsertAlert
    { candid := alert.candid, objectId := alert.objectId, candidate := alert.candidate
      createdAt := now, updatedAt := now }

end Boom.Alert
