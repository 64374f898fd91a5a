import Boom.Foundations.Aggregation
import Boom.Foundations.Bson
import Mathlib.Data.List.Sort

/-! # Outbursts of moving objects

A moving object is scored against its own earlier photometry, which is read for a whole
batch at a time: one query for every object in it, over one window of time.  What is
then scored is one detection, against the points of its object that lie before it.

Arithmetic on doubles, the light of a phase curve and the statistics are functions the
model takes as given (`Numerics`). -/

namespace Boom.Enrichment

open Boom.Foundations

/-! ## Numbers and points -/

structure F32 where
  bits : BitVec 32
deriving DecidableEq, Repr

namespace F32

def magnitude (value : F32) : Nat := value.bits.toNat % 0x80000000

def isFinite (value : F32) : Bool := decide (value.magnitude < 0x7f800000)

def nonnegative (value : F32) : Bool :=
  decide (value.magnitude = 0) || decide (value.bits.toNat ≤ 0x7f800000)

end F32

def minF64 (first second : F64) : F64 :=
  if first.isNan then second else if second.lt first then second else first

/-- One photometric point. -/
structure Point where
  rh : F64
  delta : F64
  phase : F64
  mag : F64
  magErr : F64
  band : Nat

/-- An object's brightness model in one band. -/
structure PhaseCurve where
  h : F64
  g12 : F64
  scatter : F64
  n : Nat

structure OrbitalElements where
  epochJd : F64
  a : F64
  e : F64
  incl : F64
  node : F64
  peri : F64
  meanAnomaly : F64
  q : F64
  tp : F64

structure Geometry where
  helioDist : F64
  topoDist : F64
  phaseAngle : F64
  trueAnomaly : F64
  perihelionTime : F64

/-- The floating-point code the model takes as given, and IPAC's names of objects. -/
structure Numerics where
  /-- `as f64` of an integer. -/
  ofInt : Int → F64
  /-- `as u8` and `as usize` of a double. -/
  toByte : F64 → Nat
  toSize : F64 → Nat
  widen : F32 → F64
  narrow : F64 → F32
  minus : F64 → F64 → F64
  withPerihelion : OrbitalElements → OrbitalElements
  geometryAt : OrbitalElements → F64 → Geometry
  deviation : PhaseCurve → Point → Option F64
  windowScatter : List Point → F64 → Option F64
  /-- The median that `outburst_statistic` returns. -/
  outburstStatistic : List Point → F64 → F64 → Option F64
  sameBandStatistic : List Point → F64 → F64 → Option (List (Nat × F64))
  /-- The key of an object's orbit, from the name an alert carries. -/
  normalizeZtfSsnamenr : String → Option String

namespace Numerics

variable (numerics : Numerics)

def bsonNumber : Bson → Option F64
  | .double value => some value
  | .int32 value | .int64 value => some (numerics.ofInt value)
  | _ => none

end Numerics

/-! ## Scores -/

def zero : F64 := ⟨0⟩

/-- `0.5`. -/
def DEFAULT_G12 : F64 := ⟨0x3fe0000000000000⟩

/-- `20.0`. -/
def MAX_SEPARATION_ARCSEC : F64 := ⟨0x4034000000000000⟩

/-- `30.0`. -/
def HISTORY_WINDOW_DAYS : F64 := ⟨0x403e000000000000⟩

def sevenDays : F64 := ⟨0x401c000000000000⟩

def fourteenDays : F64 := ⟨0x402c000000000000⟩

structure OutburstPoint where
  jd : F64
  sigma : F32
deriving DecidableEq

structure Outburst where
  d7 : Option F32
  d14 : Option F32
  d30 : Option F32
  points : List OutburstPoint
  scatter : Option F32
  baseline : Option F32
deriving DecidableEq

namespace Outburst

variable (numerics : Numerics)

def medianWithin (history : List (F64 × Point)) (test : Point) (testJd g12 scatter days : F64) : Option F32 :=
  let window := (history.filter fun entry => (numerics.minus testJd days).le entry.1).map Prod.snd
  if window.isEmpty then none
  else do
    let median ← numerics.outburstStatistic (window ++ [test]) g12 scatter
    if (numerics.narrow median).isFinite then some (numerics.narrow median) else none

def fromHistory (history : List (F64 × Point)) (test : Point) (testJd : F64) (curve : Option PhaseCurve) :
    Option Outburst :=
  let baseline := ((curve.bind fun curve => numerics.deviation curve test).filter F64.isFinite).map
    numerics.narrow
  let g12 := (curve.map PhaseCurve.g12).getD DEFAULT_G12
  if history.isEmpty then
    baseline.map fun baseline =>
      { d7 := none, d14 := none, d30 := none, points := []
        scatter := curve.map fun curve => numerics.narrow curve.scatter, baseline := some baseline }
  else
    let all := history.map Prod.snd ++ [test]
    let scatter := match curve with
      | some curve => curve.scatter
      | none => (numerics.windowScatter all g12).getD zero
    let points := (((numerics.sameBandStatistic all g12 scatter).getD []).filter fun entry =>
      entry.2.isFinite).filterMap fun entry =>
        history[entry.1]?.map fun point => { jd := point.1, sigma := numerics.narrow entry.2 : OutburstPoint }
    let outburst : Outburst :=
      { d7 := medianWithin numerics history test testJd g12 scatter sevenDays
        d14 := medianWithin numerics history test testJd g12 scatter fourteenDays
        d30 := medianWithin numerics history test testJd g12 scatter HISTORY_WINDOW_DAYS
        points := points
        scatter := some (numerics.narrow scatter)
        baseline := baseline }
    if outburst.d30.isSome || !outburst.points.isEmpty || outburst.baseline.isSome then some outburst
    else none

end Outburst

/-! ## Alerts -/

/-- What the scoring reads of a detection. -/
structure Candidate where
  jd : F64
  fid : Int
  programid : Int
  magpsf : F32
  sigmapsf : F32
  ssnamenr : Option String
  ssdistnr : Option F32
  ssmagnr : Option F32

/-- An alert to enrich; `rest` is everything else the alert carries. -/
structure ZtfAlertForEnrichment (ρ : Type) where
  candid : Int
  candidate : Candidate
  rest : ρ

/-- Solar system object association for a single detection. -/
structure ZtfSsoAssociation where
  isSso : Bool
  designation : Option String
  separationArcsec : Option F32
  predictedMag : Option F32
  source : Option String
  helioDist : Option F32
  topoDist : Option F32
  phaseAngle : Option F32
  trueAnomaly : Option F32
  perihelionTime : Option F64
deriving DecidableEq

namespace ZtfSsoAssociation

def fromIpac (designation : Option String) (ssdistnr ssmagnr : Option F32) : ZtfSsoAssociation where
  isSso := designation.isSome
  designation := designation
  separationArcsec := ssdistnr.filter F32.nonnegative
  predictedMag := ssmagnr.filter F32.nonnegative
  source := if designation.isSome then some "ipac" else none
  helioDist := none
  topoDist := none
  phaseAngle := none
  trueAnomaly := none
  perihelionTime := none

def withGeometry (numerics : Numerics) (sso : ZtfSsoAssociation) (elements : Option OrbitalElements)
    (jd : F64) : ZtfSsoAssociation :=
  match elements with
  | none => sso
  | some elements =>
    let geometry := numerics.geometryAt elements jd
    { sso with
      helioDist := some (numerics.narrow geometry.helioDist)
      topoDist := some (numerics.narrow geometry.topoDist)
      phaseAngle := some (numerics.narrow geometry.phaseAngle)
      trueAnomaly := some (numerics.narrow geometry.trueAnomaly)
      perihelionTime := some geometry.perihelionTime }

@[simp] theorem designation_withGeometry (numerics : Numerics) (sso : ZtfSsoAssociation)
    (elements : Option OrbitalElements) (jd : F64) :
    (sso.withGeometry numerics elements jd).designation = sso.designation := by
  cases elements <;> rfl

@[simp] theorem separationArcsec_withGeometry (numerics : Numerics) (sso : ZtfSsoAssociation)
    (elements : Option OrbitalElements) (jd : F64) :
    (sso.withGeometry numerics elements jd).separationArcsec = sso.separationArcsec := by
  cases elements <;> rfl

end ZtfSsoAssociation

def outburstFor (numerics : Numerics) (sso : ZtfSsoAssociation) (candidate : Candidate)
    (ssoHistory : String → Option (List (F64 × Point)))
    (baselines : String → Option (Nat → Option PhaseCurve)) : Option Outburst := do
  let separation := numerics.widen (← sso.separationArcsec)
  if MAX_SEPARATION_ARCSEC.le separation then none
  else
    let test : Point := {
      rh := numerics.widen (← sso.helioDist)
      delta := numerics.widen (← sso.topoDist)
      phase := numerics.widen (← sso.phaseAngle)
      mag := numerics.widen candidate.magpsf
      magErr := numerics.widen candidate.sigmapsf
      band := (candidate.fid % 256).toNat }
    let designation ← sso.designation
    let history := ((ssoHistory designation).map fun points =>
      points.filter fun entry => entry.1.lt candidate.jd).getD []
    let curve := (baselines designation).bind fun bands => bands test.band
    Outburst.fromHistory numerics history test candidate.jd curve

end Boom.Enrichment
