import Boom.Foundations.Firsts
import Boom.Foundations.FloatOrder
import Boom.Foundations.Ranking
import Boom.Foundations.Windows
import Boom.Utils.Tracks

/-! # Tracklets

The detections of a night that are consistent with one source moving at a constant rate. Pairs
that could be one mover are grown by the detections near their line, and what a longer tracklet
covers is left out. Numbers are those of any platform. -/

namespace Boom.Utils.Linking

open Boom.Foundations

section Records

variable (F : Type) [Trigonometric F]

/-- A detection of a moving object. -/
structure Detection where
  id : Int
  /-- Mid-exposure, UTC. -/
  jd : FiniteFloat F
  ra : FiniteFloat F
  dec : FiniteFloat F
  mag : Option F
  magErr : Option F
  band : Option Char
  /-- Where it was observed from, when that is not the run's default site. -/
  site : Option (Site F)

/-- Bounds a tracklet must satisfy to be believable. -/
structure TrackletConfig where
  minRateDegPerDay : F
  maxRateDegPerDay : F
  maxRmsArcsec : F
  matchRadiusArcsec : F
  minDetections : Nat
  maxSpanDays : F
  minPairDtDays : F
  minArcArcsec : F
  maxMagSigma : Option F
  intrinsicMagScatter : F
  /-- Else a pair's band of declinations could end before it begins. -/
  matchRadius_nonneg : Floating.less matchRadiusArcsec 0.0 = false

/-- Detections fitted by constant motion through the tangent plane. -/
structure Tracklet where
  ids : List Int
  /-- The mean of the detections' epochs. -/
  jdRef : F
  raRef : F
  decRef : F
  raRateDegPerDay : F
  decRateDegPerDay : F
  rmsArcsec : F
  /-- Centre of the tangent plane the rates are expressed in. -/
  raCenter : F
  decCenter : F
  /-- Plane position at `jdRef`, degrees. -/
  xi0 : F
  eta0 : F
  site : Option (Site F)

end Records

variable {F : Type} [Trigonometric F]

namespace TrackletConfig

def default (radius_nonneg : Floating.less (3.0 : F) 0.0 = false) : TrackletConfig F where
  minRateDegPerDay := 0.02
  maxRateDegPerDay := 1.0
  maxRmsArcsec := 1.5
  matchRadiusArcsec := 3.0
  minDetections := 2
  maxSpanDays := 3.0 / 24.0
  minPairDtDays := 0.1 / 24.0
  minArcArcsec := 10.0
  maxMagSigma := some 5.0
  intrinsicMagScatter := 0.15
  matchRadius_nonneg := radius_nonneg

def maxSep (cfg : TrackletConfig F) : F :=
  cfg.maxRateDegPerDay * cfg.maxSpanDays

def matchRadius (cfg : TrackletConfig F) : F :=
  cfg.matchRadiusArcsec / 3600.0

end TrackletConfig

/-! ## The tangent plane -/

/-- Great-circle separation in degrees. -/
def angularSeparationDeg (ra1 dec1 ra2 dec2 : F) : F :=
  let r1 := Trigonometric.toRadians ra1
  let d1 := Trigonometric.toRadians dec1
  let r2 := Trigonometric.toRadians ra2
  let d2 := Trigonometric.toRadians dec2
  let sd := Trigonometric.sin ((d2 - d1) / 2.0)
  let sr := Trigonometric.sin ((r2 - r1) / 2.0)
  let h := sd * sd + Trigonometric.cos d1 * Trigonometric.cos d2 * sr * sr
  Trigonometric.toDegrees (2.0 * Trigonometric.arcsin (Trigonometric.clamp (Floating.sqrt h) (-1.0) 1.0))

/-- Gnomonic projection about `(ra0, dec0)`, degrees. -/
def tangentPlane (ra dec ra0 dec0 : F) : Option (F × F) :=
  let r := Trigonometric.toRadians ra
  let d := Trigonometric.toRadians dec
  let r0 := Trigonometric.toRadians ra0
  let d0 := Trigonometric.toRadians dec0
  let cosC := Trigonometric.sin d0 * Trigonometric.sin d +
    Trigonometric.cos d0 * Trigonometric.cos d * Trigonometric.cos (r - r0)
  if Trigonometric.lessEq cosC 1e-12 then none
  else
    let xi := Trigonometric.cos d * Trigonometric.sin (r - r0) / cosC
    let eta := (Trigonometric.cos d0 * Trigonometric.sin d -
      Trigonometric.sin d0 * Trigonometric.cos d * Trigonometric.cos (r - r0)) / cosC
    some (Trigonometric.toDegrees xi, Trigonometric.toDegrees eta)

def fromTangentPlane (xiDeg etaDeg ra0 dec0 : F) : F × F :=
  let xi := Trigonometric.toRadians xiDeg
  let eta := Trigonometric.toRadians etaDeg
  let r0 := Trigonometric.toRadians ra0
  let d0 := Trigonometric.toRadians dec0
  let rho := Trigonometric.hypot xi eta
  if Floating.less rho 1e-15 then (ra0, dec0)
  else
    let c := Trigonometric.arctan rho
    let dec := Trigonometric.arcsin (Trigonometric.cos c * Trigonometric.sin d0 +
      eta * Trigonometric.sin c * Trigonometric.cos d0 / rho)
    let ra := r0 + Trigonometric.atan2 (xi * Trigonometric.sin c)
      (rho * Trigonometric.cos d0 * Trigonometric.cos c - eta * Trigonometric.sin d0 * Trigonometric.sin c)
    (Floating.remEuclid (Trigonometric.toDegrees ra) 360.0, Trigonometric.toDegrees dec)

/-! ## Fits -/

def total (values : List F) : F :=
  values.foldl (· + ·) 0.0

/-- Least-squares `v = a + b*t`, unless every epoch coincides. -/
def fitLine (t v : List F) : Option (F × F) :=
  let n : F := Floating.ofNat t.length
  let mt := total t / n
  let mv := total v / n
  let num := total (List.zipWith (fun ti vi => (ti - mt) * (vi - mv)) t v)
  let den := total (List.zipWith (fun ti _ => (ti - mt) * (ti - mt)) t v)
  if Trigonometric.lessEq den 0.0 then none
  else
    let b := num / den
    some (mv - b * mt, b)

/-- How far detections in the plane are from a line, squared. -/
def residuals (t : List F) (plane : List (F × F)) (x y : F × F) : List F :=
  List.zipWith (fun (ti : F) (p : F × F) =>
    (p.1 - (x.1 + x.2 * ti)) * (p.1 - (x.1 + x.2 * ti)) + (p.2 - (y.1 + y.2 * ti)) * (p.2 - (y.1 + y.2 * ti))) t plane

def photometryDisagrees (cfg : TrackletConfig F) (a b : Detection F) : Bool :=
  match cfg.maxMagSigma with
  | none => false
  | some limit =>
    if a.band ≠ b.band then false
    else
      match a.mag, b.mag, a.magErr, b.magErr with
      | some ma, some mb, some sa, some sb =>
        let floor := cfg.intrinsicMagScatter
        let sigma := Floating.sqrt (sa * sa + sb * sb + floor * floor)
        Trigonometric.isFinite sigma && Floating.less 0.0 sigma &&
          Floating.less limit (Floating.abs (ma - mb) / sigma)
      | _, _, _, _ => false

/-- Constant motion fitted to detections, if it holds. -/
def fitTracklet (cfg : TrackletConfig F) (dets : List (Detection F)) : Option (Tracklet F) :=
  match dets with
  | [] => none
  | [_] => none
  | center :: _ :: _ =>
    let jds := dets.map (·.jd.val)
    if Floating.less cfg.maxSpanDays (jds.foldl Floating.fmax Floating.minValue - jds.foldl Floating.fmin Floating.maxValue)
    then none
    else do
      let n : F := Floating.ofNat dets.length
      let jdRef := total jds / n
      -- Projected about the first detection, so that the fit stays linear in the plane.
      let plane ← dets.mapM fun d => tangentPlane d.ra.val d.dec.val center.ra.val center.dec.val
      let t := jds.map (· - jdRef)
      let x ← fitLine t (plane.map (·.1))
      let y ← fitLine t (plane.map (·.2))
      let rmsArcsec := Floating.sqrt (total (residuals t plane x y) / n) * 3600.0
      if Floating.less cfg.maxRmsArcsec rmsArcsec then none
      else
        let position := fromTangentPlane x.1 y.1 center.ra.val center.dec.val
        let rate := Trigonometric.hypot x.2 y.2
        if Floating.less rate cfg.minRateDegPerDay || Floating.less cfg.maxRateDegPerDay rate then none
        else
          some {
            ids := dets.map (·.id), jdRef, raRef := position.1, decRef := position.2, raRateDegPerDay := x.2,
            decRateDegPerDay := y.2, rmsArcsec, raCenter := center.ra.val, decCenter := center.dec.val, xi0 := x.1,
            eta0 := y.1, site := center.site }

def predict (tracklet : Tracklet F) (jd : F) : F × F :=
  let dt := jd - tracklet.jdRef
  fromTangentPlane (tracklet.xi0 + tracklet.raRateDegPerDay * dt) (tracklet.eta0 + tracklet.decRateDegPerDay * dt)
    tracklet.raCenter tracklet.decCenter

/-! ## Finding them -/

abbrev Entry (F : Type) [Trigonometric F] : Type :=
  Detection F × Nat

def Southward (a b : Entry F) : Prop :=
  Floating.less b.1.dec.val a.1.dec.val = false

instance : DecidableRel (Southward (F := F)) := fun _ _ => inferInstanceAs (Decidable (_ = _))

def byDec (detections : List (Detection F)) : List (Entry F) :=
  detections.zipIdx.insertionSort Southward

/-- The tests of a pair before it is fitted. -/
def couldBeOne (cfg : TrackletConfig F) (a b : Detection F) : Bool :=
  let dt := Floating.abs (b.jd.val - a.jd.val)
  let sep := angularSeparationDeg a.ra.val a.dec.val b.ra.val b.dec.val
  let rate := sep / dt
  !(Floating.less dt cfg.minPairDtDays || Floating.less cfg.maxSpanDays dt) && !photometryDisagrees cfg a b &&
    !Floating.less (sep * 3600.0) cfg.minArcArcsec &&
    !(Floating.less rate cfg.minRateDegPerDay || Floating.less cfg.maxRateDegPerDay rate)

def tooFar (cfg : TrackletConfig F) (a b : Entry F) : Bool :=
  Floating.less cfg.maxSep (b.1.dec.val - a.1.dec.val)

/-- South of the band that what joins the pair is in. -/
def below (cfg : TrackletConfig F) (a b d : Entry F) : Bool :=
  Floating.less d.1.dec.val (Floating.fmin a.1.dec.val b.1.dec.val - (cfg.maxSep + cfg.matchRadius))

/-- Not north of that band. -/
def notAbove (cfg : TrackletConfig F) (a b d : Entry F) : Bool :=
  Trigonometric.lessEq d.1.dec.val (Floating.fmax a.1.dec.val b.1.dec.val + (cfg.maxSep + cfg.matchRadius))

def nearLine (cfg : TrackletConfig F) (seed : Tracklet F) (a b d : Entry F) : Bool :=
  let place := predict seed d.1.jd.val
  !(d.2 == a.2 || d.2 == b.2 || Floating.less cfg.maxSpanDays (Floating.abs (d.1.jd.val - seed.jdRef))) &&
    !photometryDisagrees cfg a.1 d.1 &&
    Trigonometric.lessEq (angularSeparationDeg d.1.ra.val d.1.dec.val place.1 place.2) cfg.matchRadius

def joining (cfg : TrackletConfig F) (order : List (Entry F)) (seed : Tracklet F) (a b : Entry F) : List (Entry F) :=
  let lo := partitionPoint (below cfg a b) order
  let hi := partitionPoint (notAbove cfg a b) order
  ((order.take hi).drop lo).filter (nearLine cfg seed a b)

/-- No further in time from where the pair is fitted. -/
def Nearer (seed : Tracklet F) (p q : Detection F) : Prop :=
  Trigonometric.totalLe (Floating.abs (p.jd.val - seed.jdRef)) (Floating.abs (q.jd.val - seed.jdRef)) = true

def Earlier (p q : Detection F) : Prop :=
  Trigonometric.totalLe p.jd.val q.jd.val = true

instance (seed : Tracklet F) : DecidableRel (Nearer seed) := fun _ _ => inferInstanceAs (Decidable (_ = _))

instance : DecidableRel (Earlier (F := F)) := fun _ _ => inferInstanceAs (Decidable (_ = _))

def widen (window : F × F) (d : Detection F) : F × F :=
  (Floating.fmin window.1 d.jd.val, Floating.fmax window.2 d.jd.val)

def narrow (cfg : TrackletConfig F) (window : F × F) : Bool :=
  Trigonometric.lessEq (window.2 - window.1) cfg.maxSpanDays

def pairWindow (a b : Entry F) : F × F :=
  (Floating.fmin a.1.jd.val b.1.jd.val, Floating.fmax a.1.jd.val b.1.jd.val)

def grown (cfg : TrackletConfig F) (order : List (Entry F)) (seed : Tracklet F) (a b : Entry F) : List (Detection F) :=
  let members := a.1 :: b.1 :: (joining cfg order seed a b).map (·.1)
  let nearest := members.insertionSort (Nearer seed)
  -- The window starts as the pair's, so that a detection far from it cannot cost the pair.
  let within := retain widen (narrow cfg) (pairWindow a b) nearest
  (within.insertionSort Earlier).destutter fun p q => p.id ≠ q.id

def grownTracklet (cfg : TrackletConfig F) (order : List (Entry F)) (a b : Entry F) : Option (Tracklet F) :=
  if couldBeOne cfg a.1 b.1 then
    match fitTracklet cfg [a.1, b.1] with
    | none => none
    | some seed =>
      let members := grown cfg order seed a b
      if members.length < cfg.minDetections then none else fitTracklet cfg members
  else none

def sweep (cfg : TrackletConfig F) (order : List (Entry F)) : List (Entry F) → List (Tracklet F)
  | [] => []
  | a :: later =>
    (later.takeWhile fun b => !tooFar cfg a b).filterMap (grownTracklet cfg order a) ++ sweep cfg order later

def LongerOrTighter (a b : Tracklet F) : Prop :=
  b.ids.length < a.ids.length ∨ b.ids.length = a.ids.length ∧ Floating.less b.rmsArcsec a.rmsArcsec = false

instance : DecidableRel (LongerOrTighter (F := F)) := fun _ _ => inferInstanceAs (Decidable (_ ∨ _))

def covers (kept c : Tracklet F) : Bool :=
  c.ids.all (kept.ids.contains ·)

def findTracklets (cfg : TrackletConfig F) (detections : List (Detection F)) : List (Tracklet F) :=
  if detections.length < max cfg.minDetections 2 then []
  else
    let order := byDec detections
    let candidates := sweep cfg order order
    firsts covers [] (candidates.insertionSort LongerOrTighter)

end Boom.Utils.Linking
