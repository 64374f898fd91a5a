import Boom.Foundations.Collection
import Boom.Foundations.Double
import Boom.Utils.Enums
import Mathlib.Data.String.Basic
import Std.Data.TreeMap

/-! # Persistent identity for linked moving-object tracks

`planUpsert` resolves a run's track against what is stored, and `commitUpsert`
writes the plan.  Identity is by shared membership: a run's track that shares
enough detections with a stored one is that track, extended.

The writers hold the tracks lock from plan to commit, so both are functions of the
stored collections.  Epochs and fits are floating-point numbers of any platform. -/

namespace Boom.Utils

open Boom.Foundations

/-! ## Surveys and sites -/

structure Site (F : Type) where
  longitudeDeg : F
  astrometricSigmaArcsec : F

section Sites

variable (F : Type) [Floating F]

def ztf : Site F := ⟨243.14022, 0.25⟩

def rubin : Site F := ⟨289.25058, 0.09⟩

def decam : Site F := ⟨289.19358, 0.15⟩

def winter : Site F := ⟨243.13746, 0.5⟩

def surveySite : Survey → Option (Site F)
  | .ztf => none
  | .lsst => some (rubin F)
  | .decam => some (decam F)
  | .winter => some (winter F)

end Sites

section Nights

variable {F : Type} [Floating F]

def nightOffset (site : Option (Site F)) : F :=
  match site with
  | none => 0.5
  | some site => Floating.remEuclid (-site.longitudeDeg / 360.0) 1.0

def nightAt (jd : F) (site : Option (Site F)) : Int :=
  Floating.floorInt (jd - nightOffset site)

end Nights

/-! ## Members -/

abbrev Member := Survey × Int64

def compareMember : Member → Member → Ordering :=
  compareLex (compareOn Prod.fst) (compareOn Prod.snd)

def winterIds : Int64 := 51000000000000000
def decamIds : Int64 := 52000000000000000
def lsstIds : Int64 := 53000000000000000
def ztfIds : Int64 := 400000000000000000

def legacyMemberId (survey : Survey) (alertId : Int64) : Int64 :=
  match survey with
  | .ztf | .lsst => alertId
  | .decam => decamIds + alertId
  | .winter => winterIds + alertId

def legacyMember (id : Int64) : Member :=
  if winterIds ≤ id ∧ id < decamIds then (.winter, id - winterIds)
  else if decamIds ≤ id ∧ id < lsstIds then (.decam, id - decamIds)
  else if lsstIds ≤ id ∧ id < ztfIds then (.lsst, id)
  else (.ztf, id)

/-! ## Stored tracks -/

/-- How well a bound orbit reproduces a track. -/
inductive BoundFit where
  | good
  | poor
  | none
  | ungated
deriving DecidableEq, Repr

namespace BoundFit

def asStr : BoundFit → String
  | .good => "good"
  | .poor => "poor"
  | .none => "none"
  | .ungated => "ungated"

def parse : String → Option BoundFit
  | "good" => some .good
  | "poor" => some .poor
  | "none" => some .none
  | "ungated" => some .ungated
  | _ => Option.none

def rank : BoundFit → Nat
  | .good => 0
  | .poor => 1
  | .none => 2
  | .ungated => 3

end BoundFit

structure StoredOrbit (F : Type) where
  epochJd : F
  pos : F × F × F
  vel : F × F × F

/-- A track as stored, keyed by an id that outlives any one linking run. -/
structure StoredTrack (F : Type) where
  id : String
  members : List Int64
  /-- Empty on tracks written before it, whose member ids encode their survey. -/
  memberSurveys : List Survey
  epochs : List F
  boundFit : Option String
  boundFitResidualArcsec : Option F
  boundFitDetections : Option Nat
  expectedRmsArcsec : Option F
  rmsRatio : Option F
  nDetections : Nat
  nNights : Nat
  arcDays : F
  firstJd : F
  lastJd : F
  designation : Option String
  kind : Option String
  nearPlanet : Option String
  updatedAt : F
  orbit : Option (StoredOrbit F)

def StoredTrack.memberKeys {F : Type} (track : StoredTrack F) : List Member :=
  if track.memberSurveys.isEmpty then track.members.map legacyMember
  else track.memberSurveys.zip track.members

/-- What is stamped on every member alert. -/
structure AlertTrack (F : Type) where
  id : String
  nDetections : Nat
  nNights : Nat
  arcDays : F
  firstJd : F
  lastJd : F
  boundFit : Option String
  designation : Option String
  kind : Option String
  nearPlanet : Option String

def StoredTrack.alertTrack {F : Type} (track : StoredTrack F) : AlertTrack F where
  id := track.id
  nDetections := track.nDetections
  nNights := track.nNights
  arcDays := track.arcDays
  firstJd := track.firstJd
  lastJd := track.lastJd
  boundFit := track.boundFit
  designation := track.designation
  kind := track.kind
  nearPlanet := track.nearPlanet

/-! ## Identity -/

def sharedForIdentity : Nat := 2

inductive Identity where
  | extends (id : String)
  | merges (ids : List String)
  | new
deriving DecidableEq, Repr

def StoredTrack.shared {F : Type} (track : StoredTrack F) (incoming : List Member) : Nat :=
  (track.memberKeys.filter fun member => incoming.contains member).length

def identify {F : Type} (members : List Member) (stored : List (StoredTrack F)) : Identity :=
  let matched := (stored.filter fun track => sharedForIdentity ≤ track.shared members).map (·.id)
  match matched.mergeSort (· ≤ ·) with
  | [] => .new
  | [id] => .extends id
  | ids => .merges ids

def resolveMerge (ids : List String) : Option (String × List String) :=
  ids.min?.map fun survivor => (survivor, ids.filter (· ≠ survivor))

def base62 : List Char :=
  "0123456789ABCDEFGHIJKLMNOPQRSTUVWXYZabcdefghijklmnopqrstuvwxyz".toList

def digits (base width n : Nat) : List Char :=
  match width with
  | 0 => []
  | width + 1 => digits base width (n / base) ++ [base62.getD (n % base) '0']

def formatId (n : Nat) : String :=
  if n < 6200000 then
    String.ofList ("BT".toList ++ [base62.getD (n / 100000) '0'] ++ digits 10 5 (n % 100000))
  else String.ofList ("BT~".toList ++ digits 62 5 (n - 6200000))

/-! ## The stored collections -/

structure TrackStore (F : Type) where
  tracks : Collection String (StoredTrack F)
  aliases : Collection String String
  sequence : Nat
  stamps : Member → Option (AlertTrack F)

def TrackStore.empty (F : Type) : TrackStore F where
  tracks := Collection.empty
  aliases := Collection.empty
  sequence := 0
  stamps := fun _ => none

section Upsert

variable {F : Type} [Floating F]

def overlapping (store : TrackStore F) (members : List Member) : List (StoredTrack F) :=
  let ids := members.flatMap fun member => [member.2, legacyMemberId member.1 member.2]
  (store.tracks.find fun _ track => track.members.any fun id => ids.contains id).map Prod.snd

structure Summary (F : Type) where
  nDetections : Nat
  nNights : Nat
  arcDays : F
  firstJd : F
  lastJd : F

def summarise (members : List Member) (jds : List F) : Summary F :=
  let nights := ((members.zip jds).map fun entry => nightAt entry.2 (surveySite F entry.1.1)).dedup
  let first := jds.foldl Floating.fmin Floating.maxValue
  let last := jds.foldl Floating.fmax Floating.minValue
  { nDetections := members.length, nNights := nights.length, arcDays := last - first
    firstJd := first, lastJd := last }

structure Verdict (F : Type) where
  fit : BoundFit
  residual : Option F
  fitOn : Nat
  orbit : Option (StoredOrbit F)

def fitDetections (track : StoredTrack F) : Nat :=
  track.boundFitDetections.getD track.nDetections

def Verdict.atMost (first second : Verdict F) : Bool :=
  first.fitOn < second.fitOn || (first.fitOn == second.fitOn && second.fit.rank ≤ first.fit.rank)

def greatestVerdict (verdicts : List (Verdict F)) : Option (Verdict F) :=
  verdicts.foldl (fun best verdict => match best with
    | none => some verdict
    | some held => if held.atMost verdict then some verdict else some held) none

def storedVerdict (track : StoredTrack F) : Option (Verdict F) := do
  let fit ← BoundFit.parse (← track.boundFit)
  return { fit := fit, residual := track.boundFitResidualArcsec, fitOn := fitDetections track
           orbit := track.orbit }

/-- A run's track, offered to the store.  `members` and `jds` are parallel. -/
structure Incoming (F : Type) where
  members : List Member
  jds : List F
  designation : Option String
  nearPlanet : Option String
  boundFit : Option (BoundFit × Option F)
  orbit : Option (StoredOrbit F)

/-- What an upsert would do, resolved against what is stored but not yet written. -/
structure UpsertPlan (F : Type) where
  /-- `none` for a track nothing stored matches; commit mints it. -/
  id : Option String
  members : List Member
  epochs : List F
  summary : Summary F
  boundFit : Option String
  boundFitResidualArcsec : Option F
  boundFitDetections : Option Nat
  orbit : Option (StoredOrbit F)
  designation : Option String
  kind : Option String
  nearPlanet : Option String
  superseded : List String
  contested : List Member
  dropped : List Member
  unchangedSince : Option F

def resolveIdentity : Identity → Option String × List String
  | .new => (none, [])
  | .extends id => (some id, [])
  | .merges ids =>
    match resolveMerge ids with
    | some (survivor, gone) => (some survivor, gone)
    | none => (none, [])

def carried {α : Type} (absorbed : List String) (existing : List (StoredTrack F))
    (field : StoredTrack F → Option α) : Option α :=
  absorbed.findSome? fun id => (existing.find? fun track => track.id == id).bind field

def ownedElsewhere (absorbed : List String) (existing : List (StoredTrack F)) : List Member :=
  (existing.filter fun track => !absorbed.contains track.id).flatMap (·.memberKeys)

def byCandid (incoming : Incoming F) (absorbed : List String) (existing : List (StoredTrack F)) :
    Std.TreeMap Member F compareMember :=
  let owned := ownedElsewhere absorbed existing
  let seen := (incoming.members.zip incoming.jds).filter fun entry => !owned.contains entry.1
  (existing.filter fun track => absorbed.contains track.id).foldl
    (fun map track => (track.memberKeys.zip track.epochs).foldl
      (fun map entry => map.insertIfNew entry.1 entry.2) map)
    (seen.foldl (fun map entry => map.insert entry.1 entry.2) ∅)

def sameResidual (first second : Option F) : Bool :=
  match first, second with
  | some a, some b => Floating.less (Floating.abs (a - b)) 0.01
  | a, b => a.isNone && b.isNone

/-- Resolve a run's track against what is stored, without writing anything. -/
def planUpsert (store : TrackStore F) (incoming : Incoming F) : UpsertPlan F :=
  let existing := overlapping store incoming.members
  let (id, superseded) := resolveIdentity (identify incoming.members existing)
  let absorbed := id.toList ++ superseded
  let designation := incoming.designation.or (carried absorbed existing (·.designation))
  let nearPlanet := incoming.nearPlanet.or (carried absorbed existing (·.nearPlanet))
  let kind := carried absorbed existing (·.kind)
  let owned := ownedElsewhere absorbed existing
  let entries := (byCandid incoming absorbed existing).toList
  let contested := (incoming.members.filter fun member => owned.contains member).mergeSort
    fun first second => (compareMember first second).isLE
  let incomingFit := incoming.boundFit.map fun fit =>
    { fit := fit.1, residual := fit.2, fitOn := incoming.members.length - contested.length
      orbit := incoming.orbit : Verdict F }
  let storedFit := greatestVerdict
    ((existing.filter fun track => absorbed.contains track.id).filterMap storedVerdict)
  -- The verdict fit on more of the track stands, the newer one on as much of it.
  let verdict := match incomingFit, storedFit with
    | some new, some old => if new.fitOn < old.fitOn then some old else some new
    | none, old => old
    | new, none => new
  let all := entries.map Prod.fst
  let epochs := entries.map Prod.snd
  let boundFit := verdict.map (·.fit.asStr)
  let residual := verdict.bind (·.residual)
  let fitOn := verdict.map (·.fitOn)
  let orbit := verdict.bind (·.orbit)
  let unchangedSince := match id, superseded with
    | some id, [] =>
      ((existing.find? fun track => track.id == id).filter fun track =>
        track.memberKeys == all && track.epochs == epochs && track.designation == designation &&
          track.nearPlanet == nearPlanet && track.boundFit == boundFit &&
          (orbit.isNone || track.orbit.isSome) && fitOn.all (· == fitDetections track) &&
          sameResidual track.boundFitResidualArcsec residual).map (·.updatedAt)
    | _, _ => none
  { id := id, members := all, epochs := epochs, summary := summarise all epochs
    boundFit := boundFit, boundFitResidualArcsec := residual, boundFitDetections := fitOn
    orbit := orbit, designation := designation, kind := kind, nearPlanet := nearPlanet
    superseded := superseded, contested := contested, dropped := []
    unchangedSince := unchangedSince }

def expectedRmsArcsec (members : List Member) : Option F :=
  if members.isEmpty then none
  else
    let sum := (members.map fun member =>
      let sigma := ((surveySite F member.1).getD (ztf F)).astrometricSigmaArcsec
      sigma * sigma).foldl (· + ·) (Floating.ofNat 0)
    some (Floating.sqrt (sum / Floating.ofNat members.length))

/-- What a committed upsert did. -/
structure Upserted (F : Type) where
  track : StoredTrack F
  superseded : List String

/-- The track a plan writes under `id`. -/
def UpsertPlan.stored (plan : UpsertPlan F) (id : String) (now : F) : StoredTrack F :=
  let expected := expectedRmsArcsec plan.members
  { id := id
    members := plan.members.map Prod.snd
    memberSurveys := plan.members.map Prod.fst
    epochs := plan.epochs
    boundFit := plan.boundFit
    boundFitResidualArcsec := plan.boundFitResidualArcsec
    boundFitDetections := plan.boundFitDetections
    expectedRmsArcsec := expected
    rmsRatio := plan.boundFitResidualArcsec.bind fun rms => expected.map fun expected => rms / expected
    nDetections := plan.summary.nDetections
    nNights := plan.summary.nNights
    arcDays := plan.summary.arcDays
    firstJd := plan.summary.firstJd
    lastJd := plan.summary.lastJd
    designation := plan.designation
    kind := plan.kind
    nearPlanet := plan.nearPlanet
    orbit := plan.orbit
    updatedAt := plan.unchangedSince.getD now }

def redirect (aliases : Collection String String) (superseded : List String) (id : String) :
    Collection String String :=
  superseded.foldl (fun aliases old => aliases.replaceOne old id)
    (aliases.updateMany (fun _ target => superseded.contains target) fun _ => id)

def commitUpsert (store : TrackStore F) (now : F) (plan : UpsertPlan F) :
    Upserted F × TrackStore F :=
  let (id, store) := match plan.id with
    | some id => (id, store)
    | none => (formatId (store.sequence + 1), { store with sequence := store.sequence + 1 })
  let stored := plan.stored id now
  if plan.unchangedSince.isSome then ({ track := stored, superseded := [] }, store)
  else
    let owners := id :: plan.superseded
    ({ track := stored, superseded := plan.superseded },
      { store with
        tracks := (store.tracks.replaceOne id stored).deleteMany fun key _ =>
          plan.superseded.contains key
        aliases := redirect store.aliases plan.superseded id
        stamps := fun member =>
          if plan.dropped.contains member &&
              (store.stamps member).any (fun stamp => owners.contains stamp.id) then none
          else store.stamps member })

end Upsert

end Boom.Utils
