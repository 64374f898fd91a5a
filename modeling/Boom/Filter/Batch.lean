import Boom.Filter.KeptFields
import Boom.Foundations.Bson
import Boom.Utils.Tracks

/-! # What a worker reads for a batch of alerts

The results of the filters on a batch belong to the alerts whose ids they have.  For each
alert that passed, its packet and its cutouts are read.

What the stages mean and the other collections hold is a parameter, as are the packets
that are sent and the images in them. -/

namespace Boom.Filter

open Boom.Foundations Boom.Foundations.Aggregation
open Boom.Utils (Survey)

inductive FilterWorkerError where
  | filterError (error : FilterError)
  | bsonValueAccess
  | fetchAlertsError
  | cutoutStorageError
  | missingCutoutsBatch (count : Nat)
  | missingCutouts (candid : Int)

/-! ## What the worker reads -/

/-- An alert as it is read to be sent. -/
inductive Fetched (P : Type) where
  | absent
  | unreadable
  | found (packet : P)

/-- A moving object as seen at an epoch. -/
structure Geometry where
  helioDist : F64
  topoDist : F64
  phaseAngle : F64
  trueAnomaly : F64
  perihelionTime : F64

structure World (E P C : Type) where
  meaning : Meaning Bson
  alerts : List (Doc Bson)
  normalizeZtfSsnamenr : String → Option String
  orbits : String → Option E
  geometryAt : E → F64 → Geometry
  fetchAlert : Int → Fetched P
  cutouts : Int → Except Unit (Option C)

variable {E P C : Type}

/-! ## What the filters give -/

structure FilterResults where
  filterId : String
  filterName : String
  annotations : Doc Bson
deriving DecidableEq

structure Alert (P C : Type) where
  candid : Int
  filters : List FilterResults
  packet : P
  cutouts : C

section Run

variable (world : World E P C)

def fetchAlerts : List Int → Option (List (Int × P))
  | [] => some []
  | candid :: rest =>
    match world.fetchAlert candid with
    | .absent => fetchAlerts rest
    | .unreadable => none
    | .found packet => (fetchAlerts rest).map ((candid, packet) :: ·)

def retrieveMultipleCutouts : List Int → Option (List (Int × C))
  | [] => some []
  | candid :: rest =>
    match world.cutouts candid with
    | .error _ => none
    | .ok none => retrieveMultipleCutouts rest
    | .ok (some cutouts) => (retrieveMultipleCutouts rest).map ((candid, cutouts) :: ·)

def resultsOf (results : List (Int × FilterResults)) (candid : Int) : List FilterResults :=
  (results.filter fun entry => entry.1 = candid).map Prod.snd

end Run

end Boom.Filter
