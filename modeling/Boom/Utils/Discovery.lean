import Boom.Foundations.Transition
import Boom.Utils.TrackWrites

/-! # Persisting what a pass found

A pass offers its candidates to the store one by one: plan, check against the orbit,
commit, and stamp the track onto its members.  An operation that fails is counted in the
report, and the pass goes on with the next candidate. -/

namespace Boom.Utils

open Boom.Foundations

variable {F : Type}

/-! ## From a plan to a commit -/

def UpsertPlan.withKind (plan : UpsertPlan F) (kind : String) : UpsertPlan F :=
  if plan.kind = some kind then plan else { plan with kind := some kind, unchangedSince := none }

structure Reproduced (F : Type) where
  keep : Member → Bool
  rmsArcsec : F
  nObs : Nat
  orbit : StoredOrbit F

section Plans

variable [Floating F]

def UpsertPlan.keepReproduced (plan : UpsertPlan F) (check : Option (Reproduced F)) : UpsertPlan F :=
  match plan.orbit, plan.boundFitDetections, check with
  | some _, some fittedOn, some fit =>
    if plan.boundFit ≠ some BoundFit.good.asStr || plan.summary.nDetections ≤ fittedOn then plan
    else
      let entries := plan.members.zip plan.epochs
      let kept := entries.filter fun entry => fit.keep entry.1
      let members := kept.map Prod.fst
      let epochs := kept.map Prod.snd
      { plan with
        members := members
        epochs := epochs
        summary := summarise members epochs
        boundFitResidualArcsec := some fit.rmsArcsec
        boundFitDetections := some fit.nObs
        orbit := some fit.orbit
        dropped := (entries.filter fun entry => !fit.keep entry.1).map Prod.fst
        unchangedSince := none }
  | _, _, _ => plan

def UpsertPlan.meets (plan : UpsertPlan F) (minDetections minNights : Nat) : Bool :=
  minDetections ≤ plan.summary.nDetections && minNights ≤ plan.summary.nNights

def persistPlan (store : TrackStore F) (incoming : Incoming F) (kind : Option String)
    (check : Option (Reproduced F)) : UpsertPlan F :=
  let planned := planUpsert store incoming
  (kind.elim planned planned.withKind).keepReproduced check

/-! ## Stamping -/

inductive PersistWrite (F : Type) where
  | commit (write : TrackWrite F)
  | stamp (survey : Survey) (ids : List Int64) (track : AlertTrack F) (missingOnly : Bool)

def stampWrites (stored : StoredTrack F) (missingOnly : Bool) : List (PersistWrite F) :=
  (alertsBySurvey stored.memberKeys).map fun group => .stamp group.1 group.2 stored.alertTrack missingOnly

def UpsertPlan.persistWrites (plan : UpsertPlan F) (id : String) (now : F) : List (PersistWrite F) :=
  (plan.writes id now).map .commit ++ stampWrites (plan.stored id now) plan.unchangedSince.isSome

end Plans

structure Stamping (F : Type) where
  store : TrackStore F
  behind : List String

def stamped (asked : Bool) (track : AlertTrack F) (missingOnly : Bool) (stamp : Option (AlertTrack F)) :
    Option (AlertTrack F) :=
  if asked && (!missingOnly || !stamp.any fun stamp => stamp.id == track.id) then some track else stamp

def PersistWrite.changes (store : TrackStore F) : PersistWrite F → List String
  | .commit (.replace id _) => if (store.tracks.get id).isSome then [id] else []
  | _ => []

def PersistWrite.applyStore : PersistWrite F → TrackStore F → TrackStore F
  | .commit write, store => write.apply store
  | .stamp survey ids track missingOnly, store =>
    { store with
      stamps := fun member =>
        stamped (survey == member.1 && ids.contains member.2) track missingOnly (store.stamps member) }

def PersistWrite.apply (write : PersistWrite F) (stamping : Stamping F) : Stamping F where
  store := write.applyStore stamping.store
  behind := write.changes stamping.store ++ stamping.behind

def PersistWrite.applyAll (writes : List (PersistWrite F)) (stamping : Stamping F) : Stamping F :=
  writes.foldl (fun stamping write => write.apply stamping) stamping

/-! ## Passes -/

structure PersistReport where
  /-- Whether the pass held the tracks lock. -/
  ran : Bool
  /-- Whether the pass stopped early. -/
  interrupted : Bool
  /-- Tracks that could not be resolved, stored or stamped. -/
  failed : Nat
deriving DecidableEq, Repr

def PersistReport.complete (report : PersistReport) : Bool :=
  report.ran && !report.interrupted && report.failed == 0

structure Job (F : Type) where
  id : String
  pending : List (PersistWrite F)

structure Pass (F : Type) where
  report : PersistReport
  touched : List String
  job : Option (Job F)

structure Persisting (F : Type) where
  stamping : Stamping F
  pass : Option (Pass F)
  /-- The report of the pass that ended last, with the tracks it touched.  A pass that
      crashed leaves none. -/
  ended : Option (PersistReport × List String)

namespace Persisting

def empty (F : Type) : Persisting F where
  stamping := { store := TrackStore.empty F, behind := [] }
  pass := none
  ended := none

def start (state : Persisting F) : Persisting F :=
  { state with pass := some { report := ⟨true, false, 0⟩, touched := [], job := none }, ended := none }

section Actions

variable [Floating F]

def offer (state : Persisting F) (pass : Pass F) (plan : UpsertPlan F) (now : F) : Persisting F :=
  let (id, store) := plan.mint state.stamping.store
  { state with
    stamping := { state.stamping with store := store }
    pass := some { pass with job := some { id := id, pending := plan.persistWrites id now } } }

def write (state : Persisting F) (pass : Pass F) (job : Job F) (operation : PersistWrite F)
    (rest : List (PersistWrite F)) : Persisting F :=
  { state with
    stamping := operation.apply state.stamping
    pass := some { pass with job := some { job with pending := rest } } }

def settle (state : Persisting F) (pass : Pass F) (job : Job F) : Persisting F :=
  { state with
    stamping := { state.stamping with behind := state.stamping.behind.filter (· ≠ job.id) }
    pass := some { pass with touched := job.id :: pass.touched, job := none } }

def fail (state : Persisting F) (pass : Pass F) : Persisting F :=
  { state with
    pass := some { pass with report := { pass.report with failed := pass.report.failed + 1 }, job := none } }

def interrupt (state : Persisting F) (pass : Pass F) : Persisting F :=
  { state with pass := some { pass with report := { pass.report with interrupted := true } } }

def finish (state : Persisting F) (pass : Pass F) : Persisting F :=
  { state with pass := none, ended := some (pass.report, pass.touched) }

def crash (state : Persisting F) : Persisting F :=
  { state with pass := none, ended := none }

end Actions

end Persisting

structure Permits (F : Type) where
  offer : Stamping F → UpsertPlan F → Prop
  cut : List (PersistWrite F) → Prop

def Pass.pending (pass : Pass F) : List (PersistWrite F) :=
  pass.job.elim [] Job.pending

section Steps

variable [Floating F]

/-- One step of a pass, or between passes.  Every alert has one time, `jd`. -/
inductive Persisting.Step (jd : Member → F) (permits : Permits F) (state : Persisting F) : Persisting F → Prop where
  | start (idle : state.pass = none) : Step jd permits state state.start
  | offer {pass : Pass F} {incoming : Incoming F} {kind : Option String} {check : Option (Reproduced F)} {now : F}
      {minDetections minNights : Nat} (running : state.pass = some pass) (idle : pass.job = none)
      (distinct : incoming.members.Nodup) (timed : incoming.jds = incoming.members.map jd)
      (enough : (persistPlan state.stamping.store incoming kind check).meets minDetections minNights = true)
      (permitted : permits.offer state.stamping (persistPlan state.stamping.store incoming kind check)) :
      Step jd permits state (state.offer pass (persistPlan state.stamping.store incoming kind check) now)
  | write {pass : Pass F} {job : Job F} {operation : PersistWrite F} {rest : List (PersistWrite F)}
      (running : state.pass = some pass) (busy : pass.job = some job) (next : job.pending = operation :: rest) :
      Step jd permits state (state.write pass job operation rest)
  | settle {pass : Pass F} {job : Job F} (running : state.pass = some pass) (busy : pass.job = some job)
      (done : job.pending = []) : Step jd permits state (state.settle pass job)
  | fail {pass : Pass F} (running : state.pass = some pass) (permitted : permits.cut pass.pending) :
      Step jd permits state (state.fail pass)
  | interrupt {pass : Pass F} (running : state.pass = some pass) (idle : pass.job = none) :
      Step jd permits state (state.interrupt pass)
  | finish {pass : Pass F} (running : state.pass = some pass) (idle : pass.job = none) :
      Step jd permits state (state.finish pass)
  | crash {pass : Pass F} (running : state.pass = some pass) (permitted : permits.cut pass.pending) :
      Step jd permits state state.crash

abbrev Persists (jd : Member → F) (permits : Permits F) (state : Persisting F) : Prop :=
  Reachable (fun start => start = Persisting.empty F) (Persisting.Step jd permits) state

end Steps

end Boom.Utils
