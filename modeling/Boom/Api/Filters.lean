import Boom.Foundations.Collection
import Boom.Foundations.Json
import Boom.Foundations.Requests
import Boom.Utils.Enums

/-! # Activating filters

A filter has versions, and runs the one its `active_fid` names with the permissions stored
beside it.  A request that activates it, switches the version or changes the permissions
reads the filter, has the pair it is about to make run validated, and updates just the
fields it was given (`FilterRequest.act`).  Between the read and the update other requests
may update the filter.

Whether a validation succeeds depends on the alerts stored at the time: the model takes
its outcome, like that of the test of a new version, from outside, and records the
validations that succeeded. -/

namespace Boom.Api

open Boom.Foundations
open Boom.Utils (Survey)

/-! ## Filters -/

abbrev Pipeline := List Json

abbrev Permissions := List (Survey × List Int)

structure FilterVersion where
  fid : String
  pipeline : Pipeline

structure Filter where
  name : String
  description : Option String
  userId : String
  survey : Survey
  permissions : Permissions
  active : Bool
  activeFid : String
  fv : List FilterVersion

/-- What `validate_filter_activation` is asked about. -/
structure Validation where
  survey : Survey
  pipeline : Pipeline
  permissions : Permissions

def surveysRequiringPermissions : List Survey := [.ztf]

namespace Filter

def version (filter : Filter) (fid : String) : Option FilterVersion :=
  filter.fv.find? fun version => version.fid = fid

def runs (filter : Filter) : Option Validation :=
  (filter.version filter.activeFid).map fun version => ⟨filter.survey, version.pipeline, filter.permissions⟩

def Sound (validated : List Validation) (filter : Filter) : Prop :=
  filter.active = true → ∃ validation ∈ validated, filter.runs = some validation

end Filter

structure FilterStore where
  filters : Collection String Filter
  configured : List Survey
  validated : List Validation

def FilterStore.OnlyValidated (store : FilterStore) : Prop :=
  ∀ id filter, store.filters.get id = some filter → filter.Sound store.validated

/-! ## Requests -/

structure FilterVersionPost where
  pipeline : Pipeline
  setAsActive : Option Bool

structure FilterPatch where
  name : Option String
  description : Option String
  active : Option Bool
  activeFid : Option String
  permissions : Option Permissions
  skipValidation : Bool

inductive FilterBody where
  | version (post : FilterVersionPost)
  | patch (patch : FilterPatch)

structure FilterUser where
  id : String
  isAdmin : Bool

inductive FilterAnswer where
  | ok (message : String)
  | notFound (message : String)
  | forbidden (message : String)
  | badRequest (message : String)
  | internalError

inductive FilterPhase where
  | reading
  | testing (read : Filter) (post : FilterVersionPost)
  | validating (read : Filter) (validation : Validation)
  | updating (read : Filter)
  | answered (answer : FilterAnswer)

structure FilterRequest where
  filterId : String
  user : FilterUser
  body : FilterBody
  phase : FilterPhase

structure FilterOutcome where
  tested : Except String Unit
  validated : Except String Unit
  fid : String

/-! ## Adding a version -/

namespace FilterVersionPost

def setsActive (post : FilterVersionPost) : Bool := post.setAsActive.getD true

def decides (post : FilterVersionPost) (configured : List Survey) (read : Filter) : FilterPhase :=
  if post.setsActive && read.active then
    if configured.contains read.survey then .validating read ⟨read.survey, post.pipeline, read.permissions⟩
    else .answered .internalError
  else .updating read

def applied (post : FilterVersionPost) (fid : String) (filter : Filter) : Filter :=
  { filter with
    fv := filter.fv ++ [⟨fid, post.pipeline⟩]
    activeFid := if post.setsActive then fid else filter.activeFid }

end FilterVersionPost

/-! ## Patching -/

namespace FilterPatch

def given (text : Option String) : Option String := text.filter fun text => text ≠ ""

def isEmpty (patch : FilterPatch) : Bool :=
  (given patch.name).isNone && (given patch.description).isNone && patch.active.isNone && patch.activeFid.isNone &&
    patch.permissions.isNone

def willBeActive (patch : FilterPatch) (read : Filter) : Bool := patch.active.getD read.active

def execChanged (patch : FilterPatch) (read : Filter) : Bool :=
  (patch.active == some true && !read.active) || patch.activeFid.isSome || patch.permissions.isSome

def executes (patch : FilterPatch) (read : Filter) : Option Validation :=
  (read.version (patch.activeFid.getD read.activeFid)).map fun version =>
    ⟨read.survey, version.pipeline, patch.permissions.getD read.permissions⟩

def surveyName : Survey → String
  | .ztf => "Ztf"
  | .lsst => "Lsst"
  | .decam => "Decam"
  | .winter => "Winter"

def decides (patch : FilterPatch) (configured : List Survey) (read : Filter) : FilterPhase :=
  if patch.activeFid.any fun fid => (read.version fid).isNone then
    .answered (.badRequest "active_fid must be one of the existing filter version IDs")
  else if patch.permissions.any fun permissions =>
      (permissions.lookup read.survey).isNone && surveysRequiringPermissions.contains read.survey then
    .answered (.badRequest ("Filters running on survey " ++ surveyName read.survey ++
      " must have permissions defined for that survey"))
  else if patch.isEmpty then .answered (.badRequest "no valid fields to update")
  else if patch.willBeActive read && patch.execChanged read && !patch.skipValidation then
    match patch.executes read with
    | none => .answered .internalError
    | some validation =>
      if configured.contains read.survey then .validating read validation else .answered .internalError
  else .updating read

def applied (patch : FilterPatch) (filter : Filter) : Filter :=
  { filter with
    name := (given patch.name).getD filter.name
    description := (given patch.description).or filter.description
    active := patch.active.getD filter.active
    activeFid := patch.activeFid.getD filter.activeFid
    permissions := patch.permissions.getD filter.permissions }

end FilterPatch

/-! ## Steps -/

def FilterBody.applied (body : FilterBody) (fid : String) (filter : Filter) : Filter :=
  match body with
  | .version post => post.applied fid filter
  | .patch change => change.applied filter

namespace FilterRequest

def go (request : FilterRequest) (phase : FilterPhase) : FilterRequest := { request with phase := phase }

def done (request : FilterRequest) (fid : String) : String :=
  match request.body with
  | .version _ => "successfully added new version " ++ fid ++ " to filter id: " ++ request.filterId
  | .patch _ => "successfully updated filter id: " ++ request.filterId

def receives (request : FilterRequest) (configured : List Survey) (read : Filter) : FilterPhase :=
  if read.userId ≠ request.user.id ∧ request.user.isAdmin = false then
    .answered (.forbidden "only the filter owner or an admin can modify a filter")
  else
    match request.body with
    | .version post => .testing read post
    | .patch patch => patch.decides configured read

def act (outcome : FilterOutcome) (store : FilterStore) (request : FilterRequest) : FilterStore × FilterRequest :=
  match request.phase with
  | .reading =>
    match store.filters.get request.filterId with
    | none => (store, request.go (.answered (.notFound ("filter with id " ++ request.filterId ++ " does not exist"))))
    | some filter => (store, request.go (request.receives store.configured filter))
  | .testing read post =>
    match outcome.tested with
    | .error message => (store, request.go (.answered
        (.badRequest ("Invalid filter submitted, filter test failed with error: " ++ message))))
    | .ok _ => (store, request.go (post.decides store.configured read))
  | .validating read validation =>
    match outcome.validated with
    | .error message => (store, request.go (.answered (.badRequest message)))
    | .ok _ => ({ store with validated := store.validated ++ [validation] }, request.go (.updating read))
  | .updating _ =>
    -- only the fields given are set, whatever the others are by now
    ({ store with filters := store.filters.updateOne request.filterId (fun _ => true) (request.body.applied outcome.fid) },
      request.go (.answered (.ok (request.done outcome.fid))))
  | .answered _ => (store, request)

def skips (request : FilterRequest) : Bool :=
  match request.body with
  | .version _ => false
  | .patch patch => patch.skipValidation

end FilterRequest

def FilterStore.Unused (store : FilterStore) (fid : String) : Prop :=
  ∀ entry ∈ store.filters.entries, ∀ version ∈ entry.2.fv, version.fid ≠ fid

instance (store : FilterStore) (fid : String) : Decidable (store.Unused fid) :=
  inferInstanceAs (Decidable (∀ entry ∈ store.filters.entries, ∀ version ∈ entry.2.fv, version.fid ≠ fid))

/-- A database error leaves the database as it is. -/
inductive FilterActs (store : FilterStore) (request : FilterRequest) : FilterStore → FilterRequest → Prop where
  | proceed (outcome : FilterOutcome) : store.Unused outcome.fid →
      FilterActs store request (request.act outcome store).1 (request.act outcome store).2
  | fail : FilterActs store request store (request.go (.answered .internalError))

def filterRules : Requests.Rules FilterStore FilterRequest where
  starts _ _ request := request.phase = .reading ∧ request.skips = false
  acts _ := FilterActs
  outside _ _ := False

end Boom.Api
