import Boom.Tasks.Lease
import Boom.Tasks.Params

/-! # Single flight

A submission is refused while a run that would race with it is queued or running.
Which runs those are is decided on the JSON the runs were submitted with: a key names
fields and the strings they must hold.  What a run does is decided on the record that
JSON is read into.  The two agree as long as one target is always spelled one way. -/

namespace Boom.Tasks

open Boom.Foundations
open Boom.Utils (Survey)

/-! ## The key of a submission -/

def keyFields : String → List String
  | "catalog_ingest" | "prepare_catalog" => ["catalog"]
  | "copy_cutouts" => ["dst_uri", "survey"]
  | "enrich_reprocess" | "reprocess_crossmatch" | "backfill_detection_span"
  | "backfill_host_galaxy" | "repair_photometry" => ["survey"]
  | "export_catalog" => ["collection"]
  | _ => []

def textField (params : Json) (field : String) : Option String :=
  (params.get field).bind Json.asStr

def keyTexts (params : Json) : List String → Option (List (String × String))
  | [] => some []
  | field :: rest => do
    let text ← textField params field
    let others ← keyTexts params rest
    return (field, text) :: others

def singleFlightKey (taskType : String) (params : Json) : Option (List (String × String)) :=
  match taskType with
  | "catalog_ingest" | "prepare_catalog" => keyTexts params (keyFields taskType)
  | "copy_cutouts" | "enrich_reprocess" | "reprocess_crossmatch" | "export_catalog"
  | "backfill_detection_span" | "backfill_host_galaxy" | "repair_photometry" =>
    -- the empty key, which every run of the type matches
    some ((keyTexts params (keyFields taskType)).getD [])
  | other => if unkeyedTypes.contains other then some [] else none

/-! ## Runs with their parameters -/

structure TaskRuns where
  queue : Queue
  params : String → Json
  pending : Option (String × Json)

def Task.active (task : Task) : Bool :=
  task.status == .queued || task.status == .running

def holdsText (text : String) : Json → Bool
  | .array items => items.any (·.isString text)
  | value => value.isString text

def matchesPath (params : Json) (field text : String) : Bool :=
  match params with
  | .array items => items.any fun item => (item.get field).any (holdsText text)
  | _ => (params.get field).any (holdsText text)

namespace TaskRuns

def findActive (runs : TaskRuns) (taskType : String) (paramsMatch : List (String × String)) :
    Option (String × Task) :=
  (runs.queue.tasks.find fun id task => task.taskType == taskType && task.active &&
    paramsMatch.all fun entry => matchesPath (runs.params id) entry.1 entry.2).head?

/-- The answers that queue nothing. -/
inductive Refusal where
  | badRequest (error : TaskError)
  | conflict (existing : String × Task)

def checkSubmission (validation : Validation) (runs : TaskRuns) (taskType : String) (params : Json) :
    Except Refusal Unit :=
  match validateParams validation taskType params with
  | .error error => .error (.badRequest error)
  | .ok () =>
    match singleFlightKey taskType params with
    | none => .ok ()
    | some key =>
      match runs.findActive taskType key with
      | some existing => .error (.conflict existing)
      | none => .ok ()

def withRun (runs : TaskRuns) (queue : Queue) (id : String) (params : Json) : TaskRuns where
  queue := queue
  params other := if other = id then params else runs.params other
  pending := none

def queued (runs : TaskRuns) (id : String) (task : Task) (params : Json) : TaskRuns :=
  match (TaskOp.insert id task).exec runs.queue with
  | (true, queue) => runs.withRun queue id params
  | (false, _) => { runs with pending := none }

def Init (runs : TaskRuns) : Prop :=
  runs.queue.Init ∧ runs.pending = none

inductive Step (validation : Validation) (permit : TaskRuns → String → Json → Prop) :
    TaskRuns → TaskRuns → Prop
  | check {runs : TaskRuns} (taskType : String) (params : Json) (idle : runs.pending = none)
      (permitted : permit runs taskType params)
      (accepted : runs.checkSubmission validation taskType params = .ok ()) :
      Step validation permit runs { runs with pending := some (taskType, params) }
  | queue {runs : TaskRuns} (id taskType : String) (requestedAt : Nat) (params : Json)
      (pending : runs.pending = some (taskType, params)) :
      Step validation permit runs (runs.queued id (Task.fresh taskType requestedAt) params)
  | giveUp {runs : TaskRuns} : Step validation permit runs { runs with pending := none }
  | other {runs : TaskRuns} {β : Type} (op : TaskOp β)
      (inserts : ∀ id task, ¬ op.Inserts id task) :
      Step validation permit runs { runs with queue := (op.exec runs.queue).2 }
  | tick {runs : TaskRuns} {after : Queue} (later : Queue.Tick runs.queue after) :
      Step validation permit runs { runs with queue := after }

end TaskRuns

/-! ## What a run is run on -/

inductive Target where
  | everything
  | catalog (name : String)
  | survey (survey : Survey)
  | copy (destination : String) (survey : Survey)
deriving DecidableEq

/-- The target the parameters name once they are read. -/
def target (taskType : String) (params : Json) : Option Target :=
  match taskType with
  | "catalog_ingest" => (CatalogIngestParams.deserialize params).map fun record => .catalog record.catalog
  | "prepare_catalog" => (PrepareCatalogParams.deserialize params).map fun record => .catalog record.catalog
  | "export_catalog" => (ExportCatalogParams.deserialize params).map fun record => .catalog record.collection
  | "copy_cutouts" => (CopyCutoutsParams.deserialize params).map fun record =>
    .copy record.dstUri record.survey
  | "enrich_reprocess" => (EnrichReprocessParams.deserialize params).map fun record => .survey record.survey
  | "reprocess_crossmatch" =>
    (ReprocessCrossmatchParams.deserialize params).map fun record => .survey record.survey
  | "backfill_detection_span" =>
    (BackfillDetectionSpanParams.deserialize params).map fun record => .survey record.survey
  | "backfill_host_galaxy" =>
    (BackfillHostGalaxyParams.deserialize params).map fun record => .survey record.survey
  | "repair_photometry" =>
    (RepairPhotometryParams.deserialize params).map fun record => .survey record.survey
  | other => if unkeyedTypes.contains other then some .everything else none

def SpelledAlike (taskType : String) (params held : Json) : Prop :=
  ∀ field ∈ keyFields taskType, ∃ text,
    params.get field = some (.string text) ∧ held.get field = some (.string text)

def fallsBack (taskType : String) : Bool :=
  taskType != "catalog_ingest" && taskType != "prepare_catalog"

namespace TaskRuns

/-- The run `id` is of this type, has this target, and is queued or running. -/
structure Busy (runs : TaskRuns) (taskType : String) (goal : Target) (id : String) (task : Task) :
    Prop where
  stored : runs.queue.tasks.get id = some task
  active : task.active = true
  sameType : task.taskType = taskType
  named : target taskType (runs.params id) = some goal

def OnePerTarget (runs : TaskRuns) : Prop :=
  ∀ ⦃taskType goal first second firstTask secondTask⦄,
    runs.Busy taskType goal first firstTask → runs.Busy taskType goal second secondTask → first = second

def Consistent (runs : TaskRuns) (taskType : String) (params : Json) : Prop :=
  ∀ {goal id task}, target taskType params = some goal → runs.Busy taskType goal id task →
    SpelledAlike taskType params (runs.params id) ∨
      (fallsBack taskType ∧ keyTexts params (keyFields taskType) = none)

end TaskRuns

/-! ## What the check finds -/

theorem keyTexts_of_spelled {params held : Json} {fields : List String} (spelled : ∀ field ∈ fields, ∃ text,
      params.get field = some (.string text) ∧ held.get field = some (.string text)) :
    ∃ key, keyTexts params fields = some key ∧ ∀ entry ∈ key, held.get entry.1 = some (.string entry.2) := by
  induction fields with
  | nil => exact ⟨[], rfl, by simp⟩
  | cons field rest ih =>
    obtain ⟨text, given, stored⟩ := spelled field List.mem_cons_self
    obtain ⟨key, read, each⟩ := ih fun other member =>
      spelled other (List.mem_cons_of_mem field member)
    refine ⟨(field, text) :: key, ?_, ?_⟩
    · simp [keyTexts, textField, given, Json.asStr, read]
    · simpa [stored] using each

theorem matchesPath_of_get {held : Json} {field text : String}
    (stored : held.get field = some (.string text)) : matchesPath held field text = true := by
  cases held with
  | object entries => simp [matchesPath, stored, holdsText, Json.isString]
  | _ => simp [Json.get] at stored

variable {taskType : String} {goal : Target}

theorem singleFlightKey_of_target {params : Json} (named : target taskType params = some goal) :
    (fallsBack taskType = false ∧ singleFlightKey taskType params = keyTexts params (keyFields taskType)) ∨
      singleFlightKey taskType params = some ((keyTexts params (keyFields taskType)).getD []) := by
  unfold target at named
  split at named
  case h_1 | h_2 => exact .inl ⟨rfl, rfl⟩
  case h_10 =>
    split at named
    next whole =>
      simp only [unkeyedTypes, List.contains_iff_mem, List.mem_cons, List.not_mem_nil, or_false] at whole
      rcases whole with rfl | rfl | rfl | rfl | rfl | rfl | rfl | rfl <;> exact .inr rfl
    next => cases named
  all_goals exact .inr rfl

namespace TaskRuns

variable {runs : TaskRuns}

theorem findActive_of_busy {id : String}
    {task : Task} {key : List (String × String)} (busy : runs.Busy taskType goal id task)
    (matched : ∀ entry ∈ key, matchesPath (runs.params id) entry.1 entry.2) :
    ∃ existing, runs.findActive taskType key = some existing := by
  have member : (id, task) ∈ runs.queue.tasks.find fun id task =>
      task.taskType == taskType && task.active &&
        key.all fun entry => matchesPath (runs.params id) entry.1 entry.2 := by
    refine Collection.mem_find.mpr ⟨busy.stored, ?_⟩
    simp only [busy.sameType, busy.active, beq_self_eq_true, Bool.true_and, List.all_eq_true]
    exact fun entry inKey => matched entry inKey
  cases found : runs.findActive taskType key with
  | some existing => exact ⟨existing, rfl⟩
  | none =>
    rw [findActive, List.head?_eq_none_iff] at found
    rw [found] at member
    cases member

theorem free_of_checkSubmission {validation : Validation}
    {params : Json} (consistent : runs.Consistent taskType params)
    (accepted : runs.checkSubmission validation taskType params = .ok ())
    (named : target taskType params = some goal) (id : String) (task : Task) :
    ¬ runs.Busy taskType goal id task := by
  intro busy
  -- the key the submission has, and that the busy run matches it
  have conflict : ∃ key, singleFlightKey taskType params = some key ∧
      ∀ entry ∈ key, matchesPath (runs.params id) entry.1 entry.2 := by
    rcases consistent named busy with spelled | ⟨lenient, missing⟩
    · obtain ⟨key, read, each⟩ := keyTexts_of_spelled spelled
      refine ⟨key, ?_, fun entry inKey => matchesPath_of_get (each entry inKey)⟩
      rcases singleFlightKey_of_target named with ⟨_, strict⟩ | whole
      · rw [strict, read]
      · rw [whole, read]; rfl
    · refine ⟨[], ?_, by simp⟩
      rcases singleFlightKey_of_target named with ⟨strict, _⟩ | whole
      · rw [strict] at lenient
        cases lenient
      · rw [whole, missing]; rfl
  obtain ⟨key, keyed, matched⟩ := conflict
  obtain ⟨existing, found⟩ := findActive_of_busy busy matched
  unfold checkSubmission at accepted
  split at accepted
  · cases accepted
  · simp [keyed, found] at accepted

/-! ## Runs of the system -/

structure Invariant (runs : TaskRuns) : Prop where
  one : runs.OnePerTarget
  free : ∀ ⦃taskType params goal⦄, runs.pending = some (taskType, params) →
    target taskType params = some goal → ∀ id task, ¬ runs.Busy taskType goal id task

theorem Busy.congr {runs other : TaskRuns} {id : String} {task : Task}
    (busy : other.Busy taskType goal id task) (tasks : other.queue.tasks = runs.queue.tasks)
    (params : other.params = runs.params) : runs.Busy taskType goal id task :=
  ⟨tasks ▸ busy.stored, busy.active, busy.sameType, params ▸ busy.named⟩

theorem OnePerTarget.congr {runs other : TaskRuns} (one : runs.OnePerTarget)
    (tasks : other.queue.tasks = runs.queue.tasks) (params : other.params = runs.params) :
    other.OnePerTarget := fun _ _ _ _ _ _ busy busy' =>
  one (busy.congr tasks params) (busy'.congr tasks params)

theorem Invariant.givenUp (invariant : runs.Invariant) :
    Invariant { runs with pending := none } where
  one := invariant.one.congr rfl rfl
  free _ _ _ impossible := by cases impossible

theorem busy_of_exec {β : Type} {op : TaskOp β} (inserts : ∀ id task, ¬ op.Inserts id task) {id : String}
    {task : Task} (busy : { runs with queue := (op.exec runs.queue).2 : TaskRuns }.Busy taskType goal id task) :
    ∃ earlier, runs.Busy taskType goal id earlier := by
  cases stored : runs.queue.tasks.get id with
  | none =>
    rcases exec_absent op stored with absent | ⟨inserted, inserting, _⟩
    · rw [busy.stored] at absent
      cases absent
    · exact absurd inserting (inserts id inserted)
  | some earlier =>
    rcases exec_stored op stored with ⟨same, _⟩ | ⟨after, changed, change, _⟩
    · obtain rfl : earlier = task := Option.some.inj (same.symm.trans busy.stored)
      exact ⟨earlier, stored, busy.active, busy.sameType, busy.named⟩
    · obtain rfl : after = task := Option.some.inj (changed.symm.trans busy.stored)
      have live : earlier.active = true := by
        rcases change.live with waiting | running <;> simp [Task.active, *]
      exact ⟨earlier, stored, live, change.kept.sameType.symm.trans busy.sameType, busy.named⟩

theorem Invariant.exec (invariant : runs.Invariant) {β : Type} {op : TaskOp β}
    (inserts : ∀ id task, ¬ op.Inserts id task) :
    Invariant { runs with queue := (op.exec runs.queue).2 } where
  one _ _ _ _ _ _ busy busy' := by
    obtain ⟨earlier, early⟩ := busy_of_exec inserts busy
    obtain ⟨earlier', early'⟩ := busy_of_exec inserts busy'
    exact invariant.one early early'
  free _ _ _ pending named id task busy := by
    obtain ⟨earlier, early⟩ := busy_of_exec inserts busy
    exact invariant.free pending named id earlier early

theorem Invariant.queued (invariant : runs.Invariant)
    {params : Json} (pending : runs.pending = some (taskType, params)) (id : String)
    (requestedAt : Nat) : (runs.queued id (Task.fresh taskType requestedAt) params).Invariant := by
  unfold TaskRuns.queued
  simp only [TaskOp.exec]
  cases inserted : runs.queue.tasks.insertOne id (Task.fresh taskType requestedAt) with
  | none => exact invariant.givenUp
  | some after =>
    have view := Collection.get_insertOne inserted
    -- a busy run is either the new one, or one that was busy before
    have old {type goal other task} (distinct : other ≠ id)
        (busy : (runs.withRun { runs.queue with tasks := after } id params).Busy type goal other task) :
        runs.Busy type goal other task :=
      ⟨by simpa [withRun, view, distinct] using busy.stored, busy.active, busy.sameType,
        by simpa [withRun, distinct] using busy.named⟩
    have new {type goal task}
        (busy : (runs.withRun { runs.queue with tasks := after } id params).Busy type goal id task) :
        type = taskType ∧ target taskType params = some goal := by
      have fresh : Task.fresh taskType requestedAt = task := by simpa [withRun, view] using busy.stored
      have same : taskType = type := by simpa [← fresh, Task.fresh] using busy.sameType
      exact ⟨same.symm, by simpa [withRun, same] using busy.named⟩
    refine ⟨?_, fun _ _ _ impossible => by cases impossible⟩
    intro type goal first second firstTask secondTask busy busy'
    by_cases isNew : first = id <;> by_cases isNew' : second = id
    · rw [isNew, isNew']
    · subst isNew
      obtain ⟨rfl, named⟩ := new busy
      exact absurd (old isNew' busy') (invariant.free pending named second secondTask)
    · subst isNew'
      obtain ⟨rfl, named⟩ := new busy'
      exact absurd (old isNew busy) (invariant.free pending named first firstTask)
    · exact invariant.one (old isNew busy) (old isNew' busy')

theorem Invariant.step {validation : Validation} {runs after : TaskRuns} (invariant : runs.Invariant)
    (step : Step validation Consistent runs after) : after.Invariant := by
  cases step with
  | check taskType params idle consistent accepted =>
    refine ⟨invariant.one.congr rfl rfl, ?_⟩
    intro type given goal pending named id task busy
    obtain ⟨rfl, rfl⟩ : taskType = type ∧ params = given := by simpa using pending
    exact free_of_checkSubmission consistent accepted named id task (busy.congr rfl rfl)
  | queue id taskType requestedAt params pending => exact invariant.queued pending id requestedAt
  | giveUp => exact invariant.givenUp
  | other op inserts => exact invariant.exec inserts
  | tick later =>
    obtain ⟨time, _, rfl⟩ := later
    exact ⟨invariant.one.congr rfl rfl, fun _ _ _ pending named id task busy =>
      invariant.free pending named id task (busy.congr rfl rfl)⟩

theorem Init.invariant (init : runs.Init) : runs.Invariant where
  one _ _ _ _ _ _ busy _ := by
    have stored := busy.stored
    rw [init.1.1] at stored
    cases stored
  free _ _ _ pending := by
    rw [init.2] at pending
    cases pending

/-- As long as every submission spells its target as the runs of that target do, no two
    runs of one type and one target are ever queued or running together. -/
theorem one_run_per_target (validation : Validation) {runs : TaskRuns}
    (reachable : Reachable Init (Step validation Consistent) runs) : runs.OnePerTarget := by
  have invariant := reachable.invariant Invariant (fun _ init => init.invariant)
    fun _ _ _ holds step => holds.step step
  exact invariant.one

/-! ### Two submissions of one type -/

def noRuns : TaskRuns where
  queue := { clock := 0, tasks := .empty, claims := [] }
  params _ := .null
  pending := none

def reprocess (name : String) : Json :=
  .object [("survey", .string name), ("selection", .object [("kind", .string "all")])]

def reprocessing (runs : TaskRuns) (id name : String) : TaskRuns :=
  runs.queued id (Task.fresh "enrich_reprocess" 0) (reprocess name)

theorem reachable_reprocessing {validation : Validation} {permit : TaskRuns → String → Json → Prop}
    (reachable : Reachable Init (Step validation permit) runs) (id name : String)
    (idle : runs.pending = none) (permitted : permit runs "enrich_reprocess" (reprocess name))
    (accepted : runs.checkSubmission validation "enrich_reprocess" (reprocess name) = .ok ()) :
    Reachable Init (Step validation permit) (runs.reprocessing id name) :=
  (reachable.next (.check _ _ idle permitted accepted)).next (.queue id _ 0 _ rfl)

def lenient : Validation where
  refusal _ _ := "refused"
  quoted text := text
  other _ _ := .ok ()

theorem init_noRuns : noRuns.Init := ⟨⟨rfl, rfl⟩, rfl⟩

/-- Surveys are told apart: both runs are queued, each for its own. -/
theorem one_run_per_target_surveys :
    ((noRuns.reprocessing "first" "ZTF").reprocessing "second" "lsst").OnePerTarget := by
  refine one_run_per_target lenient
    (reachable_reprocessing (reachable_reprocessing (.start init_noRuns) "first" "ZTF" rfl ?_ rfl)
      "second" "lsst" rfl ?_ rfl)
  · intro goal id task _ busy
    have stored : (none : Option Task) = some task := busy.stored
    cases stored
  · intro goal id task named busy
    -- the one run there is reprocesses the other survey
    by_cases same : id = "first"
    · subst same
      have other : some (Target.survey .ztf) = some goal := busy.named
      have mine : some (Target.survey .lsst) = some goal := named
      rw [← mine] at other
      cases other
    · have stored : ((noRuns.reprocessing "first" "ZTF").queue.tasks.get id) = none := by
        simp [reprocessing, queued, TaskOp.exec, noRuns, withRun, Collection.get, Collection.insertOne,
          Collection.insertFresh, Collection.empty, same]
      rw [busy.stored] at stored
      cases stored

/-- Two reprocessings of one survey are queued together: the key compares `"ZTF"` with
    `"ztf"`, and both are read as the same survey. -/
theorem one_target_spelled_twice : ¬ ∀ (validation : Validation) (runs : TaskRuns),
    Reachable Init (Step validation fun _ _ _ => True) runs → runs.OnePerTarget := by
  intro claimed
  have reachable : Reachable Init (Step lenient fun _ _ _ => True)
      ((noRuns.reprocessing "first" "ZTF").reprocessing "second" "ztf") :=
    reachable_reprocessing (reachable_reprocessing (.start init_noRuns) "first" "ZTF" rfl trivial rfl)
      "second" "ztf" rfl trivial rfl
  have one := claimed lenient _ reachable
  have first : ((noRuns.reprocessing "first" "ZTF").reprocessing "second" "ztf").Busy "enrich_reprocess"
      (.survey .ztf) "first" (Task.fresh "enrich_reprocess" 0) := ⟨rfl, rfl, rfl, rfl⟩
  have second : ((noRuns.reprocessing "first" "ZTF").reprocessing "second" "ztf").Busy "enrich_reprocess"
      (.survey .ztf) "second" (Task.fresh "enrich_reprocess" 0) := ⟨rfl, rfl, rfl, rfl⟩
  exact absurd (one first second) (by decide)

end TaskRuns

end Boom.Tasks
