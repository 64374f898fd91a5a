import Boom.Catalogs.IngestFile

/-! # A file is ingested whole, or not at all well

Reading a file comes to an end where its reader does, and with it all workers.  A file that is said to be
ingested was read to its end, and each of its records is in the collection or was found off the sphere. -/

namespace Boom.Catalogs.Ingest

open Boom.Foundations

variable {ρ : Type}

section

variable (type : RecordType ρ) (inserter : Inserter) (engine : Engine) (source : Source ρ)

/-- What is true of a file that was ingested. -/
structure Ingested (report : IngestReport) (collection : List Document) : Prop where
  atEnd : source.failsForever = false
  clean : engine ≠ .ascii → ∀ item ∈ source.items, item.Clean
  few : engine = .ascii → passedOver source.items ≤ MAX_PARSE_ERRORS
  stored : ∀ record ∈ recordsOf source.items,
    (∃ doc, toCatalogDocument type record = some (.ready doc) ∧ Present collection doc) ∨
      ∃ doc, toCatalogDocument type record = some (.offSphere doc)
  counted : report.skipped = passedOver source.items + offSphereCount type (recordsOf source.items)

structure Progress (consumed items : List (Item ρ)) (report : IngestReport) : Prop where
  parts : source.items = consumed ++ items
  clean : engine ≠ .ascii → ∀ item ∈ consumed, item.Clean
  tolerable : engine = .ascii → Tolerable source.failsForever report.skipped items
  counted : report.skipped = passedOver consumed

def Standing (pool : Pool ρ) : Stage ρ → Prop
  | .reading items pending report => pool.closed = false ∧ ∃ consumed, Progress engine source consumed items report ∧
      (pool.NoFailed → pool.Accounts type (recordsOf source.items) (pending ++ recordsOf items))
  | .waiting cause report => pool.closed = true ∧ (cause = .finished → pool.NoFailed →
      source.failsForever = false ∧ Progress engine source source.items [] report ∧ pool.Accounts type (recordsOf source.items) [])
  | .ended result => pool.allEnded = true ∧ ∀ report, result = .ok report → Ingested type engine source report pool.collection

/-- The invariant of a run. -/
structure Sound (system : System ρ) : Prop where
  orderly : system.pool.Orderly
  standing : Standing type engine source system.pool system.stage

end

/-! ## Reading on -/

section

variable {engine : Engine} {source : Source ρ} {item : Item ρ} {items consumed pending : List (Item ρ)} {report report' : IngestReport}
  {failsForever : Bool}

theorem recordsOf_cons (item : Item ρ) (items : List (Item ρ)) : recordsOf (item :: items) = item.records ++ recordsOf items :=
  List.flatMap_cons

theorem passedOver_concat (consumed : List (Item ρ)) (item : Item ρ) :
    passedOver (consumed ++ [item]) = passedOver consumed + item.passedOver := by
  simp [passedOver]

theorem turn_go {records : List ρ} (goes : turn engine report item = .go records report') :
    records = item.records ∧ report'.skipped = report.skipped + item.passedOver ∧ (engine ≠ .ascii → item.Clean) := by
  cases item with
  | unread =>
    simp only [turn] at goes
    split at goes
    next isText =>
      cases goes
      exact ⟨rfl, rfl, fun other => absurd isText other⟩
    next => cases goes
  | blank =>
    cases goes
    exact ⟨rfl, rfl, fun _ => trivial⟩
  | unparsed =>
    simp only [turn] at goes
    split at goes
    next isText =>
      split at goes
      next => cases goes
      next =>
        cases goes
        exact ⟨rfl, rfl, fun other => absurd isText other⟩
    next => cases goes
  | parsed rejected records =>
    cases goes
    exact ⟨rfl, rfl, fun _ => trivial⟩

theorem turn_stop {cause : Cause} (stops : turn engine report item = .stop cause report') : cause ≠ .finished := by
  rintro rfl
  cases item with
  | unread =>
    simp only [turn] at stops
    split at stops <;> cases stops
  | blank => cases stops
  | unparsed =>
    simp only [turn] at stops
    split at stops
    next => split at stops <;> cases stops
    next => cases stops
  | parsed rejected records => cases stops

theorem tolerable_turn {records : List ρ} (goes : turn .ascii report item = .go records report')
    (tolerable : Tolerable failsForever report.skipped (item :: items)) : Tolerable failsForever report'.skipped items := by
  cases item with
  | unread =>
    cases goes
    exact tolerable
  | blank =>
    cases goes
    exact tolerable
  | unparsed =>
    simp only [turn, if_true] at goes
    split at goes
    next => cases goes
    next few =>
      cases goes
      exact tolerable.resolve_left few
  | parsed rejected records =>
    cases goes
    exact tolerable

theorem Progress.turn {records : List ρ} (progress : Progress engine source consumed (item :: items) report)
    (goes : turn engine report item = .go records report') : Progress engine source (consumed ++ [item]) items report' := by
  obtain ⟨-, skips, isClean⟩ := turn_go goes
  refine ⟨?_, fun other read there => ?_, fun isText => ?_, ?_⟩
  · rw [progress.parts, List.append_assoc, List.singleton_append]
  · rcases List.mem_append.mp there with old | new
    · exact progress.clean other read old
    · rw [List.mem_singleton.mp new]
      exact isClean other
  · subst isText
    exact tolerable_turn goes (progress.tolerable rfl)
  · rw [skips, progress.counted, passedOver_concat]

theorem turn_unread (progress : Progress engine source consumed [] report) (forever : source.failsForever = true) :
    turn engine report (.unread : Item ρ) = .stop (.failure .read) report := by
  refine if_neg fun isText => ?_
  have atEnd := (progress.tolerable isText).1
  rw [forever] at atEnd
  cases atEnd

theorem Progress.whole (progress : Progress engine source consumed [] report) : Progress engine source source.items [] report := by
  have parts := progress.parts
  rw [List.append_nil] at parts
  exact ⟨(List.append_nil _).symm, parts ▸ progress.clean, progress.tolerable, parts ▸ progress.counted⟩

end

/-! ## One step -/

section

variable {type : RecordType ρ} {inserter : Inserter} {engine : Engine} {source : Source ρ} {system after : System ρ}
  {pool pool' : Pool ρ} {stage : Stage ρ}

theorem not_works_of_allEnded (allEnded : pool.allEnded = true) : ¬ Pool.Works type inserter pool pool' := by
  have each := List.all_eq_true.mp allEnded
  intro works
  cases works with
  | receives _ at_ => cases each _ (List.mem_of_getElem? at_)
  | closes _ _ at_ => cases each _ (List.mem_of_getElem? at_)
  | writes at_ => cases each _ (List.mem_of_getElem? at_)

theorem not_fails_of_allEnded (allEnded : pool.allEnded = true) : ¬ Pool.Fails pool pool' := by
  intro fails
  cases fails with
  | fails error at_ alive _ =>
    rw [List.all_eq_true.mp allEnded _ (List.mem_of_getElem? at_)] at alive
    cases alive

theorem closed_of_works (works : Pool.Works type inserter pool pool') : pool'.closed = pool.closed := by
  cases works with
  | receives => rfl
  | closes => rfl
  | writes => rfl

theorem closed_of_fails (fails : Pool.Fails pool pool') : pool'.closed = pool.closed := by
  cases fails with
  | fails => rfl

theorem standing_works (works : Pool.Works type inserter pool pool') (standing : Standing type engine source pool stage) :
    Standing type engine source pool' stage := by
  cases stage with
  | reading items pending report =>
    obtain ⟨isOpen, consumed, progress, accounts⟩ := standing
    exact ⟨(closed_of_works works).trans isOpen, consumed, progress,
      fun noFailed => Pool.accounts_works works noFailed (accounts (Pool.noFailed_of_works works noFailed))⟩
  | waiting cause report =>
    refine ⟨(closed_of_works works).trans standing.1, fun finished noFailed => ?_⟩
    obtain ⟨atEnd, progress, accounts⟩ := standing.2 finished (Pool.noFailed_of_works works noFailed)
    exact ⟨atEnd, progress, Pool.accounts_works works noFailed accounts⟩
  | ended result => exact absurd works (not_works_of_allEnded standing.1)

theorem standing_fails (fails : Pool.Fails pool pool') (standing : Standing type engine source pool stage) :
    Standing type engine source pool' stage := by
  cases stage with
  | reading items pending report =>
    obtain ⟨isOpen, consumed, progress, -⟩ := standing
    exact ⟨(closed_of_fails fails).trans isOpen, consumed, progress,
      fun noFailed => absurd noFailed (Pool.not_noFailed_of_fails fails)⟩
  | waiting cause report =>
    exact ⟨(closed_of_fails fails).trans standing.1, fun _ noFailed => absurd noFailed (Pool.not_noFailed_of_fails fails)⟩
  | ended result => exact absurd fails (not_fails_of_allEnded standing.1)

theorem orderly_close (orderly : pool.Orderly) : Pool.Orderly { pool with closed := true } :=
  ⟨orderly.some_, (fun isOpen => by cases isOpen), orderly.drained⟩

theorem orderly_send (orderly : pool.Orderly) (isOpen : pool.closed = false) (record : ρ) :
    Pool.Orderly { pool with queue := pool.queue ++ [record] } := by
  refine ⟨orderly.some_, orderly.opened, fun worker there isLeaving => ?_⟩
  rw [orderly.opened isOpen worker there] at isLeaving
  cases isLeaving

theorem accounts_send {all rest : List ρ} {record : ρ} (accounts : pool.Accounts type all (record :: rest)) :
    Pool.Accounts type all rest { pool with queue := pool.queue ++ [record] } := by
  refine ⟨fun other there => ?_, ?_⟩
  · rcases accounts.each other there with isLeft | queued | handled
    · rcases List.mem_cons.mp isLeft with rfl | later
      · exact .inr (.inl (List.mem_append_right _ List.mem_cons_self))
      · exact .inl later
    · exact .inr (.inl (List.mem_append_left _ queued))
    · exact .inr (.inr handled)
  · have count := accounts.count
    rw [Pool.offSphereCount_cons] at count
    dsimp only
    have none_ : offSphereCount type ([] : List ρ) = 0 := rfl
    rw [Pool.offSphereCount_append, Pool.offSphereCount_cons]
    omega

theorem not_noFailed_of_allEnded (orderly : pool.Orderly) (isOpen : pool.closed = false) (allEnded : pool.allEnded = true) :
    ¬ pool.NoFailed := by
  intro noFailed
  obtain ⟨worker, rest, isWorkers⟩ := List.exists_cons_of_ne_nil orderly.some_
  have there : worker ∈ pool.workers := isWorkers ▸ List.mem_cons_self
  have isLeaving := Pool.leaving_of_ended (List.all_eq_true.mp allEnded worker there) (noFailed worker there)
  rw [orderly.opened isOpen worker there] at isLeaving
  cases isLeaving

theorem finish_ok {workers : List Worker} {tally : Tally} (ok : finish workers = .ok tally) :
    (∀ worker ∈ workers, worker.hasFailed = false) ∧ tally.skipped = (workers.map Worker.skipped).sum := by
  unfold finish at ok
  split at ok
  next => cases ok
  next none_ =>
    cases ok
    refine ⟨fun worker there => ?_, rfl⟩
    have unfailed := List.findSome?_eq_none_iff.mp none_ worker there
    cases worker with
    | failed error => cases unfailed
    | taking batch tally => rfl
    | writing batch last tally => rfl
    | done tally => rfl

theorem outcome_ok {cause : Cause} {report result : IngestReport} {workers : List Worker} (ok : outcome cause report workers = .ok result) :
    cause = .finished ∧ ∃ tally, finish workers = .ok tally ∧ result.skipped = report.skipped + tally.skipped := by
  cases cause with
  | failure error => cases ok
  | gaveUp =>
    unfold outcome at ok
    dsimp only at ok
    split at ok <;> cases ok
  | finished =>
    unfold outcome at ok
    dsimp only at ok
    split at ok
    next => cases ok
    next tally isTally =>
      cases ok
      exact ⟨rfl, tally, isTally, rfl⟩

/-- Each step of the reading task or of a worker keeps the invariant. -/
theorem sound_step (sound : Sound type engine source system) (step : System.Step type inserter engine source system after) :
    Sound type engine source after := by
  obtain ⟨orderly, standing⟩ := sound
  cases step with
  | @takes item items report isStage =>
    rw [isStage] at standing
    obtain ⟨isOpen, consumed, progress, accounts⟩ := standing
    cases follows : turn engine report item with
    | go pending report' =>
      obtain ⟨isPending, -, -⟩ := turn_go follows
      refine ⟨orderly, isOpen, _, progress.turn follows, fun noFailed => ?_⟩
      rw [isPending, ← recordsOf_cons]
      exact accounts noFailed
    | stop cause report' => exact ⟨orderly_close orderly, rfl, fun finished => absurd finished (turn_stop follows)⟩
  | @failsAgain report isStage forever =>
    rw [isStage] at standing
    obtain ⟨isOpen, consumed, progress, accounts⟩ := standing
    rw [turn_unread progress forever]
    exact ⟨orderly_close orderly, rfl, fun finished => by cases finished⟩
  | @atEnd report isStage ends_ =>
    rw [isStage] at standing
    obtain ⟨isOpen, consumed, progress, accounts⟩ := standing
    refine ⟨orderly_close orderly, rfl, fun _ noFailed => ⟨ends_, progress.whole, ?_⟩⟩
    have whole := accounts noFailed
    exact ⟨whole.each, whole.count⟩
  | @sends items record pending report isStage alive room =>
    rw [isStage] at standing
    obtain ⟨isOpen, consumed, progress, accounts⟩ := standing
    exact ⟨orderly_send orderly isOpen record, isOpen, consumed,
      ⟨progress.parts, progress.clean, progress.tolerable, progress.counted⟩, fun noFailed => accounts_send (accounts noFailed)⟩
  | @sendFails items record pending report isStage nobody =>
    rw [isStage] at standing
    obtain ⟨isOpen, consumed, progress, accounts⟩ := standing
    have failed := not_noFailed_of_allEnded orderly isOpen nobody
    split
    next =>
      exact ⟨orderly, isOpen, consumed, ⟨progress.parts, progress.clean, progress.tolerable, progress.counted⟩,
        fun noFailed => absurd noFailed failed⟩
    next => exact ⟨orderly_close orderly, rfl, fun _ noFailed => absurd noFailed failed⟩
  | works works => exact ⟨Pool.orderly_works works orderly, standing_works works standing⟩
  | @finishes cause report isStage nobody =>
    rw [isStage] at standing
    refine ⟨orderly, nobody, fun result ok => ?_⟩
    obtain ⟨finished, tally, isTally, skips⟩ := outcome_ok ok
    obtain ⟨noFailed, tallied⟩ := finish_ok isTally
    obtain ⟨ends_, progress, accounts⟩ := standing.2 finished noFailed
    obtain ⟨stored, counted⟩ := Pool.accounts_ended accounts orderly noFailed nobody
    refine ⟨ends_, progress.clean, fun isText => ?_, stored, ?_⟩
    · rw [← progress.counted]
      exact (progress.tolerable isText).2
    · rw [skips, progress.counted, tallied, counted]

theorem sound_runs (sound : Sound type engine source system) (runs : System.Runs type inserter engine source system after) :
    Sound type engine source after := by
  cases runs with
  | step step => exact sound_step sound step
  | fails fails => exact ⟨Pool.orderly_fails fails sound.orderly, standing_fails fails sound.standing⟩

theorem orderly_start (collection : List Document) : Pool.Orderly (Pool.start inserter collection : Pool ρ) := by
  have each : ∀ worker ∈ (Pool.start inserter collection : Pool ρ).workers, worker = .taking [] ⟨0, 0⟩ :=
    fun worker there => List.eq_of_mem_replicate there
  refine ⟨?_, fun _ worker there => ?_, fun worker there isLeaving => rfl⟩
  · rw [← List.length_pos_iff]
    exact (List.length_replicate ..).symm ▸ inserter.someWorker
  · rw [each worker there]
    rfl

theorem sound_start (tolerable : engine = .ascii → Tolerable source.failsForever 0 source.items) (collection : List Document) :
    Sound type engine source (System.start inserter source collection) := by
  refine ⟨orderly_start collection, rfl, [], ⟨rfl, (fun _ item there => by cases there), tolerable, rfl⟩, fun _ => ?_⟩
  have unskipped : ((Pool.start inserter collection : Pool ρ).workers.map Worker.skipped).sum = 0 := by
    rw [Pool.start, List.map_replicate, List.sum_replicate_nat]
    rfl
  refine ⟨fun record there => .inl there, ?_⟩
  have empty : offSphereCount type (Pool.start inserter collection : Pool ρ).queue = 0 := rfl
  exact congrArg₂ (· + ·) (congrArg (_ + ·) empty) unskipped

/-! ## How long a run is -/

def Item.work (item : Item ρ) : Nat := 4 * item.records.length + 1

def Stage.work : Stage ρ → Nat
  | .reading items pending _ => (items.map Item.work).sum + 4 * pending.length + 2
  | .waiting _ _ => 1
  | .ended _ => 0

def System.work (system : System ρ) : Nat := system.pool.work + system.stage.work

theorem work_close (pool : Pool ρ) : Pool.work { pool with closed := true } = pool.work := rfl

/-- Each step leaves less to do. -/
theorem work_runs (sound : Sound type engine source system) (runs : System.Runs type inserter engine source system after) :
    after.work < system.work := by
  cases runs with
  | fails fails =>
    have less := Pool.work_fails fails
    simp only [System.work]
    omega
  | step step =>
    cases step with
    | @takes item items report isStage =>
      cases follows : turn engine report item with
      | go pending report' =>
        obtain ⟨isPending, -, -⟩ := turn_go follows
        simp only [System.work, System.take, isStage, Stage.work, List.map_cons, List.sum_cons, List.length_nil, isPending, Item.work]
        omega
      | stop cause report' =>
        simp only [System.work, System.take, System.drop, work_close, isStage, Stage.work, List.map_cons, List.sum_cons]
        omega
    | @failsAgain report isStage forever =>
      have standing := sound.standing
      rw [isStage] at standing
      obtain ⟨-, consumed, progress, -⟩ := standing
      rw [turn_unread progress forever]
      simp only [System.work, System.take, System.drop, work_close, isStage, Stage.work]
      omega
    | @atEnd report isStage ends_ =>
      simp only [System.work, System.drop, work_close, isStage, Stage.work]
      omega
    | @sends items record pending report isStage alive room =>
      simp only [System.work, Pool.work, isStage, Stage.work, List.length_append, List.length_cons, List.length_nil]
      omega
    | @sendFails items record pending report isStage nobody =>
      split
      next =>
        simp only [System.work, isStage, Stage.work, List.length_cons, List.length_nil]
        omega
      next =>
        simp only [System.work, System.drop, work_close, isStage, Stage.work]
        omega
    | works works =>
      have less := Pool.work_works works
      simp only [System.work]
      omega
    | @finishes cause report isStage nobody =>
      simp only [System.work, isStage, Stage.work]
      omega

theorem exists_step (sound : Sound type engine source system) (going : ∀ result, system.stage ≠ .ended result) :
    ∃ after, System.Step type inserter engine source system after := by
  have standing := sound.standing
  cases isStage : system.stage with
  | reading items pending report =>
    cases pending with
    | nil =>
      cases items with
      | cons item items => exact ⟨_, .takes isStage⟩
      | nil =>
        cases forever : source.failsForever with
        | true => exact ⟨_, .failsAgain isStage forever⟩
        | false => exact ⟨_, .atEnd isStage forever⟩
    | cons record pending =>
      cases nobody : system.pool.allEnded with
      | true => exact ⟨_, .sendFails isStage nobody⟩
      | false =>
        by_cases room : system.pool.queue.length < inserter.channelCapacity
        · exact ⟨_, .sends isStage nobody room⟩
        · -- The channel is full, and somebody is there to take a record.
          have some_ : system.pool.queue ≠ [] := by
            intro empty
            rw [empty] at room
            exact room inserter.someRoom
          obtain ⟨worker, there, alive⟩ := Pool.exists_alive nobody
          obtain ⟨pool, works⟩ := Pool.exists_works there alive (.inl some_)
          exact ⟨_, .works works⟩
  | waiting cause report =>
    rw [isStage] at standing
    cases nobody : system.pool.allEnded with
    | true => exact ⟨_, .finishes isStage nobody⟩
    | false =>
      obtain ⟨worker, there, alive⟩ := Pool.exists_alive nobody
      obtain ⟨pool, works⟩ := Pool.exists_works there alive (.inr standing.1)
      exact ⟨_, .works works⟩
  | ended result => exact absurd isStage (going result)

end

/-! ## Every run -/

section

variable (type : RecordType ρ) (inserter : Inserter) (engine : Engine) (source : Source ρ) (collection : List Document)

abbrev Reached (system : System ρ) : Prop :=
  Reachable (· = System.start inserter source collection) (System.Runs type inserter engine source) system

def Ends : Prop :=
  (∀ run : Nat → System ρ, run 0 = System.start inserter source collection →
    ¬ ∀ number, System.Runs type inserter engine source (run number) (run (number + 1))) ∧
  ∀ system, Reached type inserter engine source collection system → (∀ result, system.stage ≠ .ended result) →
    ∃ after, System.Step type inserter engine source system after

def EndsWell : Prop :=
  ∀ system, Reached type inserter engine source collection system → ∀ result, system.stage = .ended result →
    system.pool.allEnded = true ∧ ∀ report, result = .ok report → Ingested type engine source report system.pool.collection

/-- An ingest ends, and is all or an error, where a text passes over no more lines than it may and its reader comes to an end. -/
theorem ingest_ends (tolerable : engine = .ascii → Tolerable source.failsForever 0 source.items) :
    Ends type inserter engine source collection ∧ EndsWell type inserter engine source collection := by
  have sound : ∀ system, Reached type inserter engine source collection system → Sound type engine source system := by
    intro system reached
    refine reached.invariant (Sound type engine source) ?_ fun state after _ sound runs => sound_runs sound runs
    rintro _ rfl
    exact sound_start tolerable collection
  refine ⟨⟨fun run starts => ?_, fun system reached going => exists_step (sound system reached) going⟩, ?_⟩
  · exact Reachable.no_endless_run System.work (fun state after reached runs => work_runs (sound state reached) runs) run starts
  · intro system reached result isEnded
    have standing := (sound system reached).standing
    rw [isEnded] at standing
    exact standing

end

/-! ## A reader that fails forever -/

def plainDocuments : RecordType Document where
  toDocument := some
  hasCoordinates := false
  coordinates := fun _ _ => .null

def named (id : Int) : Document := [("_id", .int64 id)]

/-- A text with two records between what cannot be read or parsed. -/
def patched : Source Document :=
  ⟨[.unread, .parsed 0 [named 1], .unparsed, .blank, .parsed 1 [named 2], .unread], false⟩

theorem ingest_ends_patched :
    Ends plainDocuments (.new 2 1 4) .ascii patched [] ∧ EndsWell plainDocuments (.new 2 1 4) .ascii patched [] :=
  ingest_ends plainDocuments (.new 2 1 4) .ascii patched [] fun _ => .inr ⟨rfl, by decide⟩

def cutOff : Source Document := ⟨[], true⟩

/-- The text is read again and again. -/
theorem cut_off_never_ends : ¬ Ends plainDocuments (.new 2 1 4) .ascii cutOff [] := by
  rintro ⟨ends_, -⟩
  let after (number : Nat) : System Document := ⟨.start (.new 2 1 4) [], .reading [] [] ⟨0, 0, number⟩⟩
  have again (number : Nat) : System.Step plainDocuments (.new 2 1 4) .ascii cutOff (after number)
      ((after number).take [] (turn .ascii ⟨0, 0, number⟩ .unread)) := .failsAgain rfl rfl
  exact ends_ after rfl fun number => .step (again number)

end Boom.Catalogs.Ingest
