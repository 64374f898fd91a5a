import Boom.Foundations.Collection
import Boom.Foundations.Double
import Boom.Foundations.Program
import Mathlib.Order.Lattice

/-! # Catalog-driven crossmatch reprocessing

A run works in two phases.  It pages through the catalog by `_id`, matches each page
against the records on one of several workers and collects the matches in a buffer;
the state it keeps records how far it got.  Then it groups the buffer by record and
writes each record's matches, and an empty list to the records that have none.

The process may die between any two writes, be canceled, or fail; what is left is
the state, the buffer and the records, and the next run starts from those.

The catalog does not change while it is reprocessed.  Its rows are known by their
`_id`s, of one type and so in one order.  Which records a row's search finds, and how
the matches of one record are sorted and trimmed, depends on coordinates and settings
that are not looked at here. -/

namespace Boom.Tasks.Crossmatch

open Boom.Foundations

structure Catalog (Id Aux : Type) [LinearOrder Id] where
  rows : List Id
  sorted : rows.Pairwise (· < ·)
  /-- Whether the search around a row finds a record. -/
  near : Id → Aux → Bool
  /-- `sortedMatches`: the order and the trim of one record's matches. -/
  sortedMatches : List Id → List Id

structure AuxRecord (Id : Type) where
  createdAt : Option F64
  crossMatches : Option (List Id)
  legacyTemp : Bool
deriving DecidableEq

def AuxRecord.createdBefore {Id : Type} (record : AuxRecord Id) (runStartJd : F64) : Bool :=
  record.createdAt.any fun createdAt => createdAt.lt runStartJd

inductive Status where
  | matching
  | committing
  | clean
deriving DecidableEq, Repr

structure ReprocessState (Id : Type) where
  status : Option Status
  runStartJd : Option F64
  checkpoint : Option Id
deriving DecidableEq

structure CatalogRun (Id : Type) where
  runStartJd : F64
  checkpoint : Option Id
  committing : Bool
deriving DecidableEq

def loadCatalogRun {Id : Type} (state : ReprocessState Id) : Option (CatalogRun Id) :=
  match state.status, state.runStartJd with
  | some .matching, some runStartJd =>
    some { runStartJd := runStartJd, checkpoint := state.checkpoint, committing := false }
  | some .committing, some runStartJd =>
    some { runStartJd := runStartJd, checkpoint := state.checkpoint, committing := true }
  | _, _ => none

structure Page (Id : Type) where
  index : Nat
  rows : List Id
deriving DecidableEq

abbrev PageTracker (Id : Type) := List (Nat × Id × Bool)

def PageTracker.finish {Id : Type} (tracker : PageTracker Id) (index : Nat) : PageTracker Id :=
  tracker.map fun entry => if entry.1 = index then (entry.1, entry.2.1, true) else entry

def PageTracker.popDone {Id : Type} : PageTracker Id → Option Id × PageTracker Id
  | (_, lastId, true) :: rest =>
    let (checkpoint, left) := PageTracker.popDone rest
    (checkpoint.or (some lastId), left)
  | tracker => (none, tracker)

section Model

variable {Id Aux : Type} [LinearOrder Id] [DecidableEq Aux]

/-- Where a worker is in its loop over pages. -/
inductive Worker (Id Aux : Type) where
  | waiting
  | matching (page : Page Id)
  | inserting (page : Page Id) (documents : List (Aux × Id))
  | completing (page : Page Id)
  /-- Writing a checkpoint, with the tracker locked. -/
  | recording (checkpoint : Id)
  | finished
  | failed
deriving DecidableEq

inductive Producer (Id : Type) where
  | feeding
  | sending (page : Page Id)
  | ended (exhausted : Bool)
  | failed
deriving DecidableEq

structure Options where
  batchSize : Nat
  processes : Nat
  skipEmpty : Bool
deriving DecidableEq, Repr

/-- The first phase, as the process has it in memory. -/
structure Matching (Id Aux : Type) where
  run : CatalogRun Id
  index : Nat
  lastId : Option Id
  producer : Producer Id
  tracker : PageTracker Id
  channel : List (Page Id)
  workers : Nat → Worker Id Aux

/-- Where the process is: what it does next. -/
inductive Phase (Id Aux : Type) where
  | idle
  | dropping
  | dropped
  | starting
  | matching (state : Matching Id Aux)
  | matched (run : CatalogRun Id) (exhausted : Bool)
  | grouping (run : CatalogRun Id)
  | merging (run : CatalogRun Id) (remaining : List Aux)
  | emptying (run : CatalogRun Id) (remaining : List Aux)
  | cleaning
  | discarding
  | tidying

/-- The database and the process.  `starts` counts how often a run start was stored. -/
structure System (Id Aux : Type) where
  records : Collection Aux (AuxRecord Id)
  state : ReprocessState Id
  starts : Nat
  buffer : List (Aux × Id)
  grouped : List (Aux × List Id)
  options : Options
  canceled : Bool
  phase : Phase Id Aux

namespace Catalog

def after (catalog : Catalog Id Aux) (lastId : Option Id) : List Id :=
  catalog.rows.filter fun row => lastId.all fun lastId => lastId < row

def processCatDoc (catalog : Catalog Id Aux) (records : Collection Aux (AuxRecord Id))
    (runStartJd : F64) (row : Id) : List (Aux × Id) :=
  (records.find fun aux record => catalog.near row aux && record.createdBefore runStartJd).map
    fun entry => (entry.1, row)

def matchPage (catalog : Catalog Id Aux) (records : Collection Aux (AuxRecord Id)) (runStartJd : F64)
    (rows : List Id) : List (Aux × Id) :=
  rows.flatMap (catalog.processCatDoc records runStartJd)

def group (catalog : Catalog Id Aux) (buffer : List (Aux × Id)) : List (Aux × List Id) :=
  (buffer.map Prod.fst).dedup.map fun aux =>
    (aux, catalog.sortedMatches ((buffer.filter fun found => found.1 = aux).map Prod.snd))

end Catalog

namespace Worker

def hands : Worker Id Aux → Option (Page Id)
  | .matching page | .inserting page _ | .completing page => some page
  | .waiting | .recording _ | .finished | .failed => none

def isOver : Worker Id Aux → Bool
  | .finished | .failed => true
  | _ => false

def isRecording : Worker Id Aux → Bool
  | .recording _ => true
  | _ => false

def isFailed : Worker Id Aux → Bool
  | .failed => true
  | _ => false

end Worker

def Producer.isOver : Producer Id → Bool
  | .ended _ | .failed => true
  | _ => false

namespace Matching

def setWorker (matching : Matching Id Aux) (slot : Nat) (worker : Worker Id Aux) : Matching Id Aux :=
  { matching with workers := Function.update matching.workers slot worker }

omit [LinearOrder Id] [DecidableEq Aux] in
theorem workers_setWorker (matching : Matching Id Aux) (slot another : Nat) (worker : Worker Id Aux) :
    (matching.setWorker slot worker).workers another =
      if another = slot then worker else matching.workers another :=
  Function.update_apply _ _ _ _

def fresh (run : CatalogRun Id) : Matching Id Aux where
  run := run
  index := 0
  lastId := run.checkpoint
  producer := .feeding
  tracker := []
  channel := []
  workers _ := .waiting

def unlocked (matching : Matching Id Aux) (processes : Nat) : Bool :=
  (List.range processes).all fun slot => !(matching.workers slot).isRecording

def allOver (matching : Matching Id Aux) (processes : Nat) : Bool :=
  (List.range processes).all fun slot => (matching.workers slot).isOver

def noneFailed (matching : Matching Id Aux) (processes : Nat) : Bool :=
  (List.range processes).all fun slot => !(matching.workers slot).isFailed

end Matching

def queueMultiplier : Nat := 2

inductive MatchAction (Id Aux : Type) where
  | feed
  | feedFailed
  | send
  | sendClosed
  | receive (slot : Nat)
  | matchPage (slot : Nat)
  | insert (slot : Nat) (document : Aux × Id)
  | inserted (slot : Nat)
  | complete (slot : Nat)
  | record (slot : Nat) (delivery : Delivery)
  | finish (slot : Nat)
  | fail (slot : Nat)

/-- One step of the process, its environment, or of a crash. -/
inductive Action (Id Aux : Type) where
  | ingest (aux : Aux) (record : AuxRecord Id)
  | cancel
  | halt
  | launch (restart : Bool) (options : Options)
  | dropBuffer
  | dropGrouped
  | saveFresh (now : F64)
  | matching (action : MatchAction Id Aux)
  | conclude
  | saveCommitting
  | group
  | merge (aux : Aux)
  | merged
  | empty (aux : Aux)
  | emptied
  | saveClean
  | discardBuffer
  | discardGrouped

namespace System

def inMatching (system : System Id Aux) (matching : Matching Id Aux) : System Id Aux :=
  { system with phase := .matching matching }

def inserted (system : System Id Aux) (document : Aux × Id) : System Id Aux :=
  { system with buffer := system.buffer.insert document }

def checkpointed (system : System Id Aux) (checkpoint : Id) : System Id Aux :=
  { system with state := { system.state with checkpoint := some checkpoint } }

def statused (system : System Id Aux) (status : Status) : System Id Aux :=
  { system with state := { system.state with status := some status } }

def launched (system : System Id Aux) (restart : Bool) (options : Options) : System Id Aux :=
  { system with
    options := options
    canceled := false
    phase := match if restart then none else loadCatalogRun system.state with
      | none => .dropping
      | some run => if run.committing then .grouping run else .matching (.fresh run) }

def feed (catalog : Catalog Id Aux) (system : System Id Aux) (matching : Matching Id Aux) :
    System Id Aux :=
  if system.canceled then system.inMatching { matching with producer := .ended (catalog.after matching.lastId).isEmpty }
  else
    let rows := (catalog.after matching.lastId).take system.options.batchSize
    match rows.getLast? with
    | none => system.inMatching { matching with producer := .ended true }
    | some lastId =>
      let page : Page Id := { index := matching.index, rows := rows }
      system.inMatching { matching with
        index := matching.index + 1
        lastId := some lastId
        producer := .sending page
        tracker := matching.tracker ++ [(page.index, lastId, false)] }

def completePage (system : System Id Aux) (matching : Matching Id Aux) (slot : Nat) (page : Page Id) :
    System Id Aux :=
  let (checkpoint, tracker) := (matching.tracker.finish page.index).popDone
  system.inMatching ({ matching with tracker := tracker }.setWorker slot
    (checkpoint.elim .waiting .recording))

/-- A step of the first phase, where it can be taken. -/
def takeMatching (catalog : Catalog Id Aux) (system : System Id Aux) (matching : Matching Id Aux) :
    MatchAction Id Aux → Option (System Id Aux)
  | .feed =>
    if matching.producer = .feeding ∧ matching.unlocked system.options.processes then
      some (system.feed catalog matching)
    else none
  | .feedFailed =>
    if matching.producer = .feeding then
      some (system.inMatching { matching with producer := .failed })
    else none
  | .send =>
    match matching.producer with
    | .sending page =>
      if matching.channel.length < system.options.processes * queueMultiplier then
        some (system.inMatching
          { matching with producer := .feeding, channel := matching.channel ++ [page] })
      else none
    | _ => none
  | .sendClosed =>
    match matching.producer with
    | .sending _ =>
      if matching.allOver system.options.processes then
        some (system.inMatching { matching with producer := .ended false })
      else none
    | _ => none
  | .receive slot =>
    match matching.workers slot, matching.channel with
    | .waiting, page :: rest =>
      if slot < system.options.processes then
        some (system.inMatching ({ matching with channel := rest }.setWorker slot (.matching page)))
      else none
    | _, _ => none
  | .matchPage slot =>
    match matching.workers slot with
    | .matching page =>
      some (system.inMatching (matching.setWorker slot
        (.inserting page (catalog.matchPage system.records matching.run.runStartJd page.rows))))
    | _ => none
  | .insert slot document =>
    match matching.workers slot with
    | .inserting page documents =>
      if document ∈ documents then
        some ((system.inserted document).inMatching
          (matching.setWorker slot (.inserting page (documents.erase document))))
      else none
    | _ => none
  | .inserted slot =>
    match matching.workers slot with
    | .inserting page [] => some (system.inMatching (matching.setWorker slot (.completing page)))
    | _ => none
  | .complete slot =>
    match matching.workers slot with
    | .completing page =>
      if matching.unlocked system.options.processes then some (system.completePage matching slot page)
      else none
    | _ => none
  | .record slot delivery =>
    match matching.workers slot with
    | .recording checkpoint =>
      let next := matching.setWorker slot (if delivery = .answered then .waiting else .failed)
      some (if delivery = .refused then system.inMatching next
        else (system.checkpointed checkpoint).inMatching next)
    | _ => none
  | .finish slot =>
    match matching.workers slot, matching.channel with
    | .waiting, [] =>
      if slot < system.options.processes ∧ matching.producer.isOver then
        some (system.inMatching (matching.setWorker slot .finished))
      else none
    | _, _ => none
  | .fail slot =>
    if slot < system.options.processes ∧ !(matching.workers slot).isOver then
      some (system.inMatching (matching.setWorker slot .failed))
    else none

def concluded (system : System Id Aux) (matching : Matching Id Aux) : Option (System Id Aux) :=
  if matching.allOver system.options.processes then
    match matching.producer with
    | .ended exhausted =>
      some { system with
        phase := if matching.noneFailed system.options.processes then .matched matching.run exhausted
          else .idle }
    | .failed => some { system with phase := .idle }
    | _ => none
  else none

def unmatched (system : System Id Aux) (runStartJd : F64) : List Aux :=
  (system.records.find fun aux record => record.createdBefore runStartJd &&
    (record.crossMatches != some [] || record.legacyTemp) &&
    !(system.grouped.map Prod.fst).contains aux).map Prod.fst

def merged (system : System Id Aux) (aux : Aux) (matches_ : List Id) : System Id Aux :=
  { system with records := system.records.updateOne aux (fun _ => true) fun record =>
      { record with crossMatches := some matches_, legacyTemp := false } }

def mergedGroup (system : System Id Aux) (aux : Aux) : System Id Aux :=
  match system.grouped.lookup aux with
  | some matches_ => system.merged aux matches_
  | none => system

def take (catalog : Catalog Id Aux) (system : System Id Aux) : Action Id Aux → Option (System Id Aux)
  | .ingest aux record =>
    if (loadCatalogRun system.state).all fun run => !record.createdBefore run.runStartJd then
      (system.records.insertOne aux record).map fun records => { system with records := records }
    else none
  | .cancel => some { system with canceled := true }
  | .halt => some { system with phase := .idle }
  | .launch restart options =>
    match system.phase with
    | .idle =>
      if 0 < options.batchSize ∧ 0 < options.processes then some (system.launched restart options)
      else none
    | _ => none
  | .dropBuffer =>
    match system.phase with
    | .dropping => some { system with buffer := [], phase := .dropped }
    | _ => none
  | .dropGrouped =>
    match system.phase with
    | .dropped => some { system with grouped := [], phase := .starting }
    | _ => none
  | .saveFresh now =>
    match system.phase with
    | .starting =>
      some { system with
        state := { status := some .matching, runStartJd := some now, checkpoint := none }
        starts := system.starts + 1
        phase := .matching (.fresh { runStartJd := now, checkpoint := none, committing := false }) }
    | _ => none
  | .matching action =>
    match system.phase with
    | .matching matching => system.takeMatching catalog matching action
    | _ => none
  | .conclude =>
    match system.phase with
    | .matching matching => system.concluded matching
    | _ => none
  | .saveCommitting =>
    match system.phase with
    | .matched run _ => some { system.statused .committing with phase := .grouping run }
    | _ => none
  | .group =>
    match system.phase with
    | .grouping run =>
      let grouped := catalog.group system.buffer
      some { system with grouped := grouped, phase := .merging run (grouped.map Prod.fst) }
    | _ => none
  | .merge aux =>
    match system.phase with
    | .merging run remaining =>
      if aux ∈ remaining then
        some { system.mergedGroup aux with phase := .merging run (remaining.erase aux) }
      else none
    | _ => none
  | .merged =>
    match system.phase with
    | .merging run [] =>
      some { system with
        phase := if system.options.skipEmpty then .cleaning
          else .emptying run (system.unmatched run.runStartJd) }
    | _ => none
  | .empty aux =>
    match system.phase with
    | .emptying run remaining =>
      if aux ∈ remaining then
        some { system.merged aux [] with phase := .emptying run (remaining.erase aux) }
      else none
    | _ => none
  | .emptied =>
    match system.phase with
    | .emptying _ [] => some { system with phase := .cleaning }
    | _ => none
  | .saveClean =>
    match system.phase with
    | .cleaning => some { system.statused .clean with phase := .discarding }
    | _ => none
  | .discardBuffer =>
    match system.phase with
    | .discarding => some { system with buffer := [], phase := .tidying }
    | _ => none
  | .discardGrouped =>
    match system.phase with
    | .tidying => some { system with grouped := [], phase := .idle }
    | _ => none

def Step (catalog : Catalog Id Aux) (permit : System Id Aux → Action Id Aux → Bool)
    (system after : System Id Aux) : Prop :=
  ∃ action, permit system action = true ∧ system.take catalog action = some after

theorem Step.unrestricted {catalog : Catalog Id Aux} {permit : System Id Aux → Action Id Aux → Bool}
    {system after : System Id Aux} (step : Step catalog permit system after) :
    Step catalog (fun _ _ => true) system after := by
  obtain ⟨action, _, taken⟩ := step
  exact ⟨action, rfl, taken⟩

def Initial (system : System Id Aux) : Prop :=
  system.phase = .idle ∧ system.state.status ≠ some .matching ∧ system.state.status ≠ some .committing

def run (catalog : Catalog Id Aux) (permit : System Id Aux → Action Id Aux → Bool)
    (system : System Id Aux) (actions : List (Action Id Aux)) : Option (System Id Aux) :=
  actions.foldlM (fun system action => if permit system action then system.take catalog action else none)
    system

theorem reach_run {catalog : Catalog Id Aux} {permit : System Id Aux → Action Id Aux → Bool}
    {system after : System Id Aux} (reached : Reachable Initial (Step catalog permit) system)
    {actions : List (Action Id Aux)} (ran : system.run catalog permit actions = some after) :
    Reachable Initial (Step catalog permit) after := by
  induction actions generalizing system with
  | nil =>
    cases ran
    exact reached
  | cons action rest ih =>
    obtain ⟨next, taken, ran⟩ := Option.bind_eq_some_iff.mp ran
    obtain ⟨permitted, taken⟩ := Option.ite_none_right_eq_some.mp taken
    exact ih (.next reached ⟨action, permitted, taken⟩) ran

end System

end Model

end Boom.Tasks.Crossmatch
