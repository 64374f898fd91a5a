import Boom.Catalogs.InsertPool
import Boom.Foundations.Transition

/-! # Ingesting one file

A file is read item by item, and the records of each item are sent to a pool of insert workers.  An item is a
line, a row or a batch of rows; after the last one the reader is at the end of the file, or reports an error
on every further read.  Each format has its own rule for what does not parse and for errors of the reader. -/

namespace Boom.Catalogs.Ingest

open Boom.Foundations

inductive Engine where
  | ascii
  | csv
  | jsonl
  | parquet
deriving DecidableEq

/-- What one read comes to. -/
inductive Item (ρ : Type) where
  /-- An error of the reader. -/
  | unread
  | blank
  | unparsed
  /-- The records of it, and the number of rows without an id or a position. -/
  | parsed (rejected : Nat) (records : List ρ)

structure Source (ρ : Type) where
  items : List (Item ρ)
  failsForever : Bool

structure IngestReport where
  read : Nat
  inserted : Nat
  skipped : Nat

def MAX_PARSE_ERRORS : Nat := 100

/-- Why the sender is dropped. -/
inductive Cause where
  | finished
  | failure (error : IngestError)
  | gaveUp
deriving DecidableEq

/-- What follows an item. -/
inductive Turn (ρ : Type) where
  | go (pending : List ρ) (report : IngestReport)
  | stop (cause : Cause) (report : IngestReport)

section

variable {ρ : Type}

def turn (engine : Engine) (report : IngestReport) : Item ρ → Turn ρ
  | .unread =>
    if engine = .ascii then .go [] { report with skipped := report.skipped + 1 }
    else .stop (.failure .read) report
  | .blank => .go [] report
  | .unparsed =>
    if engine = .ascii then
      if MAX_PARSE_ERRORS < report.skipped + 1 then .stop .gaveUp { report with skipped := report.skipped + 1 }
      else .go [] { report with skipped := report.skipped + 1 }
    else .stop (.failure .read) report
  | .parsed rejected records => .go records { report with skipped := report.skipped + rejected }

def outcome (cause : Cause) (report : IngestReport) (workers : List Worker) : Except IngestError IngestReport :=
  match cause with
  | .failure error => .error error
  | .gaveUp =>
    match finish workers with
    | .error error => .error error
    | .ok _ => .error (.gaveUp report.skipped)
  | .finished =>
    match finish workers with
    | .error error => .error error
    | .ok tally => .ok { report with inserted := tally.inserted, skipped := report.skipped + tally.skipped }

/-- Where the reading task is. -/
inductive Stage (ρ : Type) where
  | reading (items : List (Item ρ)) (pending : List ρ) (report : IngestReport)
  | waiting (cause : Cause) (report : IngestReport)
  | ended (result : Except IngestError IngestReport)

structure System (ρ : Type) where
  pool : Pool ρ
  stage : Stage ρ

namespace System

def start (inserter : Inserter) (source : Source ρ) (collection : List Document) : System ρ where
  pool := .start inserter collection
  stage := .reading source.items [] ⟨0, 0, 0⟩

def drop (system : System ρ) (cause : Cause) (report : IngestReport) : System ρ where
  pool := { system.pool with closed := true }
  stage := .waiting cause report

def take (system : System ρ) (items : List (Item ρ)) : Turn ρ → System ρ
  | .go pending report => { system with stage := .reading items pending report }
  | .stop cause report => system.drop cause report

variable (type : RecordType ρ) (inserter : Inserter) (engine : Engine) (source : Source ρ)

/-- The reading task or a worker takes a step. -/
inductive Step : System ρ → System ρ → Prop where
  | takes {system : System ρ} {item : Item ρ} {items : List (Item ρ)} {report : IngestReport} :
      system.stage = .reading (item :: items) [] report → Step system (system.take items (turn engine report item))
  /-- One more error of a reader that reports nothing else. -/
  | failsAgain {system : System ρ} {report : IngestReport} :
      system.stage = .reading [] [] report → source.failsForever = true → Step system (system.take [] (turn engine report .unread))
  | atEnd {system : System ρ} {report : IngestReport} :
      system.stage = .reading [] [] report → source.failsForever = false → Step system (system.drop .finished report)
  | sends {system : System ρ} {items : List (Item ρ)} {record : ρ} {pending : List ρ} {report : IngestReport} :
      system.stage = .reading items (record :: pending) report → system.pool.allEnded = false →
      system.pool.queue.length < inserter.channelCapacity →
      Step system {
        pool := { system.pool with queue := system.pool.queue ++ [record] }
        stage := .reading items pending { report with read := report.read + 1 } }
  /-- Nobody is left to take a record: of a batch the others are left out, and the next batch is read. -/
  | sendFails {system : System ρ} {items : List (Item ρ)} {record : ρ} {pending : List ρ} {report : IngestReport} :
      system.stage = .reading items (record :: pending) report → system.pool.allEnded = true →
      Step system (if engine = .parquet then { system with stage := .reading items [] { report with read := report.read + 1 } }
        else system.drop .finished { report with read := report.read + 1 })
  | works {system : System ρ} {pool : Pool ρ} : Pool.Works type inserter system.pool pool → Step system { system with pool := pool }
  | finishes {system : System ρ} {cause : Cause} {report : IngestReport} :
      system.stage = .waiting cause report → system.pool.allEnded = true →
      Step system { system with stage := .ended (outcome cause report system.pool.workers) }

/-- Or a worker fails. -/
inductive Runs : System ρ → System ρ → Prop where
  | step {system after : System ρ} : Step type inserter engine source system after → Runs system after
  | fails {system : System ρ} {pool : Pool ρ} : Pool.Fails system.pool pool → Runs system { system with pool := pool }

end System

/-! ## What a file says -/

def Item.records : Item ρ → List ρ
  | .parsed _ records => records
  | _ => []

def Item.passedOver : Item ρ → Nat
  | .unread => 1
  | .blank => 0
  | .unparsed => 1
  | .parsed rejected _ => rejected

def recordsOf (items : List (Item ρ)) : List ρ := items.flatMap Item.records

def passedOver (items : List (Item ρ)) : Nat := (items.map Item.passedOver).sum

def offSphereCount (type : RecordType ρ) (records : List ρ) : Nat :=
  records.countP fun record =>
    match toCatalogDocument type record with
    | some (.offSphere _) => true
    | _ => false

def Tolerable (failsForever : Bool) : Nat → List (Item ρ) → Prop
  | skipped, [] => failsForever = false ∧ skipped ≤ MAX_PARSE_ERRORS
  | skipped, .unread :: rest => Tolerable failsForever (skipped + 1) rest
  | skipped, .blank :: rest => Tolerable failsForever skipped rest
  | skipped, .unparsed :: rest => MAX_PARSE_ERRORS < skipped + 1 ∨ Tolerable failsForever (skipped + 1) rest
  | skipped, .parsed rejected _ :: rest => Tolerable failsForever (skipped + rejected) rest

def Item.Clean : Item ρ → Prop
  | .unread => False
  | .unparsed => False
  | _ => True

end

/-! ## Workers of a pool -/

namespace Worker

def leaving : Worker → Bool
  | .writing _ last _ => last
  | .done _ => true
  | _ => false

end Worker

variable {worker : Worker}

namespace Pool

variable {ρ : Type} {type : RecordType ρ} {inserter : Inserter} {pool pool' : Pool ρ}

def NoFailed (pool : Pool ρ) : Prop := ∀ worker ∈ pool.workers, worker.hasFailed = false

def Handled (type : RecordType ρ) (pool : Pool ρ) (record : ρ) : Prop :=
  (∃ doc, toCatalogDocument type record = some (.ready doc) ∧
    ((∃ worker ∈ pool.workers, doc ∈ worker.held) ∨ Present pool.collection doc)) ∨
  ∃ doc, toCatalogDocument type record = some (.offSphere doc)

structure Accounts (type : RecordType ρ) (all left : List ρ) (pool : Pool ρ) : Prop where
  each : ∀ record ∈ all, record ∈ left ∨ record ∈ pool.queue ∨ Handled type pool record
  count : offSphereCount type left + offSphereCount type pool.queue + (pool.workers.map Worker.skipped).sum =
    offSphereCount type all

theorem noFailed_of_set {slot : Nat} {worker found : Worker} (at_ : pool.workers[slot]? = some found) (unfailed : found.hasFailed = false)
    (noFailed : ∀ other ∈ pool.workers.set slot worker, other.hasFailed = false) : NoFailed pool := by
  intro other there
  rcases mem_set_or_eq at_ there with rfl | kept
  · exact unfailed
  · exact noFailed other kept

theorem noFailed_of_works (works : Works type inserter pool pool') (noFailed : NoFailed pool') : NoFailed pool := by
  cases works with
  | receives _ at_ => exact noFailed_of_set at_ rfl noFailed
  | closes _ _ at_ => exact noFailed_of_set at_ rfl noFailed
  | writes at_ => exact noFailed_of_set at_ rfl noFailed

theorem not_noFailed_of_fails (fails : Fails pool pool') : ¬ NoFailed pool' := by
  intro noFailed
  cases fails with
  | fails error at_ _ _ =>
    have failed := noFailed _ (mem_set_of_getElem? at_)
    cases failed

theorem Handled.mono {record : ρ} (handled : Handled type pool record)
    (kept : ∀ doc, ((∃ worker ∈ pool.workers, doc ∈ worker.held) ∨ Present pool.collection doc) →
      (∃ worker ∈ pool'.workers, doc ∈ worker.held) ∨ Present pool'.collection doc) : Handled type pool' record := by
  rcases handled with ⟨doc, isReady, there⟩ | outside
  · exact .inl ⟨doc, isReady, kept doc there⟩
  · exact .inr outside

theorem held_set {slot : Nat} {worker found : Worker} (at_ : pool.workers[slot]? = some found) (more : found.held ⊆ worker.held)
    {doc : Document} (held : ∃ other ∈ pool.workers, doc ∈ other.held) : ∃ other ∈ pool.workers.set slot worker, doc ∈ other.held := by
  obtain ⟨other, there, isHeld⟩ := held
  rcases mem_set_or_eq at_ there with rfl | kept
  · exact ⟨worker, mem_set_of_getElem? at_, more isHeld⟩
  · exact ⟨other, kept, isHeld⟩

theorem offSphereCount_cons (record : ρ) (rest : List ρ) : offSphereCount type (record :: rest) =
    offSphereCount type rest + match toCatalogDocument type record with
      | some (.offSphere _) => 1
      | _ => 0 := by
  unfold offSphereCount
  rw [List.countP_cons]
  congr 1
  split <;> simp_all

theorem offSphereCount_append (first second : List ρ) :
    offSphereCount type (first ++ second) = offSphereCount type first + offSphereCount type second :=
  List.countP_append

theorem received_cases {offSphere : Nat} {record : ρ} {batch : List Document} {tally : Tally}
    (unfailed : (received type inserter offSphere record batch tally).1.hasFailed = false) :
    (∃ doc, toCatalogDocument type record = some (.ready doc) ∧
      (received type inserter offSphere record batch tally).1.held = batch ++ [doc] ∧
      (received type inserter offSphere record batch tally).1.skipped = tally.skipped) ∨
    (∃ doc, toCatalogDocument type record = some (.offSphere doc) ∧
      (received type inserter offSphere record batch tally).1.held = batch ∧
      (received type inserter offSphere record batch tally).1.skipped = tally.skipped + 1) := by
  unfold received at *
  split at unfailed
  next => cases unfailed
  next doc isReady =>
    refine .inl ⟨doc, isReady, ?_, ?_⟩
    · dsimp only
      split <;> rfl
    · dsimp only
      split <;> rfl
  next doc outside =>
    split at unfailed
    next => cases unfailed
    next few =>
      refine .inr ⟨doc, outside, ?_, ?_⟩
      · simp only [if_neg few, Worker.held]
      · simp only [if_neg few, Worker.skipped]

theorem accounts_received {all left rest : List ρ} {record : ρ} {slot : Nat} {batch : List Document} {tally : Tally}
    (isQueue : pool.queue = record :: rest) (at_ : pool.workers[slot]? = some (.taking batch tally)) (accounts : Accounts type all left pool)
    (unfailed : (received type inserter pool.offSphere record batch tally).1.hasFailed = false) :
    Accounts type all left { pool with
      queue := rest
      workers := pool.workers.set slot (received type inserter pool.offSphere record batch tally).1
      offSphere := (received type inserter pool.offSphere record batch tally).2 } := by
  have sum := sum_map_set Worker.skipped (received type inserter pool.offSphere record batch tally).1 at_
  have count := accounts.count
  rw [isQueue, offSphereCount_cons] at count
  have more : (Worker.taking batch tally).held ⊆ (received type inserter pool.offSphere record batch tally).1.held := by
    rcases received_cases unfailed with ⟨doc, -, holds, -⟩ | ⟨doc, -, holds, -⟩
    · rw [holds]
      exact List.subset_append_left _ _
    · rw [holds]
      exact List.Subset.refl _
  refine ⟨fun other there => ?_, ?_⟩
  · rcases accounts.each other there with isLeft | queued | handled
    · exact .inl isLeft
    · rw [isQueue] at queued
      rcases List.mem_cons.mp queued with rfl | later
      · refine .inr (.inr ?_)
        rcases received_cases unfailed with ⟨doc, isReady, holds, -⟩ | ⟨doc, outside, -, -⟩
        · exact .inl ⟨doc, isReady, .inl ⟨_, mem_set_of_getElem? at_, holds ▸ List.mem_append_right _ List.mem_cons_self⟩⟩
        · exact .inr ⟨doc, outside⟩
      · exact .inr (.inl later)
    · exact .inr (.inr (handled.mono fun doc => Or.imp (held_set at_ more) id))
  · dsimp only
    have before : (Worker.taking batch tally).skipped = tally.skipped := rfl
    rw [before] at sum
    rcases received_cases unfailed with ⟨doc, isReady, -, counts⟩ | ⟨doc, outside, -, counts⟩
    · rw [counts] at sum
      simp only [isReady] at count
      omega
    · rw [counts] at sum
      simp only [outside] at count
      omega

theorem accounts_works {all left : List ρ} (works : Works type inserter pool pool') (noFailed : NoFailed pool')
    (accounts : Accounts type all left pool) : Accounts type all left pool' := by
  cases works with
  | receives isQueue at_ => exact accounts_received isQueue at_ accounts (noFailed _ (mem_set_of_getElem? at_))
  | @closes slot batch tally _ _ at_ =>
    have more : batch ⊆ (exhausted batch tally).held := by
      unfold exhausted
      split
      next none_ =>
        rw [none_]
        exact List.nil_subset _
      next => exact List.Subset.refl _
    have same : (exhausted batch tally).skipped = tally.skipped := by
      unfold exhausted
      split <;> rfl
    refine ⟨fun record there => ?_, ?_⟩
    · rcases accounts.each record there with isLeft | queued | handled
      · exact .inl isLeft
      · exact .inr (.inl queued)
      · exact .inr (.inr (handled.mono fun doc => Or.imp (held_set at_ more) id))
    · have sum := sum_map_set Worker.skipped (exhausted batch tally) at_
      have count := accounts.count
      rw [same] at sum
      simp only [Worker.skipped] at sum
      dsimp only
      omega
  | @writes slot batch last tally at_ =>
    have same (new : Nat) : (written new last tally).skipped = tally.skipped := by
      unfold written
      split <;> rfl
    refine ⟨fun record there => ?_, ?_⟩
    · rcases accounts.each record there with isLeft | queued | handled
      · exact .inl isLeft
      · exact .inr (.inl queued)
      · refine .inr (.inr (handled.mono fun doc => ?_))
        rintro (⟨other, isOther, isHeld⟩ | present)
        · rcases mem_set_or_eq at_ isOther with rfl | kept
          · exact .inr (present_writeBatch isHeld pool.collection)
          · exact .inl ⟨other, kept, isHeld⟩
        · exact .inr (present_writeBatch_of_present present batch)
    · have sum := sum_map_set Worker.skipped (written (writeBatch pool.collection batch).2 last tally) at_
      have count := accounts.count
      rw [same] at sum
      simp only [Worker.skipped] at sum
      dsimp only
      omega

/-! ## Who has seen the channel closed -/

structure Orderly (pool : Pool ρ) : Prop where
  some_ : pool.workers ≠ []
  opened : pool.closed = false → ∀ worker ∈ pool.workers, worker.leaving = false
  drained : ∀ worker ∈ pool.workers, worker.leaving = true → pool.queue = []

theorem set_ne_nil {slot : Nat} (some_ : pool.workers ≠ []) : pool.workers.set slot worker ≠ [] := by
  rw [← List.length_pos_iff, List.length_set]
  exact List.length_pos_iff.mpr some_

theorem leaving_received {offSphere : Nat} {record : ρ} {batch : List Document} {tally : Tally} :
    (received type inserter offSphere record batch tally).1.leaving = false := by
  unfold received
  split
  next => rfl
  next =>
    dsimp only
    split <;> rfl
  next =>
    dsimp only
    split <;> rfl

theorem orderly_set {slot : Nat} (orderly : Orderly pool)
    (leaves : worker.leaving = true → pool.closed = true ∧ pool.queue = []) (offSphere : Nat) (collection : List Document) :
    Orderly { pool with workers := pool.workers.set slot worker, offSphere := offSphere, collection := collection } where
  some_ := set_ne_nil orderly.some_
  opened isOpen other there := by
    rcases List.mem_or_eq_of_mem_set there with kept | rfl
    · exact orderly.opened isOpen other kept
    · refine Bool.eq_false_iff.mpr fun isLeaving => ?_
      rw [(leaves isLeaving).1] at isOpen
      cases isOpen
  drained other there isLeaving := by
    rcases List.mem_or_eq_of_mem_set there with kept | rfl
    · exact orderly.drained other kept isLeaving
    · exact (leaves isLeaving).2

theorem orderly_works (works : Works type inserter pool pool') (orderly : Orderly pool) : Orderly pool' := by
  cases works with
  | receives isQueue at_ =>
    refine ⟨set_ne_nil orderly.some_, fun isOpen other there => ?_, fun other there isLeaving => ?_⟩
    · rcases List.mem_or_eq_of_mem_set there with kept | rfl
      · exact orderly.opened isOpen other kept
      · exact leaving_received
    · rcases List.mem_or_eq_of_mem_set there with kept | rfl
      · rw [orderly.drained other kept isLeaving] at isQueue
        cases isQueue
      · rw [leaving_received] at isLeaving
        cases isLeaving
  | @closes slot batch tally isEmpty isClosed at_ => exact orderly_set orderly (fun _ => ⟨isClosed, isEmpty⟩) _ _
  | @writes slot batch last tally at_ =>
    refine orderly_set orderly (fun isLeaving => ?_) _ _
    have wasLeaving : (Worker.writing batch last tally).leaving = true := by
      unfold written at isLeaving
      split at isLeaving
      next isLast => exact isLast
      next => cases isLeaving
    have there := List.mem_of_getElem? at_
    refine ⟨?_, orderly.drained _ there wasLeaving⟩
    by_contra isOpen
    have stays := orderly.opened (Bool.eq_false_iff.mpr isOpen) _ there
    rw [wasLeaving] at stays
    cases stays

theorem orderly_fails (fails : Fails pool pool') (orderly : Orderly pool) : Orderly pool' := by
  cases fails with
  | fails error at_ alive part => exact orderly_set orderly (fun isLeaving => by cases isLeaving) _ _

theorem leaving_of_ended (ended : worker.ended = true) (unfailed : worker.hasFailed = false) : worker.leaving = true := by
  cases worker with
  | done tally => rfl
  | failed error => cases unfailed
  | taking batch tally => cases ended
  | writing batch last tally => cases ended

theorem held_of_ended (ended : worker.ended = true) : worker.held = [] := by
  cases worker with
  | done tally => rfl
  | failed error => rfl
  | taking batch tally => cases ended
  | writing batch last tally => cases ended

theorem accounts_ended {all : List ρ} (accounts : Accounts type all [] pool) (orderly : Orderly pool) (noFailed : NoFailed pool)
    (allEnded : pool.allEnded = true) :
    (∀ record ∈ all, (∃ doc, toCatalogDocument type record = some (.ready doc) ∧ Present pool.collection doc) ∨
      ∃ doc, toCatalogDocument type record = some (.offSphere doc)) ∧
    (pool.workers.map Worker.skipped).sum = offSphereCount type all := by
  have each := List.all_eq_true.mp allEnded
  obtain ⟨worker, rest, isWorkers⟩ := List.exists_cons_of_ne_nil orderly.some_
  have there : worker ∈ pool.workers := isWorkers ▸ List.mem_cons_self
  have empty := orderly.drained worker there (leaving_of_ended (each worker there) (noFailed worker there))
  refine ⟨fun record isRecord => ?_, ?_⟩
  · rcases accounts.each record isRecord with isLeft | queued | ⟨doc, isReady, ⟨other, isOther, isHeld⟩ | present⟩ | outside
    · cases isLeft
    · rw [empty] at queued
      cases queued
    · rw [held_of_ended (each other isOther)] at isHeld
      cases isHeld
    · exact .inl ⟨doc, isReady, present⟩
    · exact .inr outside
  · have count := accounts.count
    rw [empty] at count
    exact (Nat.zero_add _).symm.trans count

/-! ## What is left to do -/

end Pool

def Worker.work : Worker → Nat
  | .taking batch _ => batch.length + 2
  | .writing batch last _ => batch.length + if last then 1 else 3
  | _ => 0

namespace Pool

variable {ρ : Type} {type : RecordType ρ} {inserter : Inserter} {pool pool' : Pool ρ}

def work (pool : Pool ρ) : Nat := 3 * pool.queue.length + (pool.workers.map Worker.work).sum

theorem work_received (type : RecordType ρ) (inserter : Inserter) (offSphere : Nat) (record : ρ) (batch : List Document) (tally : Tally) :
    (received type inserter offSphere record batch tally).1.work < batch.length + 5 := by
  unfold received
  split
  next => exact Nat.succ_pos _
  next =>
    dsimp only
    split
    next => simp [Worker.work]
    next => simp [Worker.work]
  next =>
    dsimp only
    split
    next => exact Nat.succ_pos _
    next => simp [Worker.work]

theorem work_works (works : Works type inserter pool pool') : pool'.work < pool.work := by
  cases works with
  | @receives record rest slot batch tally isQueue at_ =>
    have sum := sum_map_set Worker.work (received type inserter pool.offSphere record batch tally).1 at_
    have before : (Worker.taking batch tally).work = batch.length + 2 := rfl
    have less := work_received type inserter pool.offSphere record batch tally
    simp only [work, isQueue, List.length_cons]
    omega
  | @closes slot batch tally _ _ at_ =>
    have sum := sum_map_set Worker.work (exhausted batch tally) at_
    have before : (Worker.taking batch tally).work = batch.length + 2 := rfl
    have less : (exhausted batch tally).work < batch.length + 2 := by
      unfold exhausted
      split
      next => exact Nat.succ_pos _
      next => simp [Worker.work]
    simp only [work]
    omega
  | @writes slot batch last tally at_ =>
    have sum := sum_map_set Worker.work (written (writeBatch pool.collection batch).2 last tally) at_
    have less : (written (writeBatch pool.collection batch).2 last tally).work < (Worker.writing batch last tally).work := by
      unfold written
      split
      next isLast => simp [Worker.work, isLast]
      next isOpen => simp [Worker.work, isOpen]
    simp only [work]
    omega

theorem work_fails (fails : Fails pool pool') : pool'.work < pool.work := by
  cases fails with
  | @fails slot worker part error at_ alive _ =>
    have sum := sum_map_set Worker.work (.failed error) at_
    have none_ : (Worker.failed error).work = 0 := rfl
    have some_ : 0 < worker.work := by
      cases worker with
      | taking batch tally => exact Nat.succ_pos _
      | writing batch last tally => cases last <;> exact Nat.succ_pos _
      | done tally => cases alive
      | failed error => cases alive
    simp only [work]
    omega

theorem exists_works (there : worker ∈ pool.workers) (alive : worker.ended = false)
    (goesOn : pool.queue ≠ [] ∨ pool.closed = true) : ∃ pool', Works type inserter pool pool' := by
  obtain ⟨slot, at_⟩ := List.mem_iff_getElem?.mp there
  cases worker with
  | taking batch tally =>
    cases isQueue : pool.queue with
    | nil => exact ⟨_, .closes isQueue (goesOn.resolve_left fun some_ => some_ isQueue) at_⟩
    | cons record rest => exact ⟨_, .receives isQueue at_⟩
  | writing batch last tally => exact ⟨_, .writes at_⟩
  | done tally => cases alive
  | failed error => cases alive

theorem exists_alive (notAll : pool.allEnded = false) : ∃ worker ∈ pool.workers, worker.ended = false := by
  obtain ⟨worker, there, alive⟩ := List.all_eq_false.mp notAll
  exact ⟨worker, there, Bool.eq_false_iff.mpr alive⟩

end Pool

end Boom.Catalogs.Ingest
