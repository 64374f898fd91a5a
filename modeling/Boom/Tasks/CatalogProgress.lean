import Boom.Tasks.ReprocessCrossmatch

/-! # What the first phase has done

The pages fed so far cut the rows after the run's checkpoint into pieces.  Some,
from the front, have been taken off the tracker, the others are on it (`Progress`).
A page that was taken off, or is marked as done, has all its matches in the buffer;
one that is neither is on its way to a worker, in the hands of one, or was lost with
one that failed.  So the checkpoint, the end of some page taken off, is never past a
row whose matches are missing, and once all pages are done nothing is. -/

namespace Boom.Tasks.Crossmatch

open Boom.Foundations

variable {Id Aux : Type}

def Buffered (found : Aux → Id → Prop) (buffer : List (Aux × Id)) (rows : List Id) : Prop :=
  ∀ row ∈ rows, ∀ aux, found aux row → (aux, row) ∈ buffer

theorem Buffered.mono {found : Aux → Id → Prop} {buffer more : List (Aux × Id)} {rows : List Id}
    (buffered : Buffered found buffer rows) (subset : ∀ document ∈ buffer, document ∈ more) :
    Buffered found more rows :=
  fun row member aux hit => subset _ (buffered row member aux hit)

/-! ## The tracker -/

def entryOf (entry : Page Id × Id × Bool) : Nat × Id × Bool :=
  (entry.1.index, entry.2.1, entry.2.2)

theorem popDone_spec (pending : List (Page Id × Id × Bool)) :
    ∃ front left, pending = front ++ left ∧ (∀ entry ∈ front, entry.2.2 = true) ∧
      PageTracker.popDone (pending.map entryOf) = (front.getLast?.map (·.2.1), left.map entryOf) := by
  induction pending with
  | nil => exact ⟨[], [], rfl, by simp, rfl⟩
  | cons entry rest ih =>
    obtain ⟨page, lastId, done⟩ := entry
    cases done with
    | false => exact ⟨[], (page, lastId, false) :: rest, rfl, by simp, rfl⟩
    | true =>
      obtain ⟨front, left, rfl, all, popped⟩ := ih
      refine ⟨(page, lastId, true) :: front, left, rfl, ?_, ?_⟩
      · intro entry member
        rcases List.mem_cons.mp member with rfl | inFront
        · rfl
        · exact all entry inFront
      · simp only [List.map_cons, entryOf, PageTracker.popDone]
        rw [popped]
        cases last : front.getLast? <;> simp [List.getLast?_cons, last]

def markDone (page : Page Id) (entry : Page Id × Id × Bool) : Page Id × Id × Bool :=
  if entry.1.index = page.index then (entry.1, entry.2.1, true) else entry

theorem markDone_fst (page : Page Id) (entry : Page Id × Id × Bool) : (markDone page entry).1 = entry.1 := by
  unfold markDone
  split <;> rfl

theorem markDone_lastId (page : Page Id) (entry : Page Id × Id × Bool) : (markDone page entry).2.1 = entry.2.1 := by
  unfold markDone
  split <;> rfl

theorem finish_map (pending : List (Page Id × Id × Bool)) (page : Page Id) :
    PageTracker.finish (pending.map entryOf) page.index = (pending.map (markDone page)).map entryOf := by
  simp only [PageTracker.finish, List.map_map]
  refine List.map_congr_left fun entry _ => ?_
  by_cases same : entry.1.index = page.index <;> simp [entryOf, markDone, same]

/-! ## Workers -/

def Worker.Agrees (found : Aux → Id → Prop) (buffer : List (Aux × Id)) (pages popped : List (Page Id))
    (drained : Prop) : Worker Id Aux → Prop
  | .matching page => page ∈ pages
  | .inserting page documents => page ∈ pages ∧ (∀ document ∈ documents, found document.1 document.2) ∧
    ∀ row ∈ page.rows, ∀ aux, found aux row → (aux, row) ∈ buffer ∨ (aux, row) ∈ documents
  | .completing page => page ∈ pages ∧ Buffered found buffer page.rows
  | .recording checkpoint => popped.getLast?.bind (·.rows.getLast?) = some checkpoint
  | .finished => drained
  | .waiting | .failed => True

theorem Worker.Agrees.mono {found : Aux → Id → Prop} {buffer more : List (Aux × Id)}
    {pages others popped : List (Page Id)} {drained drained' : Prop}
    (subset : ∀ document ∈ buffer, document ∈ more) (included : ∀ page ∈ pages, page ∈ others)
    (implied : drained → drained') {worker : Worker Id Aux}
    (agrees : worker.Agrees found buffer pages popped drained) :
    worker.Agrees found more others popped drained' := by
  cases worker with
  | waiting => trivial
  | failed => trivial
  | matching page => exact included page agrees
  | inserting page documents =>
    obtain ⟨fed, sound, all⟩ := agrees
    exact ⟨included page fed, sound, fun row member aux hit => (all row member aux hit).imp_left (subset _)⟩
  | completing page => exact ⟨included page agrees.1, agrees.2.mono subset⟩
  | recording checkpoint => exact agrees
  | finished => exact implied agrees

variable [LinearOrder Id]

/-! ## Pages of a sorted catalog -/

namespace Catalog

variable {catalog : Catalog Id Aux}

theorem mem_after {lastId : Option Id} {row : Id} :
    row ∈ catalog.after lastId ↔ row ∈ catalog.rows ∧ ∀ last ∈ lastId, last < row := by
  cases lastId <;> simp [after]

theorem after_sorted (catalog : Catalog Id Aux) (lastId : Option Id) : (catalog.after lastId).Pairwise (· < ·) :=
  catalog.sorted.sublist List.filter_sublist

theorem after_page {lastId : Option Id} {size : Nat} {last : Id}
    (isLast : ((catalog.after lastId).take size).getLast? = some last) :
    catalog.after lastId = (catalog.after lastId).take size ++ catalog.after (some last) := by
  have sorted := catalog.after_sorted lastId
  have cut := List.take_append_drop size (catalog.after lastId)
  obtain ⟨front, shape⟩ := List.getLast?_eq_some_iff.mp isLast
  have inPage : last ∈ (catalog.after lastId).take size := by simp [shape]
  have beyond : ∀ row ∈ (catalog.after lastId).drop size, last < row := by
    intro row member
    rw [← cut] at sorted
    exact (List.pairwise_append.mp sorted).2.2 last inPage row member
  have upTo : ∀ row ∈ (catalog.after lastId).take size, ¬ last < row := by
    intro row member
    have pageSorted := sorted.sublist (List.take_sublist size _)
    rw [shape] at member pageSorted
    rcases List.mem_append.mp member with earlier | same
    · exact lt_asymm ((List.pairwise_append.mp pageSorted).2.2 row earlier last (by simp))
    · rw [List.mem_singleton.mp same]
      exact lt_irrefl last
  have past := mem_after.mp (List.mem_of_mem_take inPage)
  have rest : catalog.after (some last) = (catalog.after lastId).drop size := by
    have narrowed : catalog.after (some last) = (catalog.after lastId).filter fun row => last < row := by
      unfold after
      rw [List.filter_filter]
      refine List.filter_congr fun row _ => ?_
      by_cases later : last < row
      · have both : lastId.all fun lastId => decide (lastId < row) := by
          cases lastId with
          | none => rfl
          | some first => simpa using lt_trans (past.2 first rfl) later
        simp [later, both]
      · simp [later]
    rw [narrowed]
    conv_lhs => rw [← cut]
    rw [List.filter_append, List.filter_eq_nil_iff.mpr, List.filter_eq_self.mpr, List.nil_append]
    · simpa using beyond
    · simpa using upTo
  rw [rest, cut]

end Catalog

/-! ## Progress -/

def Matching.Flying (matching : Matching Id Aux) (page : Page Id) : Prop :=
  matching.producer = .sending page ∨ page ∈ matching.channel ∨
    ∃ slot, (matching.workers slot).hands = some page

/-- The first phase, its pages `popped` off the tracker or `pending` on it. -/
structure Progress (catalog : Catalog Id Aux) (found : Aux → Id → Prop) (buffer : List (Aux × Id))
    (checkpoint : Option Id) (processes : Nat) (matching : Matching Id Aux) (popped : List (Page Id))
    (pending : List (Page Id × Id × Bool)) : Prop where
  base : ∀ row ∈ catalog.rows, (∃ start ∈ matching.run.checkpoint, row ≤ start) →
    ∀ aux, found aux row → (aux, row) ∈ buffer
  partition : catalog.after matching.run.checkpoint =
    (popped ++ pending.map Prod.fst).flatMap Page.rows ++ catalog.after matching.lastId
  indices : (popped ++ pending.map Prod.fst).map Page.index = List.range matching.index
  tracker : matching.tracker = pending.map entryOf
  lastIds : ∀ entry ∈ pending, entry.1.rows.getLast? = some entry.2.1
  taken : ∀ page ∈ popped, Buffered found buffer page.rows
  done : ∀ entry ∈ pending, entry.2.2 = true → Buffered found buffer entry.1.rows
  saved : checkpoint = matching.run.checkpoint ∨
    ∃ page ∈ popped, ∃ last, page.rows.getLast? = some last ∧ checkpoint = some last
  workers : ∀ slot, (matching.workers slot).Agrees found buffer (popped ++ pending.map Prod.fst) popped
    (matching.channel = [] ∧ matching.producer.isOver = true)
  channel : ∀ page ∈ matching.channel, page ∈ popped ++ pending.map Prod.fst
  sending : ∀ page, matching.producer = .sending page → page ∈ popped ++ pending.map Prod.fst
  flying : ∀ entry ∈ pending, entry.2.2 = false →
    matching.Flying entry.1 ∨ ∃ slot < processes, matching.workers slot = .failed
  exhausted : matching.producer = .ended true → catalog.after matching.lastId = []
  slots : ∀ slot, processes ≤ slot → matching.workers slot = .waiting
  positive : 0 < processes

namespace Progress

variable {catalog : Catalog Id Aux} {found : Aux → Id → Prop} {buffer : List (Aux × Id)}
  {checkpoint : Option Id} {processes : Nat} {matching : Matching Id Aux} {popped : List (Page Id)}
  {pending : List (Page Id × Id × Bool)}

theorem fresh {run : CatalogRun Id} (positive : 0 < processes)
    (base : ∀ row ∈ catalog.rows, (∃ start ∈ run.checkpoint, row ≤ start) →
      ∀ aux, found aux row → (aux, row) ∈ buffer) :
    Progress catalog found buffer run.checkpoint processes (Matching.fresh run) [] [] where
  base := base
  partition := rfl
  indices := rfl
  tracker := rfl
  lastIds := by simp
  taken := by simp
  done := by simp
  saved := .inl rfl
  workers _ := trivial
  channel := by simp [Matching.fresh]
  sending := by simp [Matching.fresh]
  flying := by simp
  exhausted := by simp [Matching.fresh]
  slots _ _ := rfl
  positive := positive

theorem rows_sorted (progress : Progress catalog found buffer checkpoint processes matching popped pending) :
    (popped.flatMap Page.rows ++ ((pending.map Prod.fst).flatMap Page.rows ++
      catalog.after matching.lastId)).Pairwise (· < ·) := by
  have sorted := catalog.after_sorted matching.run.checkpoint
  rwa [progress.partition, List.flatMap_append, List.append_assoc] at sorted

theorem fed_or_later (progress : Progress catalog found buffer checkpoint processes matching popped pending)
    {row : Id} (listed : row ∈ catalog.rows) (beyond : ¬ ∃ start ∈ matching.run.checkpoint, row ≤ start) :
    row ∈ popped.flatMap Page.rows ++ ((pending.map Prod.fst).flatMap Page.rows ++
      catalog.after matching.lastId) := by
  rw [← List.append_assoc, ← List.flatMap_append, ← progress.partition]
  refine Catalog.mem_after.mpr ⟨listed, fun start stored => ?_⟩
  by_contra notLater
  exact beyond ⟨start, stored, not_lt.mp notLater⟩

variable {page : Page Id}

section

variable (progress : Progress catalog found buffer checkpoint processes matching popped pending)
include progress

theorem rows_listed (fed : page ∈ popped ++ pending.map Prod.fst) : ∀ row ∈ page.rows, row ∈ catalog.rows := by
  intro row inPage
  have later : row ∈ catalog.after matching.run.checkpoint := by
    rw [progress.partition]
    exact List.mem_append_left _ (List.mem_flatMap.mpr ⟨page, fed, inPage⟩)
  exact (Catalog.mem_after.mp later).1

theorem covered {last : Id} (stored : checkpoint = some last) {row : Id} (listed : row ∈ catalog.rows)
    (upTo : row ≤ last) {aux : Aux} (hit : found aux row) : (aux, row) ∈ buffer := by
  by_cases before : ∃ start ∈ matching.run.checkpoint, row ≤ start
  · exact progress.base row listed before aux hit
  rcases progress.saved with same | ⟨page, taken, end_, isLast, same⟩
  · exact absurd ⟨last, by simp [← same, stored], upTo⟩ before
  obtain rfl : last = end_ := Option.some.inj (stored.symm.trans same)
  rcases List.mem_append.mp (progress.fed_or_later listed before) with inPopped | later
  · obtain ⟨other, taken', member⟩ := List.mem_flatMap.mp inPopped
    exact progress.taken other taken' row member aux hit
  · -- A row still to come lies beyond the end of every page taken off.
    have inPage : last ∈ popped.flatMap Page.rows :=
      List.mem_flatMap.mpr ⟨page, taken, List.mem_of_getLast? isLast⟩
    have beyond := (List.pairwise_append.mp progress.rows_sorted).2.2 last inPage row later
    exact absurd upTo (not_le.mpr beyond)

/-! ## Steps of the first phase -/

theorem grow {more : List (Aux × Id)} (subset : ∀ document ∈ buffer, document ∈ more) :
    Progress catalog found more checkpoint processes matching popped pending :=
  { progress with
    base := fun row listed before aux hit => subset _ (progress.base row listed before aux hit)
    taken := fun page member => (progress.taken page member).mono subset
    done := fun entry member isDone => (progress.done entry member isDone).mono subset
    workers := fun slot => Worker.Agrees.mono subset (fun _ member => member) id (progress.workers slot) }

theorem setWorker {slot : Nat} {worker : Worker Id Aux} (inRange : slot < processes)
    (agrees : worker.Agrees found buffer (popped ++ pending.map Prod.fst) popped
      (matching.channel = [] ∧ matching.producer.isOver = true)) (alive : matching.workers slot ≠ .failed)
    (keeps : ∀ page, (matching.workers slot).hands = some page →
      worker.hands = some page ∨ worker = .failed ∨
        ∀ entry ∈ pending, entry.1 = page → entry.2.2 = true) :
    Progress catalog found buffer checkpoint processes (matching.setWorker slot worker) popped pending := by
  have self : (matching.setWorker slot worker).workers slot = worker := Function.update_self _ _ _
  have other {another : Nat} (different : another ≠ slot) :
      (matching.setWorker slot worker).workers another = matching.workers another :=
    Function.update_of_ne different _ _
  refine { progress with workers := ?_, flying := ?_, slots := ?_ }
  · intro another
    by_cases same : another = slot
    · rw [same, self]
      exact agrees
    · rw [other same]
      exact progress.workers another
  · intro entry member open_
    rcases progress.flying entry member open_ with (sent | queued | ⟨holder, held⟩) | ⟨lost, below, failed⟩
    · exact .inl (.inl sent)
    · exact .inl (.inr (.inl queued))
    · by_cases same : holder = slot
      · subst same
        rcases keeps _ held with still | failed | home
        · exact .inl (.inr (.inr ⟨holder, by rw [self, still]⟩))
        · exact .inr ⟨holder, inRange, by rw [self, failed]⟩
        · exact absurd (home entry member rfl) (by simp [open_])
      · exact .inl (.inr (.inr ⟨holder, by rw [other same, held]⟩))
    · by_cases same : lost = slot
      · subst same
        exact absurd failed alive
      · exact .inr ⟨lost, below, by rw [other same, failed]⟩
  · intro another above
    rw [other (by omega)]
    exact progress.slots another above

theorem inRange {slot : Nat} (busy : matching.workers slot ≠ .waiting) : slot < processes := by
  by_contra above
  exact busy (progress.slots slot (Nat.le_of_not_lt above))

theorem stop (feeding : matching.producer = .feeding) {producer : Producer Id} (drained : producer.isOver = true)
    (all : producer = .ended true → catalog.after matching.lastId = []) :
    Progress catalog found buffer checkpoint processes { matching with producer := producer } popped pending := by
  refine { progress with workers := ?_, sending := ?_, flying := ?_, exhausted := all }
  · intro slot
    have implied (before : matching.channel = [] ∧ matching.producer.isOver = true) :
        matching.channel = [] ∧ producer.isOver = true := ⟨before.1, drained⟩
    exact Worker.Agrees.mono (fun _ member => member) (fun _ member => member) implied (progress.workers slot)
  · intro page sent
    have sent : producer = .sending page := sent
    rw [sent] at drained
    cases drained
  · intro entry member open_
    refine (progress.flying entry member open_).imp_left ?_
    rintro (sent | there)
    · rw [feeding] at sent
      cases sent
    · exact .inr there

theorem feed (feeding : matching.producer = .feeding) {size : Nat} {last : Id}
    (isLast : ((catalog.after matching.lastId).take size).getLast? = some last) :
    let page : Page Id := { index := matching.index, rows := (catalog.after matching.lastId).take size }
    Progress catalog found buffer checkpoint processes
      { matching with
        index := matching.index + 1
        lastId := some last
        producer := .sending page
        tracker := matching.tracker ++ [(page.index, last, false)] }
      popped (pending ++ [(page, last, false)]) := by
  intro page
  have pages : popped ++ (pending ++ [(page, last, false)]).map Prod.fst =
      popped ++ pending.map Prod.fst ++ [page] := by simp
  have notDrained : ¬ (matching.channel = [] ∧ matching.producer.isOver = true) := by
    rw [feeding]
    exact fun drained => Bool.false_ne_true drained.2
  constructor
  · exact progress.base
  · rw [pages, List.flatMap_append, List.flatMap_singleton, List.append_assoc]
    rw [progress.partition, Catalog.after_page isLast]
  · rw [pages, List.map_append, progress.indices, List.range_succ]
    rfl
  · simp [progress.tracker, entryOf]
  · intro entry member
    rcases List.mem_append.mp member with old | new
    · exact progress.lastIds entry old
    · rw [List.mem_singleton.mp new]
      exact isLast
  · exact progress.taken
  · intro entry member isDone
    rcases List.mem_append.mp member with old | new
    · exact progress.done entry old isDone
    · rw [List.mem_singleton.mp new] at isDone
      cases isDone
  · exact progress.saved
  · intro slot
    rw [pages]
    exact Worker.Agrees.mono (fun _ member => member) (fun _ member => List.mem_append_left _ member)
      (fun drained => absurd drained notDrained) (progress.workers slot)
  · intro queued member
    rw [pages]
    exact List.mem_append_left _ (progress.channel queued member)
  · intro sent same
    rw [pages]
    obtain rfl : page = sent := Producer.sending.inj same
    exact List.mem_append_right _ (List.mem_singleton.mpr rfl)
  · intro entry member open_
    rcases List.mem_append.mp member with old | new
    · refine (progress.flying entry old open_).imp_left ?_
      rintro (sent | there)
      · rw [feeding] at sent
        cases sent
      · exact .inr there
    · rw [List.mem_singleton.mp new]
      exact .inl (.inl rfl)
  · intro impossible
    cases impossible
  · exact progress.slots
  · exact progress.positive

section

variable (sending : matching.producer = .sending page)
include sending

theorem send
    :
    Progress catalog found buffer checkpoint processes
      { matching with producer := .feeding, channel := matching.channel ++ [page] } popped pending := by
  refine { progress with workers := ?_, channel := ?_, sending := ?_, flying := ?_, exhausted := ?_ }
  · intro slot
    refine Worker.Agrees.mono (fun _ member => member) (fun _ member => member) (fun drained => ?_)
      (progress.workers slot)
    rw [sending] at drained
    exact absurd drained.2 Bool.false_ne_true
  · intro queued member
    rcases List.mem_append.mp member with old | new
    · exact progress.channel queued old
    · rw [List.mem_singleton.mp new]
      exact progress.sending page sending
  · intro other impossible
    cases impossible
  · intro entry member open_
    refine (progress.flying entry member open_).imp_left ?_
    rintro (sent | queued | held)
    · obtain rfl : page = entry.1 := Producer.sending.inj (sending.symm.trans sent)
      exact .inr (.inl (List.mem_append_right _ (List.mem_singleton.mpr rfl)))
    · exact .inr (.inl (List.mem_append_left _ queued))
    · exact .inr (.inr held)
  · intro impossible
    cases impossible

theorem failed (allOver : matching.allOver processes = true) : matching.workers 0 = .failed := by
  have drained := List.all_eq_true.mp allOver 0 (List.mem_range.mpr progress.positive)
  have agrees := progress.workers 0
  cases first : matching.workers 0 with
  | failed => rfl
  | finished =>
    rw [first] at agrees
    have impossible : matching.producer.isOver = true := agrees.2
    rw [sending] at impossible
    cases impossible
  | _ =>
    rw [first] at drained
    cases drained

theorem sendClosed (allOver : matching.allOver processes = true) :
    Progress catalog found buffer checkpoint processes { matching with producer := .ended false }
      popped pending := by
  have failed := progress.failed sending allOver
  refine { progress with workers := ?_, sending := ?_, flying := ?_, exhausted := ?_ }
  · intro slot
    exact Worker.Agrees.mono (fun _ member => member) (fun _ member => member)
      (fun drained => ⟨drained.1, rfl⟩) (progress.workers slot)
  · intro other impossible
    cases impossible
  · intro entry _ _
    exact .inr ⟨0, progress.positive, failed⟩
  · intro impossible
    cases impossible

end

theorem receive {slot : Nat} (inRange : slot < processes) (waiting : matching.workers slot = .waiting)
    {rest : List (Page Id)} (queued : matching.channel = page :: rest) :
    Progress catalog found buffer checkpoint processes
      ({ matching with channel := rest }.setWorker slot (.matching page)) popped pending := by
  have fed := progress.channel page (by simp [queued])
  have self : (Function.update matching.workers slot (.matching page)) slot = .matching page :=
    Function.update_self _ _ _
  have other {another : Nat} (different : another ≠ slot) :
      (Function.update matching.workers slot (.matching page)) another = matching.workers another :=
    Function.update_of_ne different _ _
  refine { progress with workers := ?_, channel := ?_, flying := ?_, slots := ?_ }
  · intro another
    simp only [Matching.setWorker]
    by_cases same : another = slot
    · rw [same, self]
      exact fed
    · rw [other same]
      refine Worker.Agrees.mono (fun _ member => member) (fun _ member => member) (fun drained => ?_)
        (progress.workers another)
      rw [queued] at drained
      cases drained.1
  · intro later member
    have later_ : later ∈ rest := member
    exact progress.channel later (by simp [queued, later_])
  · intro entry member open_
    rcases progress.flying entry member open_ with (sent | there | ⟨holder, held⟩) | ⟨lost, below, failed⟩
    · exact .inl (.inl sent)
    · rw [queued] at there
      rcases List.mem_cons.mp there with same | later
      · exact .inl (.inr (.inr ⟨slot, by simp only [Matching.setWorker, self]; rw [same]; rfl⟩))
      · exact .inl (.inr (.inl later))
    · refine .inl (.inr (.inr ⟨holder, ?_⟩))
      by_cases same : holder = slot
      · rw [same, waiting] at held
        cases held
      · simp only [Matching.setWorker, other same]
        exact held
    · refine .inr ⟨lost, below, ?_⟩
      by_cases same : lost = slot
      · rw [same, waiting] at failed
        cases failed
      · simp only [Matching.setWorker, other same]
        exact failed
  · intro another above
    simp only [Matching.setWorker]
    rw [other (by omega)]
    exact progress.slots another above

theorem page_unique {first second : Page Id} (member : first ∈ popped ++ pending.map Prod.fst)
    (member' : second ∈ popped ++ pending.map Prod.fst) (same : first.index = second.index) :
    first = second := by
  have distinct : ((popped ++ pending.map Prod.fst).map Page.index).Nodup := by
    rw [progress.indices]
    exact List.nodup_range
  exact List.inj_on_of_nodup_map distinct member member' same

theorem mark (fed : page ∈ popped ++ pending.map Prod.fst) (buffered : Buffered found buffer page.rows) :
    Progress catalog found buffer checkpoint processes
      { matching with tracker := matching.tracker.finish page.index } popped
      (pending.map (markDone page)) := by
  have pages : (pending.map (markDone page)).map Prod.fst = pending.map Prod.fst := by
    rw [List.map_map]
    exact List.map_congr_left fun entry _ => markDone_fst page entry
  constructor
  · exact progress.base
  · rw [pages]
    exact progress.partition
  · rw [pages]
    exact progress.indices
  · simp only [progress.tracker, finish_map]
  · intro entry member
    obtain ⟨before, listed, rfl⟩ := List.mem_map.mp member
    rw [markDone_fst, markDone_lastId]
    exact progress.lastIds before listed
  · exact progress.taken
  · intro entry member isDone
    obtain ⟨before, listed, rfl⟩ := List.mem_map.mp member
    rw [markDone_fst]
    by_cases same : before.1.index = page.index
    · have isPage := progress.page_unique
        (List.mem_append_right _ (List.mem_map_of_mem listed)) fed same
      rw [isPage]
      exact buffered
    · rw [markDone, if_neg same] at isDone
      exact progress.done before listed isDone
  · exact progress.saved
  · intro slot
    rw [pages]
    exact progress.workers slot
  · rw [pages]
    exact progress.channel
  · rw [pages]
    exact progress.sending
  · intro entry member open_
    obtain ⟨before, listed, rfl⟩ := List.mem_map.mp member
    rw [markDone_fst]
    refine progress.flying before listed ?_
    unfold markDone at open_
    split at open_
    next => cases open_
    next => exact open_
  · exact progress.exhausted
  · exact progress.slots
  · exact progress.positive

end

theorem pop {front left : List (Page Id × Id × Bool)}
    (progress : Progress catalog found buffer checkpoint processes matching popped (front ++ left))
    (all : ∀ entry ∈ front, entry.2.2 = true) (idle : ∀ slot, (matching.workers slot).isRecording = false) :
    Progress catalog found buffer checkpoint processes { matching with tracker := left.map entryOf }
      (popped ++ front.map Prod.fst) left := by
  have pages : popped ++ front.map Prod.fst ++ left.map Prod.fst =
      popped ++ (front ++ left).map Prod.fst := by simp
  constructor
  · exact progress.base
  · rw [pages]
    exact progress.partition
  · rw [pages]
    exact progress.indices
  · rfl
  · exact fun entry member => progress.lastIds entry (List.mem_append_right _ member)
  · intro page member
    rcases List.mem_append.mp member with old | new
    · exact progress.taken page old
    · obtain ⟨entry, listed, rfl⟩ := List.mem_map.mp new
      exact progress.done entry (List.mem_append_left _ listed) (all entry listed)
  · exact fun entry member => progress.done entry (List.mem_append_right _ member)
  · refine progress.saved.imp_right ?_
    rintro ⟨page, member, last⟩
    exact ⟨page, List.mem_append_left _ member, last⟩
  · intro slot
    rw [pages]
    have agrees := progress.workers slot
    have quiet := idle slot
    cases at_ : matching.workers slot with
    | recording checkpoint =>
      rw [at_] at quiet
      cases quiet
    | _ =>
      rw [at_] at agrees
      exact agrees
  · rw [pages]
    exact progress.channel
  · rw [pages]
    exact progress.sending
  · exact fun entry member => progress.flying entry (List.mem_append_right _ member)
  · exact progress.exhausted
  · exact progress.slots
  · exact progress.positive

section

variable (progress : Progress catalog found buffer checkpoint processes matching popped pending)
include progress

theorem not_recording (unlocked : matching.unlocked processes = true) (slot : Nat) :
    (matching.workers slot).isRecording = false := by
  by_cases inside : slot < processes
  · simpa using List.all_eq_true.mp unlocked slot (List.mem_range.mpr inside)
  · rw [progress.slots slot (Nat.le_of_not_lt inside)]
    rfl

theorem complete {slot : Nat} (completing : matching.workers slot = .completing page)
    (unlocked : matching.unlocked processes = true) :
    ∃ popped pending, Progress catalog found buffer checkpoint processes
      ({ matching with tracker := (matching.tracker.finish page.index).popDone.2 }.setWorker slot
        ((matching.tracker.finish page.index).popDone.1.elim .waiting .recording)) popped pending := by
  have agrees := progress.workers slot
  rw [completing] at agrees
  have marked := progress.mark agrees.1 agrees.2
  have tracker : matching.tracker.finish page.index = (pending.map (markDone page)).map entryOf :=
    marked.tracker
  obtain ⟨front, left, cut, all, result⟩ := popDone_spec (pending.map (markDone page))
  rw [tracker, result]
  have taken := (cut ▸ marked).pop all (progress.not_recording unlocked)
  refine ⟨popped ++ front.map Prod.fst, left, taken.setWorker ?_ ?_ ?_ ?_⟩
  · exact progress.inRange (by simp [completing])
  · cases last : front.getLast? with
    | none => trivial
    | some entry =>
      have listed : entry ∈ pending.map (markDone page) :=
        cut ▸ List.mem_append_left _ (List.mem_of_getLast? last)
      have isLast := marked.lastIds entry listed
      have ends : (popped ++ front.map Prod.fst).getLast? = some entry.1 := by
        simp [List.getLast?_append, List.getLast?_map, last]
      change (popped ++ front.map Prod.fst).getLast?.bind (fun page => page.rows.getLast?) = some entry.2.1
      rw [ends]
      exact isLast
  · simp [completing]
  · intro held hands
    have same : page = held := by
      simp only [completing, Worker.hands, Option.some.injEq] at hands
      exact hands
    refine .inr (.inr fun entry member isPage => ?_)
    have listed : entry ∈ pending.map (markDone page) := cut ▸ List.mem_append_right _ member
    obtain ⟨before, _, rfl⟩ := List.mem_map.mp listed
    rw [markDone_fst] at isPage
    rw [markDone, if_pos (by rw [isPage, same])]

theorem record {slot : Nat} {last : Id} (recording : matching.workers slot = .recording last) :
    Progress catalog found buffer (some last) processes matching popped pending ∧
      ∀ stored ∈ checkpoint, stored ≤ last := by
  have agrees := progress.workers slot
  rw [recording] at agrees
  obtain ⟨page, isLastPage, isLast⟩ := Option.bind_eq_some_iff.mp agrees
  obtain ⟨earlier, shape⟩ := List.getLast?_eq_some_iff.mp isLastPage
  have taken : page ∈ popped := List.mem_of_getLast? isLastPage
  have inPage : last ∈ page.rows := List.mem_of_getLast? isLast
  refine ⟨{ progress with saved := .inr ⟨page, taken, last, isLast, rfl⟩ }, fun stored isStored => ?_⟩
  rcases progress.saved with same | ⟨other, taken', end_, isLast', same⟩
  · -- The run started from the stored one, and every row fed lies beyond it.
    have fed : last ∈ catalog.after matching.run.checkpoint := by
      rw [progress.partition, List.flatMap_append]
      exact List.mem_append_left _ (List.mem_append_left _ (List.mem_flatMap.mpr ⟨page, taken, inPage⟩))
    exact le_of_lt ((Catalog.mem_after.mp fed).2 stored (same ▸ isStored))
  · obtain rfl : stored = end_ := Option.some.inj (isStored.symm.trans same)
    rw [shape] at taken'
    rcases List.mem_append.mp taken' with before | isLastOne
    · have sorted := progress.rows_sorted
      rw [shape, List.flatMap_append, List.append_assoc] at sorted
      have inOther : stored ∈ earlier.flatMap Page.rows :=
        List.mem_flatMap.mpr ⟨other, before, List.mem_of_getLast? isLast'⟩
      have inLast : last ∈ [page].flatMap Page.rows := by simpa using inPage
      exact le_of_lt ((List.pairwise_append.mp sorted).2.2 stored inOther last (List.mem_append_left _ inLast))
    · obtain rfl : other = page := List.mem_singleton.mp isLastOne
      obtain rfl : stored = last := Option.some.inj (isLast'.symm.trans isLast)
      exact le_refl stored

theorem conclude (exhausted : matching.producer = .ended true) (allOver : matching.allOver processes = true)
    (noneFailed : matching.noneFailed processes = true) : Buffered found buffer catalog.rows := by
  have finished (slot : Nat) (inside : slot < processes) : matching.workers slot = .finished := by
    have drained := List.all_eq_true.mp allOver slot (List.mem_range.mpr inside)
    have lives := List.all_eq_true.mp noneFailed slot (List.mem_range.mpr inside)
    cases at_ : matching.workers slot with
    | finished => rfl
    | failed =>
      rw [at_] at lives
      cases lives
    | _ =>
      rw [at_] at drained
      cases drained
  have drained : matching.channel = [] := by
    have agrees := progress.workers 0
    rw [finished 0 progress.positive] at agrees
    exact agrees.1
  have nothingFlies (page : Page Id) : ¬ matching.Flying page := by
    rintro (sent | queued | ⟨slot, held⟩)
    · rw [exhausted] at sent
      cases sent
    · rw [drained] at queued
      cases queued
    · by_cases inside : slot < processes
      · rw [finished slot inside] at held
        cases held
      · rw [progress.slots slot (Nat.le_of_not_lt inside)] at held
        cases held
  have home : ∀ page ∈ popped ++ pending.map Prod.fst, Buffered found buffer page.rows := by
    intro page member
    rcases List.mem_append.mp member with taken | onTracker
    · exact progress.taken page taken
    · obtain ⟨entry, listed, rfl⟩ := List.mem_map.mp onTracker
      cases open_ : entry.2.2 with
      | true => exact progress.done entry listed open_
      | false =>
        rcases progress.flying entry listed open_ with flies | ⟨slot, below, failed⟩
        · exact absurd flies (nothingFlies _)
        · rw [finished slot below] at failed
          cases failed
  intro row listed aux hit
  by_cases before : ∃ start ∈ matching.run.checkpoint, row ≤ start
  · exact progress.base row listed before aux hit
  · have fed := progress.fed_or_later listed before
    rw [progress.exhausted exhausted, List.append_nil, ← List.flatMap_append] at fed
    obtain ⟨page, member, inPage⟩ := List.mem_flatMap.mp fed
    exact home page member row inPage aux hit

end

end Progress

end Boom.Tasks.Crossmatch
