import Boom.Foundations.Recent
import Boom.Foundations.Transition
import Mathlib.Algebra.Order.Group.Nat

/-! # The worker supervisor

A tick looks at every slot of a pool on its own.  A slot whose worker is dead is respawned once
its backoff is over, unless the respawns within the window have used up its budget: it is then
given up, which is taken back only where its worker is alive.

A slot that was given up is dead, and no tick respawns it: it stays dead for good.  At every other
tick a dead slot is respawned when it is due. -/

namespace Boom.Scheduler

open Foundations

abbrev Instant := Nat

def secs (count : Nat) : Nat := count * 1000000000

def MAX_RESTARTS_PER_WINDOW : Nat := 5
def RESTART_WINDOW : Nat := secs 300
def RESTART_BACKOFF_BASE : Nat := secs 1
def RESTART_BACKOFF_MAX : Nat := secs 30

def restartBackoff (priorRestarts : Nat) : Nat :=
  let shift := min priorRestarts 5
  min (RESTART_BACKOFF_BASE * (1 <<< shift)) RESTART_BACKOFF_MAX

structure RestartState where
  history : List Instant
  nextEligible : Instant
  givenUp : Bool
deriving DecidableEq

def RestartState.new (now : Instant) : RestartState := { history := [], nextEligible := now, givenUp := false }

/-- A worker and its bookkeeping. -/
structure Slot where
  alive : Bool
  restart : RestartState
deriving DecidableEq

/-- What a tick makes of a slot. -/
inductive Outcome where
  | running
  | waiting
  | exhausted
  | respawned
deriving DecidableEq, Repr

def RestartState.expire (state : RestartState) (now : Instant) : RestartState :=
  { state with history := state.history.dropWhile (· + RESTART_WINDOW < now) }

def superviseSlot (now : Instant) (slot : Slot) : Slot × Outcome :=
  let state := slot.restart.expire now
  if slot.alive then
    ({ slot with restart := if state.history.isEmpty then { state with givenUp := false } else state }, .running)
  else if state.givenUp || now < state.nextEligible then ({ slot with restart := state }, .waiting)
  else if MAX_RESTARTS_PER_WINDOW ≤ state.history.length then
    ({ slot with restart := { state with givenUp := true } }, .exhausted)
  else
    let backoff := restartBackoff state.history.length
    ({ alive := true
       restart := { state with history := state.history ++ [now], nextEligible := now + backoff } }, .respawned)

/-! ## Runs -/

structure Watched where
  slot : Slot
  respawns : List Instant

structure ThreadPool where
  clock : Instant
  workers : List Watched

structure Started (pool : ThreadPool) : Prop where
  fresh : ∀ watched ∈ pool.workers, ∃ made ≤ pool.clock,
    watched = { slot := { alive := true, restart := .new made }, respawns := [] }

def Watched.die (watched : Watched) : Watched :=
  { watched with slot := { watched.slot with alive := false } }

def Watched.supervise (now : Instant) (watched : Watched) : Watched :=
  match superviseSlot now watched.slot with
  | (slot, .respawned) => { slot, respawns := now :: watched.respawns }
  | (slot, _) => { watched with slot }

inductive Step : ThreadPool → ThreadPool → Prop
  /-- The worker of a slot ends. -/
  | dies (pool : ThreadPool) (index : Nat) : Step pool { pool with workers := pool.workers.modify index .die }
  | tick (pool : ThreadPool) (now : Instant) (later : pool.clock ≤ now) :
      Step pool { clock := now, workers := pool.workers.map (.supervise now) }

/-! ## What the respawns say -/

def BackoffElapsed (now : Instant) : List Instant → Prop
  | [] => True
  | last :: earlier => last + restartBackoff (recent RESTART_WINDOW last earlier).length ≤ now

instance (now : Instant) (respawns : List Instant) : Decidable (BackoffElapsed now respawns) :=
  match respawns with
  | [] => inferInstanceAs (Decidable True)
  | _ :: _ => inferInstanceAs (Decidable (_ ≤ _))

structure Kept (clock : Instant) (watched : Watched) : Prop where
  limited : Limited MAX_RESTARTS_PER_WINDOW RESTART_WINDOW watched.respawns
  past : ∀ time ∈ watched.respawns, time ≤ clock
  history : ∃ seen ≤ clock, watched.slot.restart.history = (recent RESTART_WINDOW seen watched.respawns).reverse
  eligible : ∀ now, clock ≤ now → (watched.slot.restart.nextEligible ≤ now ↔ BackoffElapsed now watched.respawns)
  dead : watched.slot.restart.givenUp = true → watched.slot.alive = false ∧ watched.slot.restart.nextEligible ≤ clock

section

variable {clock now : Instant} {watched : Watched}

theorem Kept.expired (kept : Kept clock watched) (later : clock ≤ now) :
    (watched.slot.restart.expire now).history = (recent RESTART_WINDOW now watched.respawns).reverse := by
  obtain ⟨seen, before, history⟩ := kept.history
  have sorted : (recent RESTART_WINDOW seen watched.respawns).reverse.Pairwise (· ≤ ·) :=
    List.pairwise_reverse.mpr (kept.limited.sorted.filter _)
  rw [RestartState.expire, history, dropWhile_eq_recent sorted, recent, List.filter_reverse]
  exact congrArg List.reverse (recent_recent (before.trans later))

/-! ## The branches of a tick -/

theorem supervise_running (alive : watched.slot.alive = true) :
    superviseSlot now watched.slot =
      ({ watched.slot with
          restart := { watched.slot.restart.expire now with
            givenUp := watched.slot.restart.givenUp && !(watched.slot.restart.expire now).history.isEmpty } },
        .running) := by
  rw [superviseSlot, if_pos alive]
  cases (watched.slot.restart.expire now).history.isEmpty with
  | true => simp
  | false => simp [RestartState.expire]

section

variable (dead : watched.slot.alive = false)
include dead

theorem supervise_waiting (waits : watched.slot.restart.givenUp = true ∨ now < watched.slot.restart.nextEligible) :
    superviseSlot now watched.slot = ({ watched.slot with restart := watched.slot.restart.expire now }, .waiting) := by
  rw [superviseSlot, if_neg (by simp [dead]), if_pos (by rwa [Bool.or_eq_true, decide_eq_true_eq])]

variable (hopeful : watched.slot.restart.givenUp = false) (eligible : watched.slot.restart.nextEligible ≤ now)
include hopeful eligible

theorem supervise_exhausted (spent : MAX_RESTARTS_PER_WINDOW ≤ (watched.slot.restart.expire now).history.length) :
    superviseSlot now watched.slot =
      ({ watched.slot with restart := { watched.slot.restart.expire now with givenUp := true } }, .exhausted) := by
  rw [superviseSlot, if_neg (by simp [dead]), if_neg (by simp [RestartState.expire, hopeful, eligible]), if_pos spent]

theorem supervise_respawned (few : (watched.slot.restart.expire now).history.length < MAX_RESTARTS_PER_WINDOW) :
    superviseSlot now watched.slot =
      ({ alive := true
         restart := { watched.slot.restart.expire now with
           history := (watched.slot.restart.expire now).history ++ [now]
           nextEligible := now + restartBackoff (watched.slot.restart.expire now).history.length } }, .respawned) := by
  rw [superviseSlot, if_neg (by simp [dead]), if_neg (by simp [RestartState.expire, hopeful, eligible]),
    if_neg (Nat.not_le.mpr few)]

end

/-- The state of a slot before a tick tells which branch it takes. -/
inductive Branch (now : Instant) (watched : Watched) : Prop
  | running (alive : watched.slot.alive = true)
  | waiting (dead : watched.slot.alive = false)
      (waits : watched.slot.restart.givenUp = true ∨ now < watched.slot.restart.nextEligible)
  | exhausted (dead : watched.slot.alive = false) (hopeful : watched.slot.restart.givenUp = false)
      (eligible : watched.slot.restart.nextEligible ≤ now)
      (spent : MAX_RESTARTS_PER_WINDOW ≤ (watched.slot.restart.expire now).history.length)
  | respawned (dead : watched.slot.alive = false) (hopeful : watched.slot.restart.givenUp = false)
      (eligible : watched.slot.restart.nextEligible ≤ now)
      (few : (watched.slot.restart.expire now).history.length < MAX_RESTARTS_PER_WINDOW)

theorem branch (now : Instant) (watched : Watched) : Branch now watched := by
  cases alive : watched.slot.alive with
  | true => exact .running alive
  | false =>
    by_cases waits : watched.slot.restart.givenUp = true ∨ now < watched.slot.restart.nextEligible
    · exact .waiting alive waits
    · rw [not_or, Bool.not_eq_true, Nat.not_lt] at waits
      rcases Nat.lt_or_ge (watched.slot.restart.expire now).history.length MAX_RESTARTS_PER_WINDOW with few | spent
      · exact .respawned alive waits.1 waits.2 few
      · exact .exhausted alive waits.1 waits.2 spent

theorem Kept.die (kept : Kept clock watched) : Kept clock watched.die where
  limited := kept.limited
  past := kept.past
  history := kept.history
  eligible := kept.eligible
  dead gaveUp := ⟨rfl, (kept.dead gaveUp).2⟩

theorem Kept.wait (kept : Kept clock watched) (later : clock ≤ now) (givenUp : Bool)
    (dead : givenUp = true → watched.slot.alive = false ∧ watched.slot.restart.nextEligible ≤ now) :
    Kept now { watched with slot.restart := { watched.slot.restart.expire now with givenUp } } where
  limited := kept.limited
  past time there := (kept.past time there).trans later
  history := ⟨now, le_rfl, kept.expired later⟩
  eligible after latest := kept.eligible after (later.trans latest)
  dead := dead

theorem Kept.supervise (kept : Kept clock watched) (later : clock ≤ now) : Kept now (watched.supervise now) := by
  unfold Watched.supervise
  cases branch now watched with
  | running alive =>
    rw [supervise_running alive]
    refine kept.wait later _ fun gaveUp => ?_
    rw [Bool.and_eq_true] at gaveUp
    exact absurd (kept.dead gaveUp.1).1 (by simp [alive])
  | waiting dead waits =>
    rw [supervise_waiting dead waits]
    exact kept.wait later watched.slot.restart.givenUp fun gaveUp => ⟨dead, (kept.dead gaveUp).2.trans later⟩
  | exhausted dead hopeful eligible spent =>
    rw [supervise_exhausted dead hopeful eligible spent]
    exact kept.wait later true fun _ => ⟨dead, eligible⟩
  | respawned dead hopeful eligible few =>
    rw [supervise_respawned dead hopeful eligible few]
    have history := kept.expired later
    have counted := congrArg List.length history
    rw [List.length_reverse] at counted
    rw [counted] at few
    refine ⟨⟨fun time there => (kept.past time there).trans later, few, kept.limited⟩, ?_, ⟨now, le_rfl, ?_⟩,
      fun _ _ => ?_, fun gaveUp => absurd (hopeful.symm.trans gaveUp) nofun⟩
    · intro time there
      cases there with
      | head => exact le_rfl
      | tail _ there => exact (kept.past time there).trans later
    · have reached : decide (now ≤ now + RESTART_WINDOW) = true := decide_eq_true (Nat.le_add_right _ _)
      dsimp only
      rw [history, recent, recent, List.filter_cons, if_pos reached, List.reverse_cons]
    · dsimp only
      rw [counted]
      exact Iff.rfl

theorem kept_of_started {pool : ThreadPool} (started : Started pool) :
    ∀ watched ∈ pool.workers, Kept pool.clock watched := by
  intro watched there
  obtain ⟨made, before, rfl⟩ := started.fresh watched there
  exact ⟨trivial, nofun, ⟨pool.clock, le_rfl, rfl⟩, fun now later => iff_true_intro (before.trans later), nofun⟩

theorem kept_of_reachable {pool : ThreadPool} (reached : Reachable Started Step pool) :
    ∀ watched ∈ pool.workers, Kept pool.clock watched := by
  refine reached.invariant _ (fun _ => kept_of_started) fun pool after _ kept step => ?_
  cases step with
  | dies index =>
    intro watched there
    obtain ⟨place, isPlace⟩ := List.mem_iff_getElem?.mp there
    rw [List.getElem?_modify] at isPlace
    obtain ⟨before, isBefore, rfl⟩ := Option.map_eq_some_iff.mp isPlace
    have keptBefore := kept before (List.mem_of_getElem? isBefore)
    split
    · exact keptBefore.die
    · exact keptBefore
  | tick now later =>
    intro watched there
    obtain ⟨before, isBefore, rfl⟩ := List.mem_map.mp there
    exact (kept before isBefore).supervise later

/-! ## When a slot is respawned -/

def Respawned (now : Instant) (watched : Watched) : Prop :=
  (superviseSlot now watched.slot).2 = .respawned

instance (now : Instant) (watched : Watched) : Decidable (Respawned now watched) :=
  inferInstanceAs (Decidable (_ = _))

structure Due (now : Instant) (watched : Watched) : Prop where
  dead : watched.slot.alive = false
  elapsed : BackoffElapsed now watched.respawns
  budget : (recent RESTART_WINDOW now watched.respawns).length < MAX_RESTARTS_PER_WINDOW

theorem respawned_iff (kept : Kept clock watched) (later : clock ≤ now) :
    Respawned now watched ↔ Due now watched ∧ watched.slot.restart.givenUp = false := by
  have elapsed := kept.eligible now later
  have counted := congrArg List.length (kept.expired later)
  rw [List.length_reverse] at counted
  unfold Respawned
  cases branch now watched with
  | running alive =>
    rw [supervise_running alive]
    exact iff_of_false nofun fun both => absurd both.1.dead (by simp [alive])
  | waiting dead waits =>
    rw [supervise_waiting dead waits]
    refine iff_of_false nofun fun ⟨due, hopeful⟩ => ?_
    rcases waits with gaveUp | early
    · exact absurd (hopeful.symm.trans gaveUp) nofun
    · exact absurd (elapsed.mpr due.elapsed) (Nat.not_le.mpr early)
  | exhausted dead hopeful eligible spent =>
    rw [supervise_exhausted dead hopeful eligible spent]
    rw [counted] at spent
    exact iff_of_false nofun fun both => absurd both.1.budget (Nat.not_lt.mpr spent)
  | respawned dead hopeful eligible few =>
    rw [supervise_respawned dead hopeful eligible few]
    rw [counted] at few
    exact iff_of_true rfl ⟨⟨dead, elapsed.mp eligible, few⟩, hopeful⟩

end

structure RespawnsWithin (now : Instant) (watched : Watched) : Prop where
  budget : ∀ start, (watched.respawns.filter fun time => start ≤ time ∧ time ≤ start + RESTART_WINDOW).length ≤
    MAX_RESTARTS_PER_WINDOW
  backoff : Respawned now watched → BackoffElapsed now watched.respawns
  due : Due now watched → Respawned now watched

def Cleared (now : Instant) (watched : Watched) : Prop :=
  watched.slot.restart.givenUp = true ∧
    (recent RESTART_WINDOW now watched.respawns).length < MAX_RESTARTS_PER_WINDOW

/-- Whatever the deaths and the times of the ticks before, the next tick keeps to the rules but at a
    slot that it should take up again. -/
theorem respawns_within_iff {pool : ThreadPool} (reached : Reachable Started Step pool) {now : Instant}
    (later : pool.clock ≤ now) {watched : Watched} (there : watched ∈ pool.workers) :
    RespawnsWithin now watched ↔ ¬ Cleared now watched := by
  have kept := kept_of_reachable reached watched there
  constructor
  · rintro within ⟨gaveUp, few⟩
    obtain ⟨dead, eligible⟩ := kept.dead gaveUp
    have due : Due now watched := ⟨dead, (kept.eligible now later).mp (eligible.trans later), few⟩
    have hopeful := ((respawned_iff kept later).mp (within.due due)).2
    cases hopeful.symm.trans gaveUp
  · intro uncleared
    refine ⟨kept.limited.length_window_le, fun respawned => ((respawned_iff kept later).mp respawned).1.elapsed,
      fun due => (respawned_iff kept later).mpr ⟨due, ?_⟩⟩
    rw [← Bool.not_eq_true]
    exact fun gaveUp => uncleared ⟨gaveUp, due.budget⟩

/-! ## A slot that was given up -/

section

variable {clock now : Instant} {watched : Watched}

/-! ## One slot that crashes at once each time -/

def single (clock : Instant) (watched : Watched) : ThreadPool := { clock, workers := [watched] }

def Watched.crash (watched : Watched) (now : Instant) : Watched := watched.die.supervise now

theorem reached_crash (reached : Reachable Started Step (single clock watched)) (later : clock ≤ now) :
    Reachable Started Step (single now (watched.crash now)) :=
  .next (.next reached (.dies _ 0)) (.tick _ now later)

end

def fresh : Watched := { slot := { alive := true, restart := .new 0 }, respawns := [] }

def gaveUpOnce : Watched := [secs 0, secs 1, secs 3, secs 7, secs 15, secs 31].foldl .crash fresh

theorem reached_gaveUpOnce : Reachable Started Step (single (secs 31) gaveUpOnce) := by
  have started : Reachable Started Step (single 0 fresh) := .start ⟨fun watched there => ⟨0, le_rfl, by
    rw [List.mem_singleton.mp there]
    rfl⟩⟩
  have first := reached_crash started (by decide : 0 ≤ secs 0)
  have second := reached_crash first (by decide : secs 0 ≤ secs 1)
  have third := reached_crash second (by decide : secs 1 ≤ secs 3)
  have fourth := reached_crash third (by decide : secs 3 ≤ secs 7)
  have fifth := reached_crash fourth (by decide : secs 7 ≤ secs 15)
  exact reached_crash fifth (by decide : secs 15 ≤ secs 31)

theorem respawns_within_gaveUpOnce : RespawnsWithin (secs 200) gaveUpOnce := by
  refine (respawns_within_iff reached_gaveUpOnce (by decide) (List.mem_singleton.mpr rfl)).mpr fun cleared => ?_
  exact absurd cleared.2 (by decide)

/-- Its history has cleared, and it is left dead. -/
theorem left_dead_when_cleared : ¬ ∀ pool, Reachable Started Step pool → ∀ now, pool.clock ≤ now →
    ∀ watched ∈ pool.workers, RespawnsWithin now watched := by
  intro always
  have within := always _ reached_gaveUpOnce (secs 1000) (by decide) gaveUpOnce (List.mem_singleton.mpr rfl)
  have due : Due (secs 1000) gaveUpOnce := ⟨by decide, by decide, by decide⟩
  exact absurd (within.due due) (by decide)

end Boom.Scheduler
