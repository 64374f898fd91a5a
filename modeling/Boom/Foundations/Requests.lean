import Boom.Foundations.Transition
import Mathlib.Logic.Function.Basic

/-! # Requests over a shared store

Any number of requests run against one store.  Each takes its steps one at a time, and
between two of them any other may run.  A request that is over keeps its slot, so a slot
stands for one request of the whole run.

`Requests.invariant` is the proof rule: an invariant of the store, one of each slot, and
what a step of one slot leaves true of the others. -/

namespace Boom.Foundations

structure Requests (σ ρ : Type) where
  store : σ
  slots : Nat → Option ρ

namespace Requests

variable {σ ρ : Type}

def put (system : Requests σ ρ) (slot : Nat) (store : σ) (request : ρ) : Requests σ ρ where
  store := store
  slots := Function.update system.slots slot (some request)

@[simp] theorem put_store (system : Requests σ ρ) (slot : Nat) (store : σ) (request : ρ) :
    (system.put slot store request).store = store := rfl

@[simp] theorem put_slots_self (system : Requests σ ρ) (slot : Nat) (store : σ) (request : ρ) :
    (system.put slot store request).slots slot = some request := by
  simp [put]

theorem put_slots_ne (system : Requests σ ρ) {slot other : Nat} (differs : other ≠ slot) (store : σ) (request : ρ) :
    (system.put slot store request).slots other = system.slots other := by
  simp [put, differs]

variable {system : Requests σ ρ}

theorem has_put {p : ρ → Prop} {out : Prop} {slot other : Nat} {request after : ρ} (store : σ)
    (running : system.slots slot = some request) (passes : p request → p after ∨ out)
    (held : ∃ held, system.slots other = some held ∧ p held) :
    (∃ held, (system.put slot store after).slots other = some held ∧ p held) ∨ out := by
  obtain ⟨held, isHeld, has⟩ := held
  by_cases same : other = slot
  · subst same
    obtain rfl := Option.some.inj (running.symm.trans isHeld)
    rcases passes has with still | left
    · exact .inl ⟨after, put_slots_self _ _ _ _, still⟩
    · exact .inr left
  · exact .inl ⟨held, by rw [put_slots_ne _ same, isHeld], has⟩

structure Rules (σ ρ : Type) where
  starts : Nat → σ → ρ → Prop
  acts : Nat → σ → ρ → σ → ρ → Prop
  outside : σ → σ → Prop

inductive Step (rules : Rules σ ρ) : Requests σ ρ → Requests σ ρ → Prop where
  | start {system : Requests σ ρ} {slot : Nat} {request : ρ} : system.slots slot = none →
      rules.starts slot system.store request → Step rules system (system.put slot system.store request)
  | act {system : Requests σ ρ} {slot : Nat} {request after : ρ} {store : σ} :
      system.slots slot = some request → rules.acts slot system.store request store after →
      Step rules system (system.put slot store after)
  | outside {system : Requests σ ρ} {store : σ} : rules.outside system.store store →
      Step rules system { system with store := store }

def Fresh (init : σ → Prop) (system : Requests σ ρ) : Prop :=
  init system.store ∧ ∀ slot, system.slots slot = none

def Run (rules : Rules σ ρ) (init : σ → Prop) : Requests σ ρ → Prop :=
  Reachable (Fresh init) (Step rules)

structure Kept (rules : Rules σ ρ) (inv : σ → Prop) (own : Nat → σ → Option ρ → Prop) : Prop where
  starts : ∀ slot store request, inv store → own slot store none → rules.starts slot store request →
    own slot store (some request)
  acts : ∀ slot store request store' after, inv store → own slot store (some request) →
    rules.acts slot store request store' after → inv store' ∧ own slot store' (some after)
  others : ∀ slot store request store' after, inv store → own slot store (some request) →
    rules.acts slot store request store' after → ∀ other bystander, other ≠ slot →
      own other store bystander → own other store' bystander
  outside : ∀ store store', inv store → rules.outside store store' →
    inv store' ∧ ∀ slot request, own slot store request → own slot store' request

structure Holds (inv : σ → Prop) (own : Nat → σ → Option ρ → Prop) (system : Requests σ ρ) : Prop where
  store : inv system.store
  slots : ∀ slot, own slot system.store (system.slots slot)

variable {rules : Rules σ ρ} {inv : σ → Prop} {own : Nat → σ → Option ρ → Prop}

theorem Holds.step (kept : Kept rules inv own) {system after : Requests σ ρ} (holds : Holds inv own system)
    (taken : Step rules system after) : Holds inv own after := by
  cases taken with
  | @start slot request free may =>
    have idle := holds.slots slot
    rw [free] at idle
    refine ⟨holds.store, fun other => ?_⟩
    by_cases same : other = slot
    · subst same
      simpa using kept.starts _ _ _ holds.store idle may
    · rw [put_slots_ne _ same]
      exact holds.slots other
  | @act slot request request' store running acted =>
    have before := holds.slots slot
    rw [running] at before
    obtain ⟨keeps, ownAfter⟩ := kept.acts _ _ _ _ _ holds.store before acted
    refine ⟨keeps, fun other => ?_⟩
    by_cases same : other = slot
    · subst same
      simpa using ownAfter
    · rw [put_slots_ne _ same]
      exact kept.others _ _ _ _ _ holds.store before acted other _ same (holds.slots other)
  | outside moved =>
    obtain ⟨keeps, owns⟩ := kept.outside _ _ holds.store moved
    exact ⟨keeps, fun slot => owns _ _ (holds.slots slot)⟩

variable {init : σ → Prop}

theorem invariant (kept : Kept rules inv own)
    (initially : ∀ store, init store → inv store ∧ ∀ slot, own slot store none)
    (run : Run rules init system) : Holds inv own system := by
  refine Reachable.invariant (Holds inv own) ?_ ?_ run
  · rintro state ⟨initial, idle⟩
    obtain ⟨keeps, owns⟩ := initially _ initial
    refine ⟨keeps, fun slot => ?_⟩
    rw [idle slot]
    exact owns slot
  · exact fun state after _ holds taken => holds.step kept taken

/-! ## Building runs -/

theorem Run.start (run : Run rules init system) (slot : Nat) (request : ρ)
    (free : system.slots slot = none) (may : rules.starts slot system.store request) :
    Run rules init (system.put slot system.store request) :=
  .next run (.start free may)

theorem Run.act (run : Run rules init system) {slot : Nat}
    {request after : ρ} {store : σ} (running : system.slots slot = some request)
    (acted : rules.acts slot system.store request store after) : Run rules init (system.put slot store after) :=
  .next run (.act running acted)

def proceed (turn : Nat → σ → ρ → Option (σ × ρ)) (system : Requests σ ρ) (slot : Nat) : Requests σ ρ :=
  match (system.slots slot).bind (turn slot system.store) with
  | some (store, after) => system.put slot store after
  | none => system

def schedule (turn : Nat → σ → ρ → Option (σ × ρ)) (system : Requests σ ρ) (slots : List Nat) : Requests σ ρ :=
  slots.foldl (proceed turn) system

theorem schedule_slots_of_notMem (turn : Nat → σ → ρ → Option (σ × ρ)) (system : Requests σ ρ) (slots : List Nat) {other : Nat}
    (absent : other ∉ slots) : (system.schedule turn slots).slots other = system.slots other := by
  induction slots generalizing system with
  | nil => rfl
  | cons slot rest ih =>
    obtain ⟨differs, absent⟩ : other ≠ slot ∧ other ∉ rest := by simpa using absent
    refine (ih (proceed turn system slot) absent).trans ?_
    unfold proceed
    split
    · exact put_slots_ne system differs _ _
    · rfl

theorem Run.schedule {turn : Nat → σ → ρ → Option (σ × ρ)}
    (allowed : ∀ slot store request store' after, turn slot store request = some (store', after) →
      rules.acts slot store request store' after) (run : Run rules init system) (slots : List Nat) :
    Run rules init (system.schedule turn slots) := by
  induction slots generalizing system with
  | nil => exact run
  | cons slot rest ih =>
    apply ih
    unfold proceed
    split
    next store after found =>
      obtain ⟨request, running, turned⟩ := Option.bind_eq_some_iff.mp found
      exact run.act running (allowed _ _ _ _ _ turned)
    next => exact run

end Requests

end Boom.Foundations
