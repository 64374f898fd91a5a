import Boom.Foundations.Transition
import Mathlib.Data.Option.Basic
import Mathlib.Data.Int.Order.Basic

/-! # The tracks lock

One document says who may write tracks and until when.  Taking the lock, renewing it
and releasing it are single updates of that document, judged by the server's clock. -/

namespace Boom.Utils

open Boom.Foundations

/-! ## Operations -/

def lockLease : Int := 15 * 60 * 1000

structure LockDocument where
  owner : Option String
  expiresAt : Option Int
deriving DecidableEq, Repr

def LockDocument.free (document : LockDocument) (now : Int) : Bool :=
  document.expiresAt.all (· < now)

def acquireUpdate (owner : String) (now : Int) (found : Option LockDocument) : LockDocument :=
  let document := found.getD ⟨none, none⟩
  let free := document.free now
  { owner := if free then some owner else document.owner
    expiresAt := if free then some (now + lockLease) else document.expiresAt }

def acquireLock (owner : String) (now : Int) (found : Option LockDocument) : Bool × Option LockDocument :=
  let after := acquireUpdate owner now found
  (after.owner == some owner, some after)

def LockDocument.ownedBy (document : LockDocument) (owner : String) : Bool :=
  document.owner == some owner

def renewLock (owner : String) (now : Int) (found : Option LockDocument) : Bool × Option LockDocument :=
  (found.any (·.ownedBy owner), found.map fun document =>
    if document.ownedBy owner then { document with expiresAt := some (now + lockLease) } else document)

def releaseLock (owner : String) (found : Option LockDocument) : Option LockDocument :=
  found.filter fun document => !document.ownedBy owner

def lockIsHeld (now : Int) (found : Option LockDocument) : Bool :=
  found.any fun document => document.expiresAt.any (now ≤ ·)

variable {owner : String} {found : Option LockDocument}

theorem acquireLock_free {now : Int} (free : lockIsHeld now found = false) :
    acquireLock owner now found = (true, some ⟨some owner, some (now + lockLease)⟩) := by
  have isFree : (found.getD ⟨none, none⟩).free now = true := by
    cases found with
    | none => rfl
    | some document =>
      simp only [lockIsHeld, Option.any_some] at free
      cases held : document.expiresAt with
      | none => simp [LockDocument.free, held]
      | some lease => simpa [LockDocument.free, held] using free
  simp [acquireLock, acquireUpdate, isFree]

theorem acquireLock_held {now : Int} (held : lockIsHeld now found = true) :
    acquireLock owner now found = (found.any (·.ownedBy owner), found) := by
  obtain ⟨document, rfl, leased⟩ := (Option.any_eq_true _ _).mp held
  obtain ⟨lease, isLease, live⟩ : ∃ lease, document.expiresAt = some lease ∧ now ≤ lease := by
    cases isLease : document.expiresAt with
    | none => simp [isLease] at leased
    | some lease => exact ⟨lease, rfl, by simpa [isLease] using leased⟩
  have notFree : document.free now = false := by
    simpa [LockDocument.free, isLease] using live
  simp [acquireLock, acquireUpdate, notFree, LockDocument.ownedBy]

/-! ## Runs and their locks -/

structure Locks where
  now : Int
  document : Option LockDocument
  /-- Owner ids in use, of runs and of the document there was at first. -/
  owners : List String
  /-- The runs that took the lock, the last one first. -/
  acquired : List String
  /-- The runs that were handed a lock and have not released it. -/
  holders : List String

inductive Locks.Action where
  | tick (later : Int)
  /-- A run wants the lock.  It may die before it learns that it has it. -/
  | acquire (owner : String) (answered : Bool)
  | renew (owner : String)
  | release (owner : String)
  | check

namespace Locks

def Allows (state : Locks) : Action → Prop
  | .tick later => state.now ≤ later
  | .acquire owner _ => owner ∉ state.owners
  | .renew owner | .release owner => owner ∈ state.acquired
  | .check => True

def apply (state : Locks) : Action → Locks
  | .tick later => { state with now := later }
  | .acquire owner answered =>
    let (granted, after) := acquireLock owner state.now state.document
    { state with
      document := after
      owners := owner :: state.owners
      acquired := if granted then owner :: state.acquired else state.acquired
      holders := if granted && answered then owner :: state.holders else state.holders }
  | .renew owner => { state with document := (renewLock owner state.now state.document).2 }
  | .release owner =>
    { state with
      document := releaseLock owner state.document
      holders := state.holders.filter (· ≠ owner) }
  | .check => state

structure Start (state : Locks) : Prop where
  unleased : ∀ document, state.document = some document → document.expiresAt = none
  owners : ∀ document owner, state.document = some document → document.owner = some owner →
    owner ∈ state.owners
  acquired : state.acquired = []
  holders : state.holders = []

def Step (state after : Locks) : Prop :=
  ∃ action, state.Allows action ∧ after = state.apply action

abbrev Run (state : Locks) : Prop :=
  Reachable Start Step state

/-! ## What holds in every run -/

/-- The owner of a lease is the last run that took the lock. -/
structure Sound (state : Locks) : Prop where
  owners : ∀ document owner, state.document = some document → document.owner = some owner →
    owner ∈ state.owners
  known : ∀ owner ∈ state.acquired, owner ∈ state.owners
  held : ∀ owner ∈ state.holders, owner ∈ state.acquired
  leased : ∀ document lease, state.document = some document → document.expiresAt = some lease →
    ∃ owner, document.owner = some owner ∧ state.acquired.head? = some owner
  bounded : ∀ document lease, state.document = some document → document.expiresAt = some lease →
    lease ≤ state.now + lockLease
  unleased : ∀ document owner, state.document = some document → document.expiresAt = none →
    owner ∈ state.acquired → document.owner ≠ some owner

variable {state : Locks}

theorem Sound.last (sound : Sound state) {document : LockDocument}
    (stored : state.document = some document) (taken : owner ∈ state.acquired)
    (named : document.owner = some owner) : state.acquired.head? = some owner := by
  cases isLease : document.expiresAt with
  | none => exact absurd named (sound.unleased document owner stored isLease taken)
  | some lease =>
    obtain ⟨last, named', isLast⟩ := sound.leased document lease stored isLease
    rw [named] at named'
    exact Option.some.inj named' ▸ isLast

theorem sound_step (sound : Sound state) {action : Action} (allowed : state.Allows action) :
    Sound (state.apply action) := by
  cases action with
  | tick later =>
    have later : state.now ≤ later := allowed
    refine ⟨sound.owners, sound.known, sound.held, sound.leased, fun document lease stored isLease => ?_,
      sound.unleased⟩
    have bounded := sound.bounded document lease stored isLease
    simp only [apply]
    omega
  | check => exact sound
  | acquire owner answered =>
    cases held : lockIsHeld state.now state.document with
    | true =>
      -- An owner is new, so a document that is held does not name it.
      have refused : (state.document.any (·.ownedBy owner)) = false := by
        by_contra named
        obtain ⟨document, stored, isOwner⟩ := (Option.any_eq_true _ _).mp (Bool.of_not_eq_false named)
        exact allowed (sound.owners document owner stored (beq_iff_eq.mp isOwner))
      simp only [apply, acquireLock_held held, refused, Bool.false_and]
      exact ⟨fun document named stored isNamed => List.mem_cons_of_mem _ (sound.owners _ _ stored isNamed),
        fun named taken => List.mem_cons_of_mem _ (sound.known _ taken), sound.held, sound.leased,
        sound.bounded, sound.unleased⟩
    | false =>
      have sameDocument {document : LockDocument}
          (stored : (state.apply (.acquire owner answered)).document = some document) :
          document = ⟨some owner, some (state.now + lockLease)⟩ := by
        simp only [apply, acquireLock_free held] at stored
        exact (Option.some.inj stored).symm
      refine ⟨fun document named stored isNamed => ?_, fun named taken => ?_, fun named isHolder => ?_,
        fun document lease stored _ => ?_, fun document lease stored isLease => ?_,
        fun document named stored unleased => ?_⟩
      · rw [sameDocument stored] at isNamed
        simp [apply, Option.some.inj isNamed]
      · simp only [apply, acquireLock_free held, if_true] at taken ⊢
        exact (List.mem_cons.mp taken).elim (fun same => by simp [same])
          fun old => List.mem_cons_of_mem _ (sound.known _ old)
      · simp only [apply, acquireLock_free held, if_true, Bool.true_and] at isHolder ⊢
        split at isHolder
        · exact (List.mem_cons.mp isHolder).elim (fun same => by simp [same])
            fun old => List.mem_cons_of_mem _ (sound.held _ old)
        · exact List.mem_cons_of_mem _ (sound.held _ isHolder)
      · exact ⟨owner, by rw [sameDocument stored], by simp [apply, acquireLock_free held]⟩
      · rw [sameDocument stored] at isLease
        exact Int.le_of_eq (Option.some.inj isLease).symm
      · rw [sameDocument stored] at unleased
        cases unleased
  | renew owner =>
    have taken : owner ∈ state.acquired := allowed
    -- A renewal changes no owner, and only its own lease.
    have found {document : LockDocument} (stored : (state.apply (.renew owner)).document = some document) :
        ∃ before, state.document = some before ∧ document.owner = before.owner ∧
          ((before.owner = some owner ∧ document.expiresAt = some (state.now + lockLease)) ∨
            document.expiresAt = before.expiresAt) := by
      obtain ⟨before, isBefore, rfl⟩ := Option.map_eq_some_iff.mp stored
      refine ⟨before, isBefore, ?_⟩
      split
      next mine => exact ⟨rfl, .inl ⟨beq_iff_eq.mp mine, rfl⟩⟩
      next => exact ⟨rfl, .inr rfl⟩
    refine ⟨fun document named stored isNamed => ?_, sound.known, sound.held, fun document lease stored isLease => ?_,
      fun document lease stored isLease => ?_, fun document named stored unleased isTaken => ?_⟩
    all_goals obtain ⟨before, isBefore, sameOwner, renewed⟩ := found stored
    · exact sound.owners before named isBefore (sameOwner ▸ isNamed)
    · rcases renewed with ⟨mine, _⟩ | same
      · exact ⟨owner, sameOwner.trans mine, sound.last isBefore taken mine⟩
      · rw [sameOwner]
        exact sound.leased before lease isBefore (same ▸ isLease)
    · rcases renewed with ⟨_, extended⟩ | same
      · rw [extended] at isLease
        exact Int.le_of_eq (Option.some.inj isLease).symm
      · exact sound.bounded before lease isBefore (same ▸ isLease)
    · rcases renewed with ⟨_, extended⟩ | same
      · rw [extended] at unleased
        cases unleased
      · rw [sameOwner]
        exact sound.unleased before named isBefore (same ▸ unleased) isTaken
  | release owner =>
    have found {document : LockDocument} (stored : (state.apply (.release owner)).document = some document) :
        state.document = some document := (Option.filter_eq_some_iff.mp stored).1
    exact ⟨fun document named stored => sound.owners document named (found stored), sound.known,
      fun named isHolder => sound.held _ (List.mem_filter.mp isHolder).1,
      fun document lease stored => sound.leased document lease (found stored),
      fun document lease stored => sound.bounded document lease (found stored),
      fun document named stored => sound.unleased document named (found stored)⟩

theorem run_sound (run : Run state) : Sound state := by
  refine Reachable.invariant Sound ?_ ?_ run
  · intro start isStart
    have none {document : LockDocument} {lease : Int} (stored : start.document = some document) :
        document.expiresAt ≠ some lease := by
      rw [isStart.unleased document stored]
      simp
    exact ⟨isStart.owners, by simp [isStart.acquired], by simp [isStart.holders],
      fun _ _ stored isLease => absurd isLease (none stored),
      fun _ _ stored isLease => absurd isLease (none stored), by simp [isStart.acquired]⟩
  · rintro state _ _ sound ⟨action, allowed, rfl⟩
    exact sound_step sound allowed

/-! ## Exclusion -/

def Holds (state : Locks) (owner : String) : Prop :=
  owner ∈ state.holders ∧ lockIsHeld state.now state.document = true ∧
    state.document.any (·.ownedBy owner) = true

/-- What the lock promises in a state. -/
structure Excludes (state : Locks) : Prop where
  /-- At most one run has the lock. -/
  one : ∀ first second, state.Holds first → state.Holds second → first = second
  /-- It is handed out only when no lease is live. -/
  free : ∀ owner ∉ state.owners, (acquireLock owner state.now state.document).1 = true →
    lockIsHeld state.now state.document = false
  /-- It is renewed only if no other run took it since. -/
  renewed : ∀ owner ∈ state.acquired, (renewLock owner state.now state.document).1 = true →
    state.acquired.head? = some owner
  /-- A run whose lock another took can neither renew nor release. -/
  lost : ∀ owner ∈ state.acquired, state.acquired.head? ≠ some owner →
    renewLock owner state.now state.document = (false, state.document) ∧
      releaseLock owner state.document = state.document
  /-- A live lease is shortened by no operation but its holder's release. -/
  kept : ∀ action, state.Allows action → ∀ owner lease, state.document = some ⟨some owner, some lease⟩ →
    state.now ≤ lease → (∀ other, action = .release other → other ≠ owner) →
      ∃ later, (state.apply action).document = some ⟨some owner, some later⟩ ∧ lease ≤ later

theorem not_owned (now : Int) (other : found.any (·.ownedBy owner) = false) :
    renewLock owner now found = (false, found) ∧ releaseLock owner found = found := by
  cases found with
  | none => exact ⟨rfl, rfl⟩
  | some document =>
    have notMine : document.ownedBy owner = false := other
    simp [renewLock, releaseLock, notMine]

theorem Sound.kept (sound : Sound state) {action : Action} (allowed : state.Allows action)
    {lease : Int} (stored : state.document = some ⟨some owner, some lease⟩)
    (live : state.now ≤ lease) (stays : ∀ other, action = .release other → other ≠ owner) :
    ∃ later, (state.apply action).document = some ⟨some owner, some later⟩ ∧ lease ≤ later := by
  cases action with
  | tick later => exact ⟨lease, stored, le_refl _⟩
  | check => exact ⟨lease, stored, le_refl _⟩
  | acquire other answered =>
    have held : lockIsHeld state.now state.document = true := by simpa [lockIsHeld, stored] using live
    refine ⟨lease, ?_, le_refl _⟩
    simpa [apply, acquireLock_held held] using stored
  | renew other =>
    have bounded := sound.bounded _ lease stored rfl
    by_cases mine : owner = other
    · exact ⟨state.now + lockLease, by simp [apply, renewLock, stored, LockDocument.ownedBy, mine], bounded⟩
    · exact ⟨lease, by simp [apply, renewLock, stored, LockDocument.ownedBy, mine], le_refl _⟩
  | release other =>
    have different : ¬ owner = other := fun same => stays other rfl same.symm
    exact ⟨lease, by simp [apply, releaseLock, stored, LockDocument.ownedBy, different], le_refl _⟩

/-- However the runs interleave, the lock excludes. -/
theorem lock_excludes {state : Locks} (run : Run state) : Excludes state := by
  have sound := run_sound run
  have last {owner : String} (taken : owner ∈ state.acquired)
      (named : state.document.any (·.ownedBy owner) = true) : state.acquired.head? = some owner := by
    obtain ⟨document, stored, isOwner⟩ := (Option.any_eq_true _ _).mp named
    exact sound.last stored taken (beq_iff_eq.mp isOwner)
  refine ⟨?_, ?_, fun owner taken renewed => last taken renewed, ?_, ?_⟩
  · rintro first second ⟨firstHolds, _, firstNamed⟩ ⟨secondHolds, _, secondNamed⟩
    have same := (last (sound.held _ firstHolds) firstNamed).symm.trans (last (sound.held _ secondHolds) secondNamed)
    exact Option.some.inj same
  · intro owner fresh granted
    by_contra held
    rw [acquireLock_held (Bool.of_not_eq_false held)] at granted
    obtain ⟨document, stored, isOwner⟩ := (Option.any_eq_true _ _).mp granted
    exact fresh (sound.owners document owner stored (beq_iff_eq.mp isOwner))
  · intro owner taken overtaken
    refine not_owned state.now ?_
    by_contra named
    exact overtaken (last taken (Bool.of_not_eq_false named))
  · intro action allowed owner lease stored live stays
    exact sound.kept allowed stored live stays

theorem Run.apply (run : Run state) {action : Action} (allowed : state.Allows action) :
    Run (state.apply action) :=
  .next run ⟨action, allowed, rfl⟩

def beforeLeases : Locks where
  now := 0
  document := some ⟨some "old", none⟩
  owners := ["old"]
  acquired := []
  holders := []

theorem beforeLeases_start : Start beforeLeases := by
  refine ⟨fun document stored => ?_, fun document owner stored named => ?_, rfl, rfl⟩
  · cases stored
    rfl
  · cases stored
    cases named
    exact List.mem_cons_self

def takenOver : Locks :=
  (((beforeLeases.apply (.acquire "a" true)).apply (.tick 1000000)).apply (.acquire "b" true)).apply (.renew "a")

theorem lock_excludes_takenOver :
    takenOver.document = some ⟨some "b", some 1900000⟩ ∧ takenOver.holders = ["b", "a"] ∧ Excludes takenOver :=
  ⟨by decide, by decide, lock_excludes <| Run.apply (Run.apply (Run.apply (Run.apply
    (.start beforeLeases_start) (by simp [Allows, beforeLeases]))
    (by simp [Allows, apply, beforeLeases])) (by simp [Allows, apply, beforeLeases]))
    (by simp only [Allows]; decide)⟩

end Locks

end Boom.Utils
