import Boom.Foundations.Transition
import Mathlib.Logic.Function.Basic

/-! # Programs over a shared store

A program is a tree of operations on a shared store: each operation is atomic,
and between two of them any other program may run.  An operation may also fail,
and then the program cannot tell whether it took effect. -/

namespace Boom.Foundations

inductive Prog (Op : Type → Type) (α : Type) : Type 1 where
  | ret (value : α) : Prog Op α
  | call {β : Type} (op : Op β) (next : Option β → Prog Op α) : Prog Op α

namespace Prog

variable {Op : Type → Type} {α β γ ε : Type}

def bind : Prog Op α → (α → Prog Op β) → Prog Op β
  | .ret value, rest => rest value
  | .call op next, rest => .call op (fun answer => (next answer).bind rest)

instance : Monad (Prog Op) where
  pure := .ret
  bind := .bind

@[simp] theorem pure_eq (value : α) : (pure value : Prog Op α) = .ret value := rfl

@[simp] theorem ret_bind (value : α) (rest : α → Prog Op β) : (Prog.ret value >>= rest) = rest value := rfl

@[simp] theorem call_bind (op : Op γ) (next : Option γ → Prog Op α) (rest : α → Prog Op β) :
    (Prog.call op next >>= rest) = .call op (fun answer => next answer >>= rest) := rfl

theorem bind_assoc (program : Prog Op α) (rest : α → Prog Op β) (last : β → Prog Op γ) :
    (program >>= rest) >>= last = program >>= fun value => rest value >>= last := by
  induction program with
  | ret value => rfl
  | call op next ih => exact congrArg (call op) (funext ih)

def request (failure : ε) (op : Op β) : ExceptT ε (Prog Op) β :=
  ExceptT.mk (.call op fun answer => .ret (answer.elim (.error failure) .ok))

def lift (result : Except ε α) : ExceptT ε (Prog Op) α :=
  ExceptT.mk (.ret result)

@[simp] theorem run_lift (result : Except ε α) : (lift result : ExceptT ε (Prog Op) α).run = .ret result :=
  rfl

@[simp] theorem run_pure (value : α) : (pure value : ExceptT ε (Prog Op) α).run = .ret (.ok value) := rfl

@[simp] theorem run_throw (error : ε) : (throw error : ExceptT ε (Prog Op) α).run = .ret (.error error) := rfl

@[simp] theorem run_request (failure : ε) (op : Op β) :
    (request failure op).run = .call op fun answer => .ret (answer.elim (.error failure) .ok) := rfl

theorem run_bind (program : ExceptT ε (Prog Op) α) (rest : α → ExceptT ε (Prog Op) β) :
    (program >>= rest).run = program.run >>= fun
      | .ok value => (rest value).run
      | .error error => .ret (.error error) := by
  change program.run >>= _ = program.run >>= _
  congr 1
  funext result
  cases result <;> rfl

theorem run_tryCatch (program : ExceptT ε (Prog Op) α) (handler : ε → ExceptT ε (Prog Op) α) :
    (tryCatch program handler).run = program.run >>= fun
      | .ok value => .ret (.ok value)
      | .error error => (handler error).run := by
  change program.run >>= _ = program.run >>= _
  congr 1
  funext result
  cases result <;> rfl

def Calls (allowed : {β : Type} → Op β → Prop) : Prog Op α → Prop
  | .ret _ => True
  | .call op next => allowed op ∧ ∀ answer, (next answer).Calls allowed

variable {allowed : {β : Type} → Op β → Prop}

theorem Calls.bind {program : Prog Op α} {rest : α → Prog Op β} (first : program.Calls allowed)
    (later : ∀ value, (rest value).Calls allowed) : (program >>= rest).Calls allowed := by
  induction program with
  | ret value => exact later value
  | call op next ih =>
    exact ⟨first.1, fun answer => ih answer (first.2 answer)⟩

theorem Calls.bindExcept {program : ExceptT ε (Prog Op) α}
    {rest : α → ExceptT ε (Prog Op) β} (first : program.run.Calls allowed)
    (later : ∀ value, (rest value).run.Calls allowed) : (program >>= rest).run.Calls allowed := by
  rw [run_bind]
  apply first.bind
  intro result
  cases result with
  | ok value => exact later value
  | error error => trivial

theorem Calls.tryCatch {program : ExceptT ε (Prog Op) α}
    {handler : ε → ExceptT ε (Prog Op) α} (first : program.run.Calls allowed)
    (later : ∀ error, (handler error).run.Calls allowed) : (tryCatch program handler).run.Calls allowed := by
  rw [run_tryCatch]
  apply first.bind
  intro result
  cases result with
  | ok value => trivial
  | error error => exact later error

def Everywhere (shape : {β : Type} → Op β → (Option β → Prog Op α) → Prop) : Prog Op α → Prop
  | .ret _ => True
  | .call op next => shape op next ∧ ∀ answer, (next answer).Everywhere shape

def Returns (returned : α → Prop) : Prog Op α → Prop
  | .ret value => returned value
  | .call _ next => ∀ answer, (next answer).Returns returned

theorem Returns.bind {middle : α → Prop} {returned : β → Prop} {program : Prog Op α}
    {rest : α → Prog Op β} (first : program.Returns middle)
    (later : ∀ value, middle value → (rest value).Returns returned) : (program >>= rest).Returns returned := by
  induction program with
  | ret value => exact later value first
  | call op next ih => exact fun answer => ih answer (first answer)

theorem Returns.anything (program : Prog Op α) : program.Returns fun _ => True := by
  induction program with
  | ret value => trivial
  | call op next ih => exact ih

theorem Returns.bindExcept {returned : Except ε β → Prop} {program : ExceptT ε (Prog Op) α}
    {rest : α → ExceptT ε (Prog Op) β} (failed : ∀ error, returned (.error error))
    (later : ∀ value, (rest value).run.Returns returned) : (program >>= rest).run.Returns returned := by
  rw [run_bind]
  refine (Returns.anything program.run).bind fun result _ => ?_
  cases result with
  | ok value => exact later value
  | error error => exact failed error

theorem Everywhere.bind {shape : {β : Type} → Op β → (Option β → Prog Op γ) → Prop} {program : Prog Op α}
    {rest : α → Prog Op γ} (first : program.Calls allowed)
    (free : ∀ {β : Type} (op : Op β) next, allowed op → shape op next)
    (later : ∀ value, (rest value).Everywhere shape) : (program >>= rest).Everywhere shape := by
  induction program with
  | ret value => exact later value
  | call op next ih =>
    exact ⟨free op _ first.1, fun answer => ih answer (first.2 answer)⟩

theorem Everywhere.bindExcept {β' : Type} {shape : {β : Type} → Op β → (Option β → Prog Op (Except ε β')) → Prop}
    {program : ExceptT ε (Prog Op) α} {rest : α → ExceptT ε (Prog Op) β'}
    (first : program.run.Calls allowed) (free : ∀ {β : Type} (op : Op β) next, allowed op → shape op next)
    (later : ∀ value, (rest value).run.Everywhere shape) : (program >>= rest).run.Everywhere shape := by
  rw [run_bind]
  refine Everywhere.bind first free fun result => ?_
  cases result with
  | ok value => exact later value
  | error error => trivial

end Prog

class Store (Op : Type → Type) (σ : outParam Type) where
  exec : {β : Type} → Op β → σ → β × σ

inductive Delivery where
  | answered
  | lost
  | refused
deriving DecidableEq, Repr

namespace Delivery

variable {Op : Type → Type} {σ β : Type} [Store Op σ]

def state (delivery : Delivery) (op : Op β) (before : σ) : σ :=
  match delivery with
  | .answered | .lost => (Store.exec op before).2
  | .refused => before

def answer (delivery : Delivery) (op : Op β) (before : σ) : Option β :=
  match delivery with
  | .answered => some (Store.exec op before).1
  | .lost | .refused => none

variable (op : Op β)

section

variable (before : σ)
include before

@[simp] theorem state_answered :
    Delivery.answered.state op before = (Store.exec op before).2 := rfl
@[simp] theorem state_lost :
    Delivery.lost.state op before = (Store.exec op before).2 := rfl
@[simp] theorem state_refused :
    Delivery.refused.state op before = before := rfl
@[simp] theorem answer_answered :
    Delivery.answered.answer op before = some (Store.exec op before).1 := rfl
@[simp] theorem answer_lost :
    Delivery.lost.answer op before = none := rfl
@[simp] theorem answer_refused :
    Delivery.refused.answer op before = none := rfl

end

end Delivery

def Permit (Op : Type → Type) (σ : Type) : Type 1 :=
  (delivery : Delivery) → {β : Type} → Op β → σ → Prop

def Permit.all (Op : Type → Type) (σ : Type) : Permit Op σ := fun _ _ _ _ => True

structure Discipline (Op : Type → Type) (σ : Type) where
  permit : Permit Op σ
  inv : σ → Prop
  grows : σ → σ → Prop
  lawful : {β : Type} → Op β → σ → Prop
  refl : ∀ state, grows state state
  trans : ∀ {first second third}, grows first second → grows second third → grows first third

/-! ## Safety of one program -/

section Safety

variable {Op : Type → Type} {σ α β ε : Type} [Store Op σ]

def Discipline.Keeps (rules : Discipline Op σ) (delivery : Delivery) (op : Op β) (current : σ) :
    Prop :=
  rules.inv (delivery.state op current) ∧ rules.grows current (delivery.state op current)

def Safe (rules : Discipline Op σ) (post : α → σ → Prop) : Prog Op α → σ → Prop
  | .ret value, state => ∀ current, rules.inv current → rules.grows state current →
      post value current
  | .call op next, state => ∀ current, rules.inv current → rules.grows state current →
      rules.lawful op current ∧ ∀ delivery, rules.permit delivery op current →
        rules.Keeps delivery op current ∧
        Safe rules post (next (Delivery.answer delivery op current)) (Delivery.state delivery op current)

variable {rules : Discipline Op σ}

theorem Discipline.keeps_refused {op : Op β} {current : σ} (kept : rules.inv current) :
    rules.Keeps .refused op current :=
  ⟨kept, rules.refl current⟩

theorem Discipline.keeps_of_exec {op : Op β} {current : σ} (kept : rules.inv current)
    (effect : rules.inv (Store.exec op current).2 ∧ rules.grows current (Store.exec op current).2)
    (delivery : Delivery) : rules.Keeps delivery op current := by
  cases delivery with
  | answered => exact effect
  | lost => exact effect
  | refused => exact rules.keeps_refused kept

variable {post : α → σ → Prop}

theorem Safe.stable {program : Prog Op α} {state later : σ}
    (safe : Safe rules post program state) (grown : rules.grows state later) :
    Safe rules post program later := by
  cases program with
  | ret value => exact fun current kept after => safe current kept (rules.trans grown after)
  | call op next => exact fun current kept after => safe current kept (rules.trans grown after)

variable {state : σ}

theorem Safe.weaken {post weaker : α → σ → Prop} {program : Prog Op α} (safe : Safe rules post program state)
    (implied : ∀ value current, rules.inv current → post value current → weaker value current) :
    Safe rules weaker program state := by
  induction program generalizing state with
  | ret value => exact fun current kept grown => implied value current kept (safe current kept grown)
  | call op next ih =>
    intro current kept grown
    obtain ⟨lawful, each⟩ := safe current kept grown
    refine ⟨lawful, fun delivery permitted => ?_⟩
    obtain ⟨keeps, rest⟩ := each delivery permitted
    exact ⟨keeps, ih _ rest⟩

theorem Safe.frame (fact : σ → Prop) (stable : ∀ before after, fact before → rules.grows before after → fact after)
    {program : Prog Op α} (holds : fact state) (safe : Safe rules post program state) :
    Safe rules (fun value current => post value current ∧ fact current) program state := by
  induction program generalizing state with
  | ret value =>
    exact fun current kept grown => ⟨safe current kept grown, stable _ _ holds grown⟩
  | call op next ih =>
    intro current kept grown
    obtain ⟨lawful, each⟩ := safe current kept grown
    refine ⟨lawful, fun delivery permitted => ?_⟩
    obtain ⟨keeps, rest⟩ := each delivery permitted
    have still := stable _ _ holds (rules.trans grown keeps.2)
    exact ⟨keeps, ih _ still rest⟩

theorem Safe.bind (middle : α → σ → Prop) {post : β → σ → Prop}
    {program : Prog Op α} {rest : α → Prog Op β} (kept : rules.inv state) (first : Safe rules middle program state)
    (second : ∀ value current, rules.inv current → rules.grows state current →
      middle value current → Safe rules post (rest value) current) :
    Safe rules post (program >>= rest) state := by
  induction program generalizing state with
  | ret value =>
    exact second value state kept (rules.refl state) (first state kept (rules.refl state))
  | call op next ih =>
    intro current currentKept grown
    obtain ⟨lawful, each⟩ := first current currentKept grown
    refine ⟨lawful, fun delivery permitted => ?_⟩
    obtain ⟨keeps, remaining⟩ := each delivery permitted
    refine ⟨keeps, ih _ keeps.1 remaining ?_⟩
    intro value later laterKept laterGrown established
    exact second value later laterKept (rules.trans grown (rules.trans keeps.2 laterGrown)) established

theorem Safe.ret {value : α} (holds : ∀ current, rules.inv current → rules.grows state current → post value current) :
    Safe rules post (.ret value : Prog Op α) state :=
  holds

def Discipline.Sound (rules : Discipline Op σ) : Prop :=
  ∀ {β : Type} (delivery : Delivery) (op : Op β) (current : σ), rules.inv current →
    rules.lawful op current → rules.permit delivery op current → rules.Keeps delivery op current

theorem Safe.step (sound : rules.Sound) {op : Op β} {next : Option β → Prog Op α}
    (lawful : ∀ current, rules.inv current → rules.grows state current → rules.lawful op current)
    (answered : ∀ current, rules.inv current → rules.grows state current →
      rules.permit .answered op current → rules.Keeps .answered op current →
      Safe rules post (next (some (Store.exec op current).1)) (Store.exec op current).2)
    (failed : ∀ current, rules.inv current → rules.grows state current →
      Safe rules post (next none) current) :
    Safe rules post (.call op next) state := by
  intro current kept grown
  refine ⟨lawful current kept grown, fun delivery permitted => ?_⟩
  have keeps := sound delivery op current kept (lawful current kept grown) permitted
  refine ⟨keeps, ?_⟩
  cases delivery with
  | answered => exact answered current kept grown permitted keeps
  | lost => exact failed _ keeps.1 (rules.trans grown keeps.2)
  | refused => exact failed current kept grown

theorem Safe.ask (sound : rules.Sound) {post : Except ε α → σ → Prop} {failure : ε} {op : Op β}
    {rest : β → ExceptT ε (Prog Op) α} (failed : ∀ current, post (.error failure) current)
    (lawful : ∀ current, rules.inv current → rules.grows state current → rules.lawful op current)
    (answered : ∀ current, rules.inv current → rules.grows state current →
      rules.permit .answered op current → rules.Keeps .answered op current →
      Safe rules post (rest (Store.exec op current).1).run (Store.exec op current).2) :
    Safe rules post (Prog.request failure op >>= rest).run state := by
  rw [Prog.run_bind, Prog.run_request, Prog.call_bind]
  exact Safe.step sound lawful answered fun _ _ _ => Safe.ret fun current _ _ => failed current

theorem Safe.map {post : β → σ → Prop} {program : Prog Op α} {result : α → β}
    (safe : Safe rules (fun value current => post (result value) current) program state) :
    Safe rules post (program >>= fun value => .ret (result value)) state := by
  induction program generalizing state with
  | ret value => exact safe
  | call op next ih =>
    intro current kept grown
    obtain ⟨lawful, each⟩ := safe current kept grown
    refine ⟨lawful, fun delivery permitted => ?_⟩
    obtain ⟨keeps, rest⟩ := each delivery permitted
    exact ⟨keeps, ih _ rest⟩

theorem Safe.bindExcept (middle : α → σ → Prop) {post : Except ε β → σ → Prop} {program : ExceptT ε (Prog Op) α}
    {rest : α → ExceptT ε (Prog Op) β} (kept : rules.inv state)
    (first : Safe rules (fun result current => ∀ value, result = .ok value →
      middle value current) program.run state)
    (failed : ∀ error current, rules.inv current → rules.grows state current →
      post (.error error) current) (second : ∀ value current, rules.inv current → rules.grows state current →
      middle value current → Safe rules post (rest value).run current) :
    Safe rules post (program >>= rest).run state := by
  rw [Prog.run_bind]
  refine Safe.bind _ kept first ?_
  intro result current currentKept grown established
  cases result with
  | ok value => exact second value current currentKept grown (established value rfl)
  | error error =>
    exact Safe.ret fun later laterKept laterGrown =>
      failed error later laterKept (rules.trans grown laterGrown)

theorem Safe.tryCatch {post : Except ε α → σ → Prop}
    {program : ExceptT ε (Prog Op) α} {handler : ε → ExceptT ε (Prog Op) α} (kept : rules.inv state)
    (first : Safe rules (fun result current => ∀ value, result = .ok value →
      ∀ later, rules.inv later → rules.grows current later → post (.ok value) later) program.run state)
    (second : ∀ error current, rules.inv current → rules.grows state current →
      Safe rules post (handler error).run current) :
    Safe rules post (tryCatch program handler).run state := by
  rw [Prog.run_tryCatch]
  refine Safe.bind _ kept first ?_
  intro result current currentKept grown established
  cases result with
  | ok value =>
    exact Safe.ret fun later laterKept laterGrown => established value rfl later laterKept laterGrown
  | error error => exact second error current currentKept grown

end Safety

/-! ## Pools of programs -/

structure Pool (Op : Type → Type) (σ α : Type) where
  store : σ
  threads : Nat → Option (Prog Op α)

namespace Pool

variable {Op : Type → Type} {σ α β : Type}

def setThread (pool : Pool Op σ α) (slot : Nat) (thread : Option (Prog Op α)) : Pool Op σ α :=
  { pool with threads := Function.update pool.threads slot thread }

variable (pool : Pool Op σ α)

@[simp] theorem setThread_store (slot : Nat) (thread : Option (Prog Op α)) :
    (pool.setThread slot thread).store = pool.store := rfl

@[simp] theorem setThread_threads_self (slot : Nat)
    (thread : Option (Prog Op α)) : (pool.setThread slot thread).threads slot = thread := by
  simp [setThread]

theorem setThread_threads_ne {slot other : Nat} (different : other ≠ slot)
    (thread : Option (Prog Op α)) : (pool.setThread slot thread).threads other = pool.threads other := by
  simp [setThread, different]

def Fresh (init : σ → Prop) (pool : Pool Op σ α) : Prop :=
  init pool.store ∧ ∀ slot, pool.threads slot = none

variable [Store Op σ]

def deliver (pool : Pool Op σ α) (slot : Nat) (delivery : Delivery) (op : Op β)
    (next : Option β → Prog Op α) : Pool Op σ α :=
  { store := delivery.state op pool.store
    threads := Function.update pool.threads slot (some (next (delivery.answer op pool.store))) }

@[simp] theorem deliver_store (slot : Nat) (delivery : Delivery) (op : Op β) (next : Option β → Prog Op α) :
    (pool.deliver slot delivery op next).store = delivery.state op pool.store := rfl

@[simp] theorem deliver_threads_self (slot : Nat) (delivery : Delivery) (op : Op β) (next : Option β → Prog Op α) :
    (pool.deliver slot delivery op next).threads slot =
      some (next (delivery.answer op pool.store)) := by
  simp [deliver]

theorem deliver_threads_ne {slot other : Nat} (different : other ≠ slot)
    (delivery : Delivery) (op : Op β) (next : Option β → Prog Op α) :
    (pool.deliver slot delivery op next).threads other = pool.threads other := by
  simp [deliver, different]

inductive Step (permit : Permit Op σ) (starts : σ → Prog Op α → Prop) (environment : σ → σ → Prop) :
    Pool Op σ α → Pool Op σ α → Prop where
  | spawn {pool : Pool Op σ α} {slot : Nat} {program : Prog Op α} :
      pool.threads slot = none → starts pool.store program →
      Step permit starts environment pool (pool.setThread slot (some program))
  | deliver {pool : Pool Op σ α} {slot : Nat} {β : Type} {op : Op β}
      {next : Option β → Prog Op α} (delivery : Delivery) :
      pool.threads slot = some (.call op next) → permit delivery op pool.store →
      Step permit starts environment pool (pool.deliver slot delivery op next)
  | crash {pool : Pool Op σ α} {slot : Nat} :
      Step permit starts environment pool (pool.setThread slot none)
  | outside {pool : Pool Op σ α} {after : σ} : environment pool.store after →
      Step permit starts environment pool { pool with store := after }

structure AllSafe (rules : Discipline Op σ) (post : α → σ → Prop) (pool : Pool Op σ α) : Prop where
  kept : rules.inv pool.store
  threads : ∀ slot program, pool.threads slot = some program → Safe rules post program pool.store

structure Disciplined (rules : Discipline Op σ) (post : α → σ → Prop)
    (starts : σ → Prog Op α → Prop) (environment : σ → σ → Prop) : Prop where
  started : ∀ state program, rules.inv state → starts state program → Safe rules post program state
  outside : ∀ state after, rules.inv state → environment state after →
    rules.inv after ∧ rules.grows state after

variable {rules : Discipline Op σ} {starts : σ → Prog Op α → Prop} {environment : σ → σ → Prop}
  {post : α → σ → Prop}

theorem AllSafe.step_grows (disciplined : Disciplined rules post starts environment)
    {pool after : Pool Op σ α} (safe : AllSafe rules post pool)
    (taken : Step rules.permit starts environment pool after) :
    rules.inv after.store ∧ rules.grows pool.store after.store := by
  cases taken with
  | spawn _ _ => exact ⟨safe.kept, rules.refl _⟩
  | deliver delivery running permitted =>
    obtain ⟨_, each⟩ := safe.threads _ _ running _ safe.kept (rules.refl _)
    exact (each delivery permitted).1
  | crash => exact ⟨safe.kept, rules.refl _⟩
  | outside moved => exact disciplined.outside _ _ safe.kept moved

theorem AllSafe.step (disciplined : Disciplined rules post starts environment)
    {pool after : Pool Op σ α} (safe : AllSafe rules post pool)
    (taken : Step rules.permit starts environment pool after) : AllSafe rules post after := by
  obtain ⟨keeps, grew⟩ := safe.step_grows disciplined taken
  refine ⟨keeps, fun slot program running => ?_⟩
  cases taken with
  | @spawn opened _ _ may =>
    by_cases same : slot = opened
    · subst same
      simp only [setThread_threads_self, Option.some.injEq] at running
      exact running ▸ disciplined.started _ _ safe.kept may
    · rw [setThread_threads_ne _ same] at running
      exact safe.threads _ _ running
  | @deliver called _ _ _ delivery calling permitted =>
    by_cases same : slot = called
    · subst same
      simp only [deliver_threads_self, Option.some.injEq] at running
      obtain ⟨_, each⟩ := safe.threads _ _ calling _ safe.kept (rules.refl _)
      exact running ▸ (each delivery permitted).2
    · rw [deliver_threads_ne _ same] at running
      exact (safe.threads _ _ running).stable grew
  | @crash crashed =>
    by_cases same : slot = crashed
    · subst same
      simp at running
    · rw [setThread_threads_ne _ same] at running
      exact safe.threads _ _ running
  | outside _ => exact (safe.threads _ _ running).stable grew

variable {pool : Pool Op σ α} {init : σ → Prop}

theorem safe (disciplined : Disciplined rules post starts environment)
    (initially : ∀ state, init state → rules.inv state)
    (reachable : Reachable (Fresh init) (Step rules.permit starts environment) pool) :
    AllSafe rules post pool := by
  refine Reachable.invariant (AllSafe rules post) ?_ ?_ reachable
  · rintro state ⟨initial, idle⟩
    exact ⟨initially _ initial, fun slot program running => by simp [idle slot] at running⟩
  · intro state after _ safe taken
    exact safe.step disciplined taken

theorem AllSafe.returned (safe : AllSafe rules post pool) {slot : Nat}
    {value : α} (finished : pool.threads slot = some (.ret value)) : post value pool.store :=
  safe.threads _ _ finished _ safe.kept (rules.refl _)

theorem AllSafe.lawful (safe : AllSafe rules post pool) {slot : Nat} {op : Op β}
    {next : Option β → Prog Op α} (calling : pool.threads slot = some (.call op next)) :
    rules.lawful op pool.store :=
  (safe.threads _ _ calling _ safe.kept (rules.refl _)).1

theorem run_grows (disciplined : Disciplined rules post starts environment)
    (initially : ∀ state, init state → rules.inv state) {pool after : Pool Op σ α}
    (reachable : Reachable (Fresh init) (Step rules.permit starts environment) pool)
    (run : Relation.ReflTransGen (Step rules.permit starts environment) pool after) :
    rules.grows pool.store after.store := by
  refine reachable.grows (fun first second => rules.grows first.store second.store)
    (fun state => rules.refl state.store) (fun _ _ _ => rules.trans) ?_ run
  intro state next reached taken
  exact ((safe disciplined initially reached).step_grows disciplined taken).2

variable {permit : Permit Op σ}

theorem everywhere {shape : {β : Type} → Op β → (Option β → Prog Op α) → Prop}
    (started : ∀ state program, starts state program → program.Everywhere shape)
    (reachable : Reachable (Fresh init) (Step permit starts environment) pool)
    {slot : Nat} {program : Prog Op α} (running : pool.threads slot = some program) :
    program.Everywhere shape := by
  suffices all : ∀ slot program, pool.threads slot = some program → program.Everywhere shape from
    all _ _ running
  refine Reachable.invariant (fun pool => ∀ slot program,
    pool.threads slot = some program → program.Everywhere shape) ?_ ?_ reachable
  · rintro state ⟨_, idle⟩ slot program running
    simp [idle slot] at running
  · intro state after _ kept taken slot program running
    cases taken with
    | @spawn opened _ _ may =>
      by_cases same : slot = opened
      · subst same
        simp only [setThread_threads_self, Option.some.injEq] at running
        exact running ▸ started _ _ may
      · rw [setThread_threads_ne _ same] at running
        exact kept _ _ running
    | @deliver called _ _ _ delivery calling _ =>
      by_cases same : slot = called
      · subst same
        simp only [deliver_threads_self, Option.some.injEq] at running
        exact running ▸ (kept _ _ calling).2 _
      · rw [deliver_threads_ne _ same] at running
        exact kept _ _ running
    | @crash crashed =>
      by_cases same : slot = crashed
      · subst same
        simp at running
      · rw [setThread_threads_ne _ same] at running
        exact kept _ _ running
    | outside _ => exact kept _ _ running

/-! ## Building runs -/

def advance (pool : Pool Op σ α) (slot : Nat) (delivery : Delivery) : Pool Op σ α :=
  match pool.threads slot with
  | some (.call op next) => pool.deliver slot delivery op next
  | _ => pool

def schedule (pool : Pool Op σ α) (slots : List Nat) : Pool Op σ α :=
  slots.foldl (fun pool slot => pool.advance slot .answered) pool

theorem reach_advance (reachable : Reachable (Fresh init) (Step permit starts environment) pool) (slot : Nat)
    (delivery : Delivery) (permitted : ∀ {β : Type} (op : Op β) next, pool.threads slot = some (.call op next) →
      permit delivery op pool.store) :
    Reachable (Fresh init) (Step permit starts environment) (pool.advance slot delivery) := by
  unfold advance
  split
  next op next calling => exact .next reachable (.deliver delivery calling (permitted op next calling))
  next => exact reachable

theorem reach_answered (reachable : Reachable (Fresh init) (Step permit starts environment) pool) (slot : Nat)
    {op : Op β} {next : Option β → Prog Op α} (calling : pool.threads slot = some (.call op next))
    (permitted : permit .answered op pool.store) :
    Reachable (Fresh init) (Step permit starts environment) (pool.advance slot .answered) := by
  have advanced : pool.advance slot .answered = pool.deliver slot .answered op next := by
    simp [advance, calling]
  exact advanced ▸ .next reachable (.deliver .answered calling permitted)

theorem reach_schedule (reachable : Reachable (Fresh init) (Step (Permit.all Op σ) starts environment) pool)
    (slots : List Nat) :
    Reachable (Fresh init) (Step (Permit.all Op σ) starts environment) (pool.schedule slots) := by
  induction slots generalizing pool with
  | nil => exact reachable
  | cons slot rest ih =>
    exact ih (reach_advance reachable slot .answered fun _ _ _ => trivial)

theorem reach_spawn (reachable : Reachable (Fresh init) (Step permit starts environment) pool) {slot : Nat}
    {program : Prog Op α} (free : pool.threads slot = none) (may : starts pool.store program) :
    Reachable (Fresh init) (Step permit starts environment) (pool.setThread slot (some program)) :=
  .next reachable (.spawn free may)

end Pool

end Boom.Foundations
