import Boom.Foundations.Except
import Mathlib.Data.Nat.Bitwise

/-! # Arithmetic that stops

Machine arithmetic on numbers of some bits, where a result that does not fit is a fault, and
reading a list at a place, where there being nothing is one. -/

namespace Boom.Foundations

inductive Fault where
  | overflow
  | outOfRange
  /-- An argument that a library does not take. -/
  | unsupported
deriving DecidableEq, Repr

abbrev Checked (α : Type) := Except Fault α

def fits (bits value : Nat) : Checked Nat :=
  if value < 2 ^ bits then .ok value else .error .overflow

def checkedAdd (bits first second : Nat) : Checked Nat :=
  fits bits (first + second)

def checkedMul (bits first second : Nat) : Checked Nat :=
  fits bits (first * second)

def checkedPow (bits base exponent : Nat) : Checked Nat :=
  fits bits (base ^ exponent)

def checkedSub (first second : Nat) : Checked Nat :=
  if second ≤ first then .ok (first - second) else .error .overflow

def checkedShl (bits value amount : Nat) : Checked Nat :=
  if amount < bits then .ok (value <<< amount % 2 ^ bits) else .error .overflow

def fitsSigned (bits : Nat) (value : Int) : Checked Int :=
  if -2 ^ (bits - 1) ≤ value ∧ value < 2 ^ (bits - 1) then .ok value else .error .overflow

def readAt {α : Type} (items : List α) (place : Nat) : Checked α :=
  match items[place]? with
  | some item => .ok item
  | none => .error .outOfRange

def setAt {α : Type} (items : List α) (place : Nat) (item : α) : Checked (List α) :=
  if place < items.length then .ok (items.set place item) else .error .outOfRange

def rangeAt {α : Type} (items : List α) (start stop : Nat) : Checked (List α) :=
  if start ≤ stop ∧ stop ≤ items.length then .ok ((items.take stop).drop start) else .error .outOfRange

theorem fits_of_lt {bits value : Nat} (small : value < 2 ^ bits) : fits bits value = .ok value :=
  if_pos small

theorem eq_of_fits {bits value fitted : Nat} (ok : fits bits value = .ok fitted) : fitted = value := by
  unfold fits at ok
  split at ok
  · exact (Except.ok.inj ok).symm
  · cases ok

theorem runs_checkedSub_iff {first second : Nat} : (∃ rest, checkedSub first second = .ok rest) ↔ second ≤ first := by
  rw [checkedSub]
  split <;> simp [*]

theorem runs_rangeAt_iff {α : Type} {items : List α} {start stop : Nat} :
    (∃ range, rangeAt items start stop = .ok range) ↔ start ≤ stop ∧ stop ≤ items.length := by
  rw [rangeAt]
  split <;> simp [*]

theorem checkedSub_of_le {first second : Nat} (le : second ≤ first) : checkedSub first second = .ok (first - second) :=
  if_pos le

theorem checkedShl_one {bits amount : Nat} (inside : amount < bits) : checkedShl bits 1 amount = .ok (2 ^ amount) := by
  rw [checkedShl, if_pos inside, Nat.one_shiftLeft, Nat.mod_eq_of_lt (Nat.pow_lt_pow_right Nat.one_lt_two inside)]

theorem readAt_of_lt {α : Type} {items : List α} {place : Nat} (inside : place < items.length) :
    readAt items place = .ok items[place] := by
  rw [readAt, List.getElem?_eq_getElem inside]

theorem lt_of_readAt {α : Type} {items : List α} {place : Nat} {item : α} (read : readAt items place = .ok item) :
    place < items.length := by
  unfold readAt at read
  split at read
  next found => exact (List.getElem?_eq_some_iff.mp found).1
  next => cases read

/-! ## Runs -/

section

variable {ε α β : Type}

def Runs (steps : Except ε α) : Prop :=
  ∃ value, steps = .ok value

theorem ok_bind (value : α) (rest : α → Except ε β) : (Except.ok value >>= rest) = rest value := rfl

theorem runs_ok (value : α) : Runs (.ok value : Except ε α) :=
  ⟨value, rfl⟩

theorem not_runs_error (error : ε) : ¬ Runs (.error error : Except ε α) := by
  rintro ⟨value, same⟩
  cases same

variable {first : Except ε α} {rest : α → Except ε β}

theorem Runs.bind (runs : Runs first)
    (each : ∀ value, first = .ok value → Runs (rest value)) : Runs (first >>= rest) := by
  obtain ⟨value, same⟩ := runs
  obtain ⟨result, isResult⟩ := each value same
  exact ⟨result, bind_eq_ok.mpr ⟨value, same, isResult⟩⟩

theorem runs_bind_iff :
    Runs (first >>= rest) ↔ ∃ value, first = .ok value ∧ Runs (rest value) := by
  constructor
  · rintro ⟨result, isResult⟩
    obtain ⟨value, same, isResult⟩ := bind_eq_ok.mp isResult
    exact ⟨value, same, result, isResult⟩
  · rintro ⟨value, rfl, runs⟩
    exact runs

theorem runs_bind_and {p : Prop} (each : ∀ value, Runs (rest value) ↔ p) :
    Runs (first >>= rest) ↔ Runs first ∧ p := by
  simp only [runs_bind_iff, each]
  constructor
  · rintro ⟨value, same, holds⟩
    exact ⟨⟨value, same⟩, holds⟩
  · rintro ⟨⟨value, same⟩, holds⟩
    exact ⟨value, same, holds⟩

theorem runs_bind_iff_forall :
    Runs (first >>= rest) ↔ Runs first ∧ ∀ value, first = .ok value → Runs (rest value) := by
  cases first with
  | error fault => exact iff_of_false (not_runs_error fault) fun both => not_runs_error fault both.1
  | ok value =>
    simp only [runs_ok, true_and, Except.ok.injEq, forall_eq']
    rfl

theorem runs_mapM {step : α → Except ε β} {items : List α} (each : ∀ item ∈ items, Runs (step item)) :
    Runs (items.mapM step) := by
  induction items with
  | nil => exact runs_ok []
  | cons item rest ih =>
    rw [List.mapM_cons]
    refine (each item List.mem_cons_self).bind fun value _ => ?_
    refine (ih fun item there => each item (List.mem_cons_of_mem _ there)).bind fun values _ => ?_
    exact runs_ok _

end

theorem runs_fits_iff {bits value : Nat} : Runs (fits bits value) ↔ value < 2 ^ bits := by
  rw [fits]
  split
  · next inside => exact iff_of_true (runs_ok value) inside
  · next outside => exact iff_of_false (not_runs_error _) outside

theorem fitsSigned_eq_ok_iff {bits : Nat} {value fitted : Int} :
    fitsSigned bits value = .ok fitted ↔ (-2 ^ (bits - 1) ≤ value ∧ value < 2 ^ (bits - 1)) ∧ value = fitted := by
  rw [fitsSigned]
  split <;> simp_all

/-! ## Attempts -/

section

variable {ε α β : Type}

def found (value : Option α) : OptionT (Except ε) α :=
  OptionT.mk (.ok value)

theorem runs_found (value : Option α) : Runs (found value : OptionT (Except ε) α).run :=
  runs_ok value

theorem runs_found_bind {value : Option α} {rest : α → OptionT (Except ε) β} :
    Runs (found value >>= rest).run ↔ ∀ item, value = some item → Runs (rest item).run := by
  cases value with
  | none => exact iff_of_true (runs_ok none) fun _ same => nomatch same
  | some item =>
    simp only [Option.some.injEq, forall_eq']
    rfl

theorem runs_lift_bind {steps : Except ε α} {rest : α → OptionT (Except ε) β} :
    Runs (OptionT.lift steps >>= rest).run ↔ Runs steps ∧ ∀ item, steps = .ok item → Runs (rest item).run := by
  rw [OptionT.run_bind_lift]
  exact runs_bind_iff_forall

theorem runs_bind_iff_found {steps : OptionT (Except ε) α} {rest : α → OptionT (Except ε) β} :
    Runs (steps >>= rest).run ↔ Runs steps.run ∧ ∀ item, steps.run = .ok (some item) → Runs (rest item).run := by
  rw [OptionT.run_bind, Option.elimM, runs_bind_iff_forall]
  refine and_congr_right fun _ => ⟨fun each item same => each _ same, fun each outcome same => ?_⟩
  cases outcome with
  | none => exact runs_ok none
  | some item => exact each item same

theorem runs_bind_of_rest {steps : OptionT (Except ε) α} {rest : α → OptionT (Except ε) β}
    (each : ∀ item, Runs (rest item).run) : Runs (steps >>= rest).run ↔ Runs steps.run := by
  rw [OptionT.run_bind, Option.elimM, runs_bind_iff]
  constructor
  · rintro ⟨value, same, -⟩
    exact ⟨value, same⟩
  · rintro ⟨value, same⟩
    refine ⟨value, same, ?_⟩
    cases value with
    | none => exact runs_ok none
    | some item => exact each item

def Finds (steps : OptionT (Except ε) α) (holds : α → Prop) : Prop :=
  ∃ value, steps.run = .ok value ∧ ∀ item, value = some item → holds item

variable {holds : α → Prop}

theorem Finds.runs {steps : OptionT (Except ε) α} (finds : Finds steps holds) : Runs steps.run :=
  ⟨finds.choose, finds.choose_spec.1⟩

theorem finds_pure {item : α} (property : holds item) :
    Finds (pure item : OptionT (Except ε) α) holds :=
  ⟨some item, rfl, fun _ same => Option.some.inj same ▸ property⟩

theorem finds_found {value : Option α} (each : ∀ item, value = some item → holds item) :
    Finds (found value : OptionT (Except ε) α) holds :=
  ⟨value, rfl, each⟩

theorem finds_lift {steps : Except ε α} {item : α} (same : steps = .ok item) (property : holds item) :
    Finds (OptionT.lift steps) holds := by
  subst same
  exact finds_pure property

theorem finds_fits {bits value : Nat} (small : value < 2 ^ bits) : Finds (OptionT.lift (fits bits value)) (· = value) :=
  finds_lift (fits_of_lt small) rfl

theorem finds_rangeAt {items : List α} {start stop : Nat} (le : start ≤ stop) (inside : stop ≤ items.length) :
    Finds (OptionT.lift (rangeAt items start stop)) (·.length = stop - start) := by
  refine finds_lift (if_pos ⟨le, inside⟩) ?_
  rw [List.length_drop, List.length_take, Nat.min_eq_left inside]

theorem Finds.bind {steps : OptionT (Except ε) α} {rest : α → OptionT (Except ε) β}
    {holds' : β → Prop} (finds : Finds steps holds) (each : ∀ item, holds item → Finds (rest item) holds') :
    Finds (steps >>= rest) holds' := by
  obtain ⟨value, same, property⟩ := finds
  cases value with
  | none =>
    refine ⟨none, ?_, fun _ same => nomatch same⟩
    rw [OptionT.run_bind, same]
    rfl
  | some item =>
    obtain ⟨result, same', property'⟩ := each item (property item rfl)
    refine ⟨result, ?_, property'⟩
    rw [OptionT.run_bind, same]
    exact same'

end

section

variable {ε α β : Type}

def Gives (steps : OptionT (Except ε) α) (item : α) : Prop :=
  steps.run = .ok (some item)

theorem gives_pure (item : α) : Gives (pure item : OptionT (Except ε) α) item := rfl

theorem gives_found {value : Option α} {item : α} (same : value = some item) :
    Gives (found value : OptionT (Except ε) α) item := congrArg Except.ok same

theorem gives_lift {steps : Except ε α} {item : α} (same : steps = .ok item) : Gives (OptionT.lift steps) item := by
  subst same
  rfl

theorem gives_fits {bits value : Nat} (small : value < 2 ^ bits) : Gives (OptionT.lift (fits bits value)) value :=
  gives_lift (fits_of_lt small)

theorem gives_bind_iff {steps : OptionT (Except ε) α} {rest : α → OptionT (Except ε) β} {result : β} :
    Gives (steps >>= rest) result ↔ ∃ item, Gives steps item ∧ Gives (rest item) result := by
  unfold Gives
  rw [OptionT.run_bind, Option.elimM]
  cases steps.run with
  | error fault => exact iff_of_false nofun (by rintro ⟨_, same, -⟩; cases same)
  | ok outcome =>
    cases outcome with
    | none => exact iff_of_false nofun (by rintro ⟨_, same, -⟩; cases same)
    | some item =>
      simp only [Except.ok.injEq, Option.some.injEq, exists_eq_left']
      rfl

theorem Gives.bind {steps : OptionT (Except ε) α} {rest : α → OptionT (Except ε) β} {item : α} {result : β}
    (gives : Gives steps item) (gives' : Gives (rest item) result) : Gives (steps >>= rest) result :=
  gives_bind_iff.mpr ⟨item, gives, gives'⟩

end

/-! ## Rejections -/

section

variable {ε ρ α β : Type}

def orReject (value : Option α) (rejection : ρ) : ExceptT ρ (Except ε) α :=
  ExceptT.mk (.ok (match value with
    | none => .error rejection
    | some value => .ok value))

def Returns (steps : ExceptT ρ (Except ε) α) (value : α) : Prop :=
  steps.run = .ok (.ok value)

theorem returns_pure_iff {item value : α} : Returns (pure item : ExceptT ρ (Except ε) α) value ↔ item = value := by
  constructor
  · intro same
    exact Except.ok.inj (Except.ok.inj same)
  · rintro rfl
    rfl

theorem returns_liftExcept_iff {steps : Except ε α} {value : α} :
    Returns (ExceptT.lift steps : ExceptT ρ (Except ε) α) value ↔ steps = .ok value := by
  cases steps with
  | error fault => exact iff_of_false nofun nofun
  | ok item => exact returns_pure_iff.trans (by rw [Except.ok.injEq])

theorem returns_orReject_iff {value : Option α} {rejection : ρ} {item : α} :
    Returns (orReject value rejection : ExceptT ρ (Except ε) α) item ↔ value = some item := by
  cases value with
  | none => exact iff_of_false nofun nofun
  | some found => exact returns_pure_iff.trans (by rw [Option.some.injEq])

variable {rest : α → ExceptT ρ (Except ε) β}

theorem returns_bind_iff {steps : ExceptT ρ (Except ε) α} {result : β} :
    Returns (steps >>= rest) result ↔ ∃ value, Returns steps value ∧ Returns (rest value) result := by
  unfold Returns
  rw [ExceptT.run_bind]
  cases steps.run with
  | error fault => exact iff_of_false nofun (by rintro ⟨_, same, -⟩; cases same)
  | ok outcome =>
    cases outcome with
    | error rejection => exact iff_of_false nofun (by rintro ⟨_, same, -⟩; cases same)
    | ok value =>
      simp only [Except.ok.injEq, exists_eq_left']
      rfl

theorem runs_bind_iff_returns {steps : ExceptT ρ (Except ε) α} :
    Runs (steps >>= rest).run ↔ Runs steps.run ∧ ∀ value, Returns steps value → Runs (rest value).run := by
  unfold Returns
  rw [ExceptT.run_bind]
  cases steps.run with
  | error fault => exact iff_of_false (not_runs_error fault) fun both => not_runs_error fault both.1
  | ok outcome =>
    cases outcome with
    | error rejection => exact iff_of_true (runs_ok _) ⟨runs_ok _, nofun⟩
    | ok value =>
      simp only [runs_ok, true_and, Except.ok.injEq, forall_eq']
      rfl

theorem runs_liftExcept {steps : Except ε α} : Runs (ExceptT.lift steps : ExceptT ρ (Except ε) α).run ↔ Runs steps := by
  cases steps with
  | error fault => exact iff_of_false (not_runs_error fault) (not_runs_error fault)
  | ok value => exact iff_of_true (runs_ok _) (runs_ok value)

theorem runs_liftExcept_bind {steps : Except ε α} :
    Runs (ExceptT.lift steps >>= rest).run ↔ Runs steps ∧ ∀ value, steps = .ok value → Runs (rest value).run := by
  simp only [runs_bind_iff_returns, runs_liftExcept, returns_liftExcept_iff]

theorem runs_orReject_bind {value : Option α} {rejection : ρ} :
    Runs (orReject value rejection >>= rest).run ↔ ∀ item, value = some item → Runs (rest item).run := by
  simp only [runs_bind_iff_returns, returns_orReject_iff, and_iff_right_iff_imp]
  exact fun _ => runs_ok _

end

end Boom.Foundations
