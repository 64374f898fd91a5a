import Mathlib.Logic.Relation

/-! # Runs of a transition system

States reachable from an initial state, the induction rule that proves an
invariant over all of them, and the rule for properties that, once true, stay
true for the rest of the run. -/

namespace Boom.Foundations

universe u

variable {σ : Type u}

inductive Reachable (init : σ → Prop) (step : σ → σ → Prop) : σ → Prop where
  | start {state : σ} : init state → Reachable init step state
  | next {state after : σ} : Reachable init step state → step state after →
      Reachable init step after

namespace Reachable

variable {init : σ → Prop} {step : σ → σ → Prop}

theorem invariant (inv : σ → Prop) (starts : ∀ state, init state → inv state)
    (kept : ∀ state after, Reachable init step state → inv state → step state after → inv after)
    {state : σ} (reachable : Reachable init step state) : inv state := by
  induction reachable with
  | start initial => exact starts _ initial
  | next before taken ih => exact kept _ _ before ih taken

theorem trans {state after : σ} (reachable : Reachable init step state)
    (run : Relation.ReflTransGen step state after) : Reachable init step after := by
  induction run with
  | refl => exact reachable
  | tail _ taken ih => exact .next ih taken

theorem mono {wider : σ → σ → Prop} (included : ∀ state after, step state after → wider state after)
    {state : σ} (reachable : Reachable init step state) : Reachable init wider state := by
  induction reachable with
  | start initial => exact .start initial
  | next _ taken ih => exact .next ih (included _ _ taken)

theorem grows (relation : σ → σ → Prop) (refl : ∀ state, relation state state)
    (trans : ∀ first second third, relation first second → relation second third →
      relation first third)
    (each : ∀ state after, Reachable init step state → step state after → relation state after)
    {state after : σ} (reachable : Reachable init step state)
    (run : Relation.ReflTransGen step state after) : relation state after := by
  induction run with
  | refl => exact refl _
  | tail before taken ih =>
    exact trans _ _ _ ih (each _ _ (reachable.trans before) taken)

theorem no_endless_run (measure : σ → Nat) (falls : ∀ state after, Reachable init step state → step state after → measure after < measure state)
    (run : Nat → σ) (starts : init (run 0)) : ¬ ∀ number, step (run number) (run (number + 1)) := by
  intro steps
  have reached : ∀ number, Reachable init step (run number) := by
    intro number
    induction number with
    | zero => exact .start starts
    | succ number ih => exact .next ih (steps number)
  have spent : ∀ number, measure (run number) + number ≤ measure (run 0) := by
    intro number
    induction number with
    | zero => exact Nat.le_refl _
    | succ number ih =>
      have lower := falls _ _ (reached number) (steps number)
      omega
  have overdrawn := spent (measure (run 0) + 1)
  omega

end Reachable

end Boom.Foundations
