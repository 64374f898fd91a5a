import Mathlib.Data.List.Basic
import Mathlib.Algebra.Order.Monoid.Defs

/-! # Events within a window

A log of times, the newest first.  Where each event finds fewer than so many within the window
that ends with it, no window of that width anywhere has more than that many events. -/

namespace Boom.Foundations

variable {τ : Type} [AddCommMonoid τ] [LinearOrder τ]

def recent (width now : τ) (log : List τ) : List τ :=
  log.filter (now ≤ · + width)

def Limited (limit : Nat) (width : τ) : List τ → Prop
  | [] => True
  | time :: earlier =>
    (∀ event ∈ earlier, event ≤ time) ∧ (recent width time earlier).length < limit ∧ Limited limit width earlier

section

variable {limit : Nat} {width now : τ} {log : List τ}

theorem Limited.sorted (limited : Limited limit width log) : log.Pairwise (· ≥ ·) := by
  induction log with
  | nil => exact .nil
  | cons time earlier ih => exact .cons limited.1 (ih limited.2.2)

theorem Limited.length_window_le [IsOrderedAddMonoid τ] (limited : Limited limit width log) (start : τ) :
    (log.filter fun event => start ≤ event ∧ event ≤ start + width).length ≤ limit := by
  induction log with
  | nil => exact Nat.zero_le _
  | cons time earlier ih =>
    obtain ⟨-, few, limited⟩ := limited
    rw [List.filter_cons]
    split
    next inside =>
      -- Every event of the window is recent for the last one in it.
      rw [decide_eq_true_eq] at inside
      have among : (earlier.filter fun event => start ≤ event ∧ event ≤ start + width).length ≤
          (recent width time earlier).length := by
        refine (List.monotone_filter_right earlier fun event within => ?_).length_le
        rw [decide_eq_true_eq] at within ⊢
        exact inside.2.trans (add_le_add_left within.1 width)
      rw [List.length_cons]
      omega
    next => exact ih limited

theorem dropWhile_eq_recent [IsOrderedAddMonoid τ] (sorted : log.Pairwise (· ≤ ·)) :
    log.dropWhile (· + width < now) = recent width now log := by
  induction log with
  | nil => rfl
  | cons first rest ih =>
    obtain ⟨least, sorted⟩ := List.pairwise_cons.mp sorted
    rw [List.dropWhile_cons, recent, List.filter_cons]
    by_cases old : first + width < now
    · rw [if_pos (decide_eq_true old), if_neg (by simpa using old)]
      exact ih sorted
    · rw [if_neg (by simpa using old), if_pos (by simpa using old), eq_comm, List.cons_inj_right, List.filter_eq_self]
      intro event there
      rw [decide_eq_true_eq]
      exact (not_lt.mp old).trans (add_le_add_left (least event there) width)

theorem recent_recent {seen : τ} (le : seen ≤ now) : recent width now (recent width seen log) = recent width now log := by
  rw [recent, recent, List.filter_filter, recent]
  refine List.filter_congr fun event _ => ?_
  rw [← Bool.decide_and, decide_eq_decide]
  exact and_iff_left_of_imp le.trans

end

end Boom.Foundations
