import Mathlib.Data.List.Basic
import Mathlib.Order.Lattice

/-! # Append-only logs of timestamps

The offset a log is read from to miss nothing at or after a time, and what appending
does not change about it. -/

namespace Boom.Foundations

variable {τ : Type} [LinearOrder τ]

def offsetForTime (log : List τ) (time : τ) : Option Nat :=
  log.findIdx? (time ≤ ·)

/-- Everything before `offset` is older than `time`. -/
structure Precedes (log : List τ) (time : τ) (offset : Nat) : Prop where
  inside : offset ≤ log.length
  older : ∀ index entry, log[index]? = some entry → index < offset → entry < time

variable {log : List τ} {time : τ} {offset : Nat}

theorem Precedes.zero : Precedes log time 0 :=
  ⟨Nat.zero_le _, fun _ _ _ before => absurd before (Nat.not_lt_zero _)⟩

theorem Precedes.offsetForTime (found : offsetForTime log time = some offset) : Precedes log time offset := by
  obtain ⟨inside, _, earlier⟩ := List.findIdx?_eq_some_iff_getElem.mp found
  constructor
  · exact Nat.le_of_lt inside
  · intro index entry there before
    obtain ⟨bound, rfl⟩ := List.getElem?_eq_some_iff.mp there
    simpa using earlier index before

theorem Precedes.length (none : ∀ entry ∈ log, entry < time) : Precedes log time log.length :=
  ⟨Nat.le_refl _, fun _ entry there _ => none entry (List.mem_of_getElem? there)⟩

section

variable (precedes : Precedes log time offset)
include precedes

theorem Precedes.le {index : Nat} {entry : τ}
    (there : log[index]? = some entry) (late : time ≤ entry) : offset ≤ index := by
  by_contra before
  exact absurd (precedes.older index entry there (by omega)) (not_lt.mpr late)

theorem Precedes.le_offsetForTime {found : Nat}
    (first : Boom.Foundations.offsetForTime log time = some found) : offset ≤ found := by
  obtain ⟨inside, late, _⟩ := List.findIdx?_eq_some_iff_getElem.mp first
  exact precedes.le (List.getElem?_eq_getElem inside) (by simpa using late)

theorem Precedes.append (entries : List τ) :
    Precedes (log ++ entries) time offset := by
  constructor
  · rw [List.length_append]
    exact Nat.le_trans precedes.inside (Nat.le_add_right _ _)
  · intro index entry there before
    rw [List.getElem?_append_left (Nat.lt_of_lt_of_le before precedes.inside)] at there
    exact precedes.older index entry there before

theorem Precedes.later {after : τ} (advanced : time ≤ after) :
    Precedes log after offset :=
  ⟨precedes.inside, fun index entry there before => (precedes.older index entry there before).trans_le advanced⟩

end

theorem offsetForTime_eq_none : offsetForTime log time = none ↔ ∀ entry ∈ log, entry < time := by
  simp [offsetForTime]

end Boom.Foundations
