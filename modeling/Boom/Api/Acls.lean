import Mathlib.Data.List.Sort
import Mathlib.Data.List.Perm.Basic

/-! # Access lists

What an account may see beyond public data, and the two ways an admin edits it: by
replacing the whole list, or by a delta of grants and revocations.  Caltech access
implies partnership access, and no edit leaves a list that breaks this
(`interlocked_normalizeAcls`, `interlocked_applyAclDelta`). -/

namespace Boom.Api

inductive BabamulAcl where
  | winter
  | ztfPartnership
  | ztfCaltech
deriving DecidableEq, Repr

namespace BabamulAcl

def all : List BabamulAcl := [.winter, .ztfPartnership, .ztfCaltech]

def position (acl : BabamulAcl) : Nat := all.idxOf acl

def name : BabamulAcl → String
  | .winter => "Winter"
  | .ztfPartnership => "ZtfPartnership"
  | .ztfCaltech => "ZtfCaltech"

end BabamulAcl

def dedup {α : Type} [DecidableEq α] : List α → List α
  | first :: second :: rest => if first = second then dedup (second :: rest) else first :: dedup (second :: rest)
  | short => short

def normalizeAcls (acls : List BabamulAcl) : Except String (List BabamulAcl) :=
  if acls.contains .ztfCaltech && !acls.contains .ztfPartnership then .error "ztf_caltech requires ztf_partnership"
  else .ok (dedup (acls.mergeSort fun first second => first.position ≤ second.position))

def applyAclDelta (current grant revoke : List BabamulAcl) : Except String (List BabamulAcl) :=
  match grant.find? fun acl => revoke.contains acl with
  | some acl => .error (acl.name ++ " is in both grant_acls and revoke_acls")
  | none =>
    if grant.contains .ztfCaltech && revoke.contains .ztfPartnership then
      .error ("granting ztf_caltech while revoking ztf_partnership asks for a combination that " ++
        "cannot exist: ztf_caltech requires ztf_partnership")
    else
      let next := (current ++ grant).filter fun acl => !revoke.contains acl
      -- without partnership access there is no Caltech access
      let next := if revoke.contains .ztfPartnership then next.filter fun acl => acl != .ztfCaltech else next
      let next := if next.contains .ztfCaltech then next ++ [.ztfPartnership] else next
      normalizeAcls next

/-! ## Stored lists -/

inductive StoredAcls where
  | missing
  | null
  | list (acls : List BabamulAcl)
deriving DecidableEq, Repr

namespace StoredAcls

def read : StoredAcls → Option (List BabamulAcl)
  | .missing => some []
  | .null => none
  | .list acls => some acls

def held (stored : StoredAcls) : List BabamulAcl := stored.read.getD []

end StoredAcls

def matchingAcls (observed : List BabamulAcl) (stored : StoredAcls) : Bool :=
  if observed.isEmpty then stored == .list [] || stored == .null || stored == .missing else stored == .list observed

theorem held_of_matching {observed : List BabamulAcl} {stored : StoredAcls}
    (matched : matchingAcls observed stored = true) : stored.held = observed := by
  cases observed with
  | nil =>
    simp only [matchingAcls, List.isEmpty_nil, if_true, Bool.or_eq_true, beq_iff_eq] at matched
    rcases matched with (rfl | rfl) | rfl <;> rfl
  | cons first rest =>
    simp only [matchingAcls, List.isEmpty_cons, Bool.false_eq_true, if_false, beq_iff_eq] at matched
    subst matched
    rfl

/-! ## The interlock -/

def Interlocked (acls : List BabamulAcl) : Prop :=
  BabamulAcl.ztfCaltech ∈ acls → BabamulAcl.ztfPartnership ∈ acls

@[simp] theorem mem_dedup {α : Type} [DecidableEq α] {item : α} {items : List α} : item ∈ dedup items ↔ item ∈ items := by
  induction items using dedup.induct with
  | case1 second rest ih =>
    simp [dedup, ih]
  | case2 first second rest differs ih =>
    simp [dedup, differs, ih]
  | case3 short notTwo =>
    rw [dedup.eq_def]
    split
    next first second rest => exact absurd rfl (notTwo first second rest)
    next => rfl

theorem mem_normalizeAcls {acls next : List BabamulAcl} (isNext : normalizeAcls acls = .ok next) (acl : BabamulAcl) :
    acl ∈ next ↔ acl ∈ acls := by
  rw [normalizeAcls] at isNext
  split at isNext
  next => cases isNext
  next =>
    cases isNext
    simp

theorem interlocked_normalizeAcls {acls next : List BabamulAcl} (isNext : normalizeAcls acls = .ok next) :
    Interlocked next := by
  intro caltech
  rw [mem_normalizeAcls isNext] at caltech ⊢
  by_contra absent
  simp [normalizeAcls, caltech, absent] at isNext

theorem interlocked_applyAclDelta {current grant revoke next : List BabamulAcl}
    (isNext : applyAclDelta current grant revoke = .ok next) : Interlocked next := by
  rw [applyAclDelta] at isNext
  split at isNext
  next => cases isNext
  next =>
    split at isNext
    next => cases isNext
    next => exact interlocked_normalizeAcls isNext

end Boom.Api
