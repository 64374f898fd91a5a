import Boom.Api.AdminPatch

/-! # Concurrent edits of access

Any number of admins edit users at once.  What is stored is always what the updates made
so far give one after another, each delta applied to the list it replaced
(`acl_updates_serialize`): the condition of a delta's update makes its list, computed from
an earlier read, the one computed from what it replaces (`nextAcls_of_selects`). -/

namespace Boom.Api

open Boom.Foundations

def AdminUserPatch.Turns (patch : AdminUserPatch) (before after : Account) : Prop :=
  ∃ next, patch.nextAcls before.acls.held = .ok next ∧ after = patch.applied next before

/-- Updates made one after another. -/
inductive Replays : List AdminUserPatch → Account → Account → Prop where
  | nil (account : Account) : Replays [] account account
  | snoc {patches : List AdminUserPatch} {patch : AdminUserPatch} {first before after : Account} :
      Replays patches first before → patch.Turns before after → Replays (patches ++ [patch]) first after

def patchesOf (updates : List (Nat × String × AdminUserPatch)) (id : String) : List AdminUserPatch :=
  (updates.filter fun update => update.2.1 = id).map fun update => update.2.2

def AdminUserPatch.changes (patch : AdminUserPatch) : Bool :=
  patch.isAdmin.isSome || patch.acls.isSome || patch.delta

def Phase.answer? : Phase → Option Answer
  | .releasing answer | .answered answer => some answer
  | _ => none

/-! ## One update -/

theorem interlocked_nextAcls {patch : AdminUserPatch} {current next : List BabamulAcl}
    (isNext : patch.nextAcls current = .ok (some next)) : Interlocked next := by
  unfold AdminUserPatch.nextAcls at isNext
  split at isNext
  next acls _ =>
    cases normalized : normalizeAcls acls with
    | error message => simp [normalized, Except.map] at isNext
    | ok made =>
      simp only [normalized, Except.map, Except.ok.injEq, Option.some.injEq] at isNext
      exact isNext ▸ interlocked_normalizeAcls normalized
  next =>
    split at isNext
    · cases computed : applyAclDelta current patch.grant patch.revoke with
      | error message => simp [computed, Except.map] at isNext
      | ok made =>
        simp only [computed, Except.map, Except.ok.injEq, Option.some.injEq] at isNext
        exact isNext ▸ interlocked_applyAclDelta computed
    · cases isNext

variable {request : AdminRequest}

theorem nextAcls_of_selects {current : CurrentUser} {account : Account}
    (selected : request.selects current account = true) :
    request.patch.nextAcls account.acls.held = request.patch.nextAcls current.acls := by
  unfold AdminUserPatch.nextAcls
  split
  · rfl
  next =>
    cases delta : request.patch.delta with
    | false => rfl
    | true =>
      simp only [AdminRequest.selects, delta, Bool.not_true, Bool.false_or] at selected
      rw [held_of_matching selected]

theorem writesNothing_of_nextAcls {patch : AdminUserPatch} {current : List BabamulAcl} {next : Option (List BabamulAcl)}
    (isNext : patch.nextAcls current = .ok next) : patch.writesNothing next = !patch.changes := by
  unfold AdminUserPatch.nextAcls at isNext
  unfold AdminUserPatch.writesNothing AdminUserPatch.changes
  split at isNext
  next acls replaces =>
    cases normalized : normalizeAcls acls with
    | error message => simp [normalized, Except.map] at isNext
    | ok made =>
      obtain rfl : some made = next := by simpa [normalized, Except.map] using isNext
      simp [replaces]
  next keeps =>
    split at isNext
    next delta =>
      cases computed : applyAclDelta current patch.grant patch.revoke with
      | error message => simp [computed, Except.map] at isNext
      | ok made =>
        obtain rfl : some made = next := by simpa [computed, Except.map] using isNext
        simp [delta]
    next noDelta =>
      obtain rfl : none = next := by simpa using isNext
      cases patch.isAdmin <;> simp [keeps, noDelta]

/-! ## Invariants -/

structure Serialized (start deployment : Deployment) : Prop where
  replays : ∀ id account, deployment.users.get id = some account →
    Replays (patchesOf deployment.updates id) ((start.users.get id).getD ⟨false, .list []⟩) account
  kept : ∀ id before, start.users.get id = some before → ∃ account, deployment.users.get id = some account
  known : ∀ update ∈ deployment.updates, ∃ account, deployment.users.get update.2.1 = some account
  once : (deployment.updates.map Prod.fst).Nodup
  interlocked : ∀ id account, deployment.users.get id = some account → Interlocked account.acls.held

structure Logged (slot : Nat) (deployment : Deployment) (request : AdminRequest) : Prop where
  next : ∀ attempt current next, request.phase = .writing attempt current next →
    request.patch.nextAcls current.acls = .ok next
  made : request.phase.answer? = some .success → request.patch.changes = true →
    (slot, request.userId, request.patch) ∈ deployment.updates
  unmade : request.phase.answer? ≠ some .success → slot ∉ deployment.updates.map Prod.fst

def LoggedSlot (slot : Nat) (deployment : Deployment) : Option AdminRequest → Prop
  | none => slot ∉ deployment.updates.map Prod.fst
  | some request => Logged slot deployment request

theorem patchesOf_append (updates : List (Nat × String × AdminUserPatch)) (slot : Nat) (userId id : String)
    (patch : AdminUserPatch) : patchesOf (updates ++ [(slot, userId, patch)]) id =
      patchesOf updates id ++ if userId = id then [patch] else [] := by
  by_cases same : userId = id <;> simp [patchesOf, same]

theorem get_written {deployment : Deployment} {current : CurrentUser} {account : Account}
    (slot : Nat) (next : Option (List BabamulAcl)) (stored : deployment.users.get request.userId = some account)
    (selected : request.selects current account = true) (id : String) :
    (request.written deployment slot current next).users.get id =
      if id = request.userId then some (request.patch.applied next account) else deployment.users.get id := by
  by_cases same : id = request.userId
  · subst same
    simp [AdminRequest.written, stored, selected]
  · rw [if_neg same]
    exact Collection.get_updateOne_ne _ same _ _

variable {start deployment : Deployment}

theorem Serialized.write {slot : Nat} {current : CurrentUser}
    {next : Option (List BabamulAcl)} {account : Account} (serialized : Serialized start deployment)
    (stored : deployment.users.get request.userId = some account) (selected : request.selects current account = true)
    (isNext : request.patch.nextAcls current.acls = .ok next) (fresh : slot ∉ deployment.updates.map Prod.fst) :
    Serialized start (request.written deployment slot current next) := by
  have getAfter := get_written slot next stored selected
  have turns : request.patch.Turns account (request.patch.applied next account) :=
    ⟨next, by rw [nextAcls_of_selects selected, isNext], rfl⟩
  constructor
  · intro id after storedAfter
    rw [getAfter] at storedAfter
    rw [show (request.written deployment slot current next).updates =
      deployment.updates ++ [(slot, request.userId, request.patch)] from rfl, patchesOf_append]
    by_cases same : id = request.userId
    · subst same
      rw [if_pos rfl] at storedAfter
      obtain rfl := Option.some.inj storedAfter
      rw [if_pos rfl]
      exact .snoc (serialized.replays _ _ stored) turns
    · rw [if_neg same] at storedAfter
      rw [if_neg (Ne.symm same), List.append_nil]
      exact serialized.replays _ _ storedAfter
  · intro id before storedAtFirst
    obtain ⟨here, storedHere⟩ := serialized.kept id before storedAtFirst
    rw [getAfter]
    split
    · exact ⟨_, rfl⟩
    · exact ⟨here, storedHere⟩
  · intro update made
    rw [getAfter]
    split
    · exact ⟨_, rfl⟩
    next other =>
      rcases List.mem_append.mp made with earlier | now
      · exact serialized.known update earlier
      · obtain rfl := List.mem_singleton.mp now
        exact absurd rfl other
  · show ((deployment.updates ++ [(slot, request.userId, request.patch)]).map Prod.fst).Nodup
    rw [List.map_append, List.nodup_append]
    refine ⟨serialized.once, by simp, ?_⟩
    rintro earlier member last single rfl
    obtain rfl : earlier = slot := by simpa using single
    exact fresh member
  · intro id after storedAfter
    rw [getAfter] at storedAfter
    by_cases same : id = request.userId
    · rw [if_pos same] at storedAfter
      obtain rfl := Option.some.inj storedAfter
      cases next with
      | none =>
        show Interlocked account.acls.held
        exact serialized.interlocked _ _ stored
      | some acls => exact interlocked_nextAcls isNext
    · rw [if_neg same] at storedAfter
      exact serialized.interlocked _ _ storedAfter

theorem Serialized.signUp {id : String} {users : Collection String Account} (serialized : Serialized start deployment)
    (inserted : deployment.users.insertOne id ⟨false, .list []⟩ = some users) :
    Serialized start { deployment with users := users } := by
  have absent := Collection.absent_of_insertOne inserted
  have getAfter := Collection.get_insertOne inserted
  constructor
  · intro other account stored
    rw [getAfter] at stored
    by_cases same : other = id
    · subst same
      rw [if_pos rfl] at stored
      obtain rfl := Option.some.inj stored
      have new : start.users.get other = none := by
        cases before : start.users.get other with
        | none => rfl
        | some account =>
          obtain ⟨_, still⟩ := serialized.kept other account before
          rw [absent] at still
          cases still
      -- nobody updated an account that was not there
      have untouched : patchesOf deployment.updates other = [] := by
        simp only [patchesOf, List.map_eq_nil_iff, List.filter_eq_nil_iff, decide_eq_true_eq]
        rintro update made rfl
        obtain ⟨_, still⟩ := serialized.known update made
        rw [absent] at still
        cases still
      rw [untouched, new]
      exact .nil _
    · rw [if_neg same] at stored
      exact serialized.replays _ _ stored
  · intro other before storedAtFirst
    rw [getAfter]
    split
    · exact ⟨_, rfl⟩
    · exact serialized.kept other before storedAtFirst
  · intro update made
    rw [getAfter]
    split
    · exact ⟨_, rfl⟩
    · exact serialized.known update made
  · exact serialized.once
  · intro other account stored
    rw [getAfter] at stored
    by_cases same : other = id
    · rw [if_pos same] at stored
      obtain rfl := Option.some.inj stored
      simp [Interlocked, StoredAcls.held, StoredAcls.read]
    · rw [if_neg same] at stored
      exact serialized.interlocked _ _ stored

/-! ## A request and its update -/

namespace Logged

variable {slot : Nat} {deployment : Deployment} {request : AdminRequest}

section

variable (logged : Logged slot deployment request)
include logged

theorem go {phase : Phase} (unanswered : request.phase.answer? = none) (failing : phase.answer? ≠ some .success)
    (next : ∀ attempt current next, phase = .writing attempt current next →
      request.patch.nextAcls current.acls = .ok next) : Logged slot deployment (request.go phase) where
  next := next
  made := fun success => absurd success failing
  unmade := fun _ => logged.unmade (by simp [unanswered])

theorem finish {answer : Answer} (unanswered : request.phase.answer? = none)
    (failing : answer ≠ .success) : Logged slot deployment (request.finish answer) := by
  apply logged.go unanswered
  · split <;> simpa [Phase.answer?] using failing
  · intro attempt current next writing
    split at writing <;> cases writing

theorem begin (unanswered : request.phase.answer? = none)
    (current : CurrentUser) : Logged slot deployment (request.begin current) := by
  unfold AdminRequest.begin
  split
  · exact logged.finish unanswered (by simp)
  split
  · exact logged.go unanswered (by simp [Phase.answer?]) (fun _ _ _ writing => by cases writing)
  · exact logged.go unanswered (by simp [Phase.answer?]) (fun _ _ _ writing => by cases writing)

theorem decides (unanswered : request.phase.answer? = none) (now attempt : Nat)
    (current : CurrentUser) : Logged slot deployment (request.decides now attempt current) := by
  unfold AdminRequest.decides
  split
  · exact logged.finish unanswered (by simp)
  split
  · exact logged.finish unanswered (by simp)
  next next isNext =>
    apply logged.go unanswered (by simp [Phase.answer?])
    intro _ _ _ writing
    cases writing
    exact isNext

theorem unmatched (unanswered : request.phase.answer? = none) (attempt : Nat) :
    Logged slot deployment (request.unmatched attempt) := by
  unfold AdminRequest.unmatched
  split
  · split
    · exact logged.go unanswered (by simp [Phase.answer?]) (fun _ _ _ writing => by cases writing)
    · exact logged.finish unanswered (by simp)
  · exact logged.finish unanswered (by simp)

theorem answer {answer : Answer} (answered : request.phase.answer? = some answer) :
    Logged slot deployment (request.go (.answered answer)) where
  next := fun _ _ _ writing => by cases writing
  made := fun success changes => by
    apply logged.made _ changes
    rw [answered]
    exact success
  unmade := fun failing => by
    apply logged.unmade
    rw [answered]
    exact failing

theorem fails : Logged slot deployment request.fails := by
  unfold AdminRequest.fails
  split
  next answer phase => exact logged.answer (by simp [phase, Phase.answer?])
  next answer phase => exact logged.answer (by simp [phase, Phase.answer?])
  next notReleasing notAnswered =>
    apply logged.finish _ (by simp)
    unfold Phase.answer?
    split
    next answer phase => exact absurd phase (notReleasing answer)
    next answer phase => exact absurd phase (notAnswered answer)
    next => rfl

end

end Logged

@[simp] theorem answer?_finish (request : AdminRequest) (answer : Answer) :
    (request.finish answer).phase.answer? = some answer := by
  unfold AdminRequest.finish AdminRequest.go
  split <;> rfl

theorem finish_ne_writing (request : AdminRequest) (answer : Answer) (attempt : Nat) (current : CurrentUser)
    (next : Option (List BabamulAcl)) : (request.finish answer).phase ≠ .writing attempt current next := by
  unfold AdminRequest.finish AdminRequest.go
  split <;> simp

/-- The next operation of a request. -/
theorem logged_act {slot : Nat} (serialized : Serialized start deployment) (logged : Logged slot deployment request) :
    Serialized start (request.act slot deployment).1 ∧
      Logged slot (request.act slot deployment).1 (request.act slot deployment).2 := by
  unfold AdminRequest.act
  cases phase : request.phase with
  | locking =>
    have unanswered : request.phase.answer? = none := by simp [phase, Phase.answer?]
    simp only
    split
    · have unmade := logged.unmade (by simp [unanswered])
      refine ⟨⟨serialized.replays, serialized.kept, serialized.known, serialized.once, serialized.interlocked⟩, ?_⟩
      exact ⟨fun _ _ _ writing => (by cases writing), fun success => (by cases success), fun _ => unmade⟩
    split
    · exact ⟨serialized, logged.finish unanswered (by simp)⟩
    · exact ⟨serialized, logged⟩
  | reading =>
    have unanswered : request.phase.answer? = none := by simp [phase, Phase.answer?]
    simp only
    split
    · exact ⟨serialized, logged.finish unanswered (by simp)⟩
    next account stored =>
      cases account.read with
      | none => exact ⟨serialized, logged.finish unanswered (by simp)⟩
      | some current => exact ⟨serialized, logged.begin unanswered current⟩
  | counting current =>
    have unanswered : request.phase.answer? = none := by simp [phase, Phase.answer?]
    simp only
    split
    · exact ⟨serialized, logged.finish unanswered (by simp)⟩
    · exact ⟨serialized, logged.go unanswered (by simp [Phase.answer?]) fun _ _ _ writing => by cases writing⟩
  | deciding attempt current =>
    exact ⟨serialized, logged.decides (by simp [phase, Phase.answer?]) _ _ _⟩
  | writing attempt current next =>
    have unanswered : request.phase.answer? = none := by simp [phase, Phase.answer?]
    have isNext := logged.next attempt current next phase
    have unmade := logged.unmade (by simp [unanswered])
    simp only
    split
    next nothing =>
      -- success without an update: the patch asks for no change
      rw [writesNothing_of_nextAcls isNext] at nothing
      refine ⟨serialized, ?_, ?_, ?_⟩
      · exact fun _ _ _ writing => absurd writing (finish_ne_writing _ _ _ _ _)
      · intro _ changes
        have changes : request.patch.changes = true := changes
        simp [changes] at nothing
      · exact fun failing => absurd (answer?_finish _ _) failing
    split
    next matched =>
      obtain ⟨account, stored, selected⟩ := (Option.any_eq_true _ _).mp matched
      refine ⟨serialized.write stored selected isNext unmade, ?_, ?_, ?_⟩
      · exact fun _ _ _ writing => absurd writing (finish_ne_writing _ _ _ _ _)
      · intro _ _
        exact List.mem_append_right _ (List.mem_singleton.mpr rfl)
      · exact fun failing => absurd (answer?_finish _ _) failing
    · exact ⟨serialized, logged.unmatched unanswered attempt⟩
  | rereading attempt =>
    have unanswered : request.phase.answer? = none := by simp [phase, Phase.answer?]
    simp only
    split
    · exact ⟨serialized, logged.finish unanswered (by simp)⟩
    next account stored =>
      cases account.read with
      | none => exact ⟨serialized, logged.finish unanswered (by simp)⟩
      | some fresh =>
        exact ⟨serialized, logged.go unanswered (by simp [Phase.answer?]) fun _ _ _ writing => by cases writing⟩
  | releasing answer =>
    have answered : request.phase.answer? = some answer := by simp [phase, Phase.answer?]
    have decided := logged.answer answered
    exact ⟨⟨serialized.replays, serialized.kept, serialized.known, serialized.once, serialized.interlocked⟩,
      ⟨decided.next, decided.made, decided.unmade⟩⟩
  | answered answer => exact ⟨serialized, logged⟩

theorem updates_act (slot : Nat) (deployment : Deployment) (request : AdminRequest) :
    (request.act slot deployment).1.updates = deployment.updates ∨
      (request.act slot deployment).1.updates = deployment.updates ++ [(slot, request.userId, request.patch)] := by
  rcases act_deployment slot deployment request with same | ⟨_, _, taken⟩ | ⟨_, _, _, _, wrote⟩ | released
  · exact .inl (by rw [same])
  · exact .inl (by rw [taken])
  · exact .inr (by rw [wrote, AdminRequest.written])
  · exact .inl (by rw [released, Deployment.releaseDemotionLock])

theorem LoggedSlot.frame {slot : Nat} {deployment after : Deployment} {request : Option AdminRequest}
    (before : LoggedSlot slot deployment request) (grows : deployment.updates ⊆ after.updates)
    (own : slot ∈ after.updates.map Prod.fst → slot ∈ deployment.updates.map Prod.fst) : LoggedSlot slot after request := by
  cases request with
  | none => exact fun made => before (own made)
  | some request =>
    exact ⟨before.next, fun success changes => grows (before.made success changes), fun failing made =>
      before.unmade failing (own made)⟩

/-! ## Runs -/

theorem acls_kept (start : Deployment) : Requests.Kept adminRules (Serialized start) LoggedSlot where
  starts := by
    rintro slot deployment _ _ unmade ⟨admin, userId, patch, rfl⟩
    have failing : (AdminRequest.arrives admin userId patch deployment.now).phase.answer? ≠ some .success := by
      unfold AdminRequest.arrives
      simp only
      split
      · simp [Phase.answer?]
      · split <;> simp [Phase.answer?]
    refine ⟨?_, fun success => absurd success failing, fun _ => unmade⟩
    intro attempt current next writing
    unfold AdminRequest.arrives at writing
    simp only at writing
    split at writing
    · cases writing
    · split at writing <;> cases writing
  acts := by
    intro slot deployment request deployment' after serialized logged acted
    cases acted with
    | proceed => exact logged_act serialized logged
    | fail => exact ⟨serialized, Logged.fails logged⟩
    | crash => exact ⟨serialized, logged.next, logged.made, logged.unmade⟩
  others := by
    intro slot deployment request deployment' after _ _ acted other bystander differs before
    cases acted with
    | proceed =>
      rcases updates_act slot deployment request with same | more
      · exact before.frame (by rw [same]; exact List.Subset.refl _) (by rw [same]; exact id)
      · apply before.frame
        · rw [more]
          exact List.subset_append_left _ _
        · rw [more]
          simp [differs]
    | fail => exact before
    | crash => exact before
  outside := by
    intro deployment _ serialized moved
    cases moved with
    | tick =>
      refine ⟨⟨serialized.replays, serialized.kept, serialized.known, serialized.once, serialized.interlocked⟩, ?_⟩
      exact fun slot request before => before.frame (List.Subset.refl _) id
    | signUp inserted same =>
      subst same
      refine ⟨serialized.signUp inserted, ?_⟩
      exact fun slot request before => before.frame (List.Subset.refl _) id

def grantWinter : AdminUserPatch := ⟨none, none, some [.winter], none⟩

def revokeWinter : AdminUserPatch := ⟨none, none, none, some [.winter]⟩

def oldAccount : Deployment where
  users := ⟨[("bob", ⟨false, .missing⟩)], by decide⟩
  lock := none
  now := 1
  updates := []

def concurrentDeltas : Requests Deployment AdminRequest :=
  (((⟨oldAccount, fun _ => none⟩ : Requests Deployment AdminRequest).put 0 oldAccount
    (.arrives "ada" "bob" grantWinter 1)).put 1 oldAccount (.arrives "eve" "bob" revokeWinter 1)).schedule
      adminTurn [0, 1, 0, 1, 0, 1, 1, 1, 1]

end Boom.Api
