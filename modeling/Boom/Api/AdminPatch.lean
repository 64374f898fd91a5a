import Boom.Api.Acls
import Boom.Foundations.Collection
import Boom.Foundations.Requests

/-! # Patching a user's access

An admin grants or revokes another user's admin status and ACLs.  A request that takes
admin status away runs under a lock, from before it reads the user until after it wrote.
A delta of ACLs is written under the condition that the list is still the one it was
computed from, and computed again if it is not.

`AdminRequest.act` is the next database operation of a request and what follows from its
answer; `adminRules` are the steps of any number of requests over one database.  Times
are in milliseconds. -/

namespace Boom.Api

open Boom.Foundations

/-! ## The database -/

structure Account where
  isAdmin : Bool
  acls : StoredAcls
deriving DecidableEq, Repr

/-- An account as it is read. -/
structure CurrentUser where
  isAdmin : Bool
  acls : List BabamulAcl
deriving DecidableEq, Repr

def Account.read (account : Account) : Option CurrentUser :=
  account.acls.read.map fun acls => ⟨account.isAdmin, acls⟩

structure AdminUserPatch where
  isAdmin : Option Bool
  acls : Option (List BabamulAcl)
  grantAcls : Option (List BabamulAcl)
  revokeAcls : Option (List BabamulAcl)
deriving DecidableEq, Repr

structure DemotionLock where
  expiresAt : Nat
  token : Nat
deriving DecidableEq, Repr

structure Deployment where
  users : Collection String Account
  lock : Option DemotionLock
  now : Nat
  /-- The updates that matched a user, the first one first. -/
  updates : List (Nat × String × AdminUserPatch)

def demotionLockMillis : Nat := 60000

def demotionDeadline : Nat := 20000

def demotionLockWait : Nat := 2000

def aclWriteAttempts : Nat := 3

namespace Deployment

def countAdmins (deployment : Deployment) : Nat :=
  deployment.users.entries.countP fun entry => entry.2.isAdmin

def lockFree (deployment : Deployment) : Bool :=
  deployment.lock.all fun lock => lock.expiresAt < deployment.now

def releaseDemotionLock (deployment : Deployment) (token : Nat) : Deployment :=
  { deployment with lock := deployment.lock.map fun lock => if lock.token = token then { lock with expiresAt := 0 } else lock }

end Deployment

/-! ## A request -/

inductive Answer where
  | success
  | badRequest (message : String)
  | notFound
  | conflict (message : String)
  | requestTimeout
  | internalError
deriving DecidableEq, Repr

inductive Phase where
  | locking
  | reading
  | counting (current : CurrentUser)
  /-- At the top of the loop, before the update is sent. -/
  | deciding (attempt : Nat) (current : CurrentUser)
  | writing (attempt : Nat) (current : CurrentUser) (next : Option (List BabamulAcl))
  | rereading (attempt : Nat)
  | releasing (answer : Answer)
  | answered (answer : Answer)
deriving DecidableEq, Repr

structure Held where
  lockedAt : Nat
  lease : Nat
deriving DecidableEq, Repr

structure AdminRequest where
  admin : String
  userId : String
  patch : AdminUserPatch
  giveUp : Nat
  locked : Option Held
  phase : Phase
  alive : Bool
deriving DecidableEq, Repr

namespace AdminUserPatch

def grant (patch : AdminUserPatch) : List BabamulAcl := patch.grantAcls.getD []

def revoke (patch : AdminUserPatch) : List BabamulAcl := patch.revokeAcls.getD []

def delta (patch : AdminUserPatch) : Bool := !patch.grant.isEmpty || !patch.revoke.isEmpty

def nextAcls (patch : AdminUserPatch) (current : List BabamulAcl) : Except String (Option (List BabamulAcl)) :=
  match patch.acls with
  | some acls => (normalizeAcls acls).map some
  | none => if patch.delta then (applyAclDelta current patch.grant patch.revoke).map some else .ok none

def writesNothing (patch : AdminUserPatch) (next : Option (List BabamulAcl)) : Bool :=
  patch.isAdmin.isNone && next.isNone

def applied (patch : AdminUserPatch) (next : Option (List BabamulAcl)) (account : Account) : Account where
  isAdmin := patch.isAdmin.getD account.isAdmin
  acls := next.elim account.acls .list

end AdminUserPatch

def wouldOrphan (patchIsAdmin : Option Bool) (targetIsAdmin : Bool) (admins : Nat) : Bool :=
  patchIsAdmin == some false && targetIsAdmin && decide (admins ≤ 1)

namespace AdminRequest

def arrives (admin userId : String) (patch : AdminUserPatch) (now : Nat) : AdminRequest where
  admin := admin
  userId := userId
  patch := patch
  giveUp := now + demotionLockWait
  locked := none
  phase :=
    if userId = admin ∧ patch.isAdmin = some false then
      .answered (.badRequest "You cannot remove your own admin status")
    else if patch.isAdmin = some false then .locking
    else .reading
  alive := true

def go (request : AdminRequest) (phase : Phase) : AdminRequest := { request with phase := phase }

def finish (request : AdminRequest) (answer : Answer) : AdminRequest :=
  request.go (if request.locked.isSome then .releasing answer else .answered answer)

def demoting (request : AdminRequest) (current : CurrentUser) : Bool := request.locked.isSome && current.isAdmin

def begin (request : AdminRequest) (current : CurrentUser) : AdminRequest :=
  if request.patch.acls.isSome && !(request.patch.grant.isEmpty && request.patch.revoke.isEmpty) then
    request.finish (.badRequest ("send either acls or grant_acls/revoke_acls, not both: replacing the list and " ++
      "editing it mean different things when two admins edit one user at once"))
  else if request.demoting current then request.go (.counting current)
  else request.go (.deciding 1 current)

def tooLate (request : AdminRequest) (now : Nat) : Bool :=
  request.locked.any fun held => demotionDeadline < now - held.lockedAt

def decides (request : AdminRequest) (now attempt : Nat) (current : CurrentUser) : AdminRequest :=
  if request.tooLate now then request.finish .requestTimeout
  else
    match request.patch.nextAcls current.acls with
    | .error message => request.finish (.badRequest message)
    | .ok next => request.go (.writing attempt current next)

def selects (request : AdminRequest) (current : CurrentUser) (account : Account) : Bool :=
  !request.patch.delta || matchingAcls current.acls account.acls

def unmatched (request : AdminRequest) (attempt : Nat) : AdminRequest :=
  if request.patch.delta then
    if attempt < aclWriteAttempts then request.go (.rereading attempt)
    else request.finish (.conflict "Another admin kept changing this user's access. Reload and try again.")
  else request.finish .notFound

def written (deployment : Deployment) (slot : Nat) (request : AdminRequest) (current : CurrentUser)
    (next : Option (List BabamulAcl)) : Deployment :=
  { deployment with
    users := deployment.users.updateOne request.userId (request.selects current) (request.patch.applied next)
    updates := deployment.updates ++ [(slot, request.userId, request.patch)] }

/-- The next operation of a request. -/
def act (slot : Nat) (deployment : Deployment) (request : AdminRequest) : Deployment × AdminRequest :=
  match request.phase with
  | .locking =>
    if deployment.lockFree then
      let lease := deployment.now + demotionLockMillis
      ({ deployment with lock := some ⟨lease, slot⟩ },
        { request with locked := some ⟨deployment.now, lease⟩, phase := .reading })
    else if request.giveUp ≤ deployment.now then
      (deployment, request.finish
        (.conflict "Another admin's access is being changed right now. Try again in a moment."))
    else (deployment, request)
  | .reading =>
    match deployment.users.get request.userId with
    | none => (deployment, request.finish .notFound)
    | some account => (deployment, account.read.elim (request.finish .internalError) request.begin)
  | .counting current =>
    if wouldOrphan request.patch.isAdmin current.isAdmin deployment.countAdmins then
      (deployment, request.finish (.conflict ("This is the deployment's last admin. Appoint another one first, or " ++
        "nobody will be able to manage users.")))
    else (deployment, request.go (.deciding 1 current))
  | .deciding attempt current => (deployment, request.decides deployment.now attempt current)
  | .writing attempt current next =>
    if request.patch.writesNothing next then (deployment, request.finish .success)
    else if deployment.users.matches? request.userId (request.selects current) then
      (written deployment slot request current next, request.finish .success)
    else (deployment, request.unmatched attempt)
  | .rereading attempt =>
    match deployment.users.get request.userId with
    | none => (deployment, request.finish .notFound)
    | some account =>
      (deployment, account.read.elim (request.finish .internalError) fun fresh => request.go (.deciding (attempt + 1) fresh))
  | .releasing answer => (deployment.releaseDemotionLock slot, request.go (.answered answer))
  | .answered _ => (deployment, request)

def isWriting (request : AdminRequest) : Bool :=
  match request.phase with
  | .writing _ _ _ => true
  | _ => false

def fails (request : AdminRequest) : AdminRequest :=
  match request.phase with
  | .releasing answer | .answered answer => request.go (.answered answer)
  | _ => request.finish .internalError

def inTime (request : AdminRequest) (now : Nat) : Prop :=
  request.isWriting = true → ∀ held ∈ request.locked, now ≤ held.lease

end AdminRequest

instance (request : AdminRequest) (now : Nat) : Decidable (request.inTime now) :=
  inferInstanceAs (Decidable (request.isWriting = true → ∀ held ∈ request.locked, now ≤ held.lease))

inductive AdminActs (slot : Nat) (deployment : Deployment) (request : AdminRequest) : Deployment → AdminRequest → Prop where
  | proceed : request.alive = true ∨ request.isWriting = true → request.inTime deployment.now →
      AdminActs slot deployment request (request.act slot deployment).1 (request.act slot deployment).2
  | fail : request.alive = true → AdminActs slot deployment request deployment request.fails
  | crash : AdminActs slot deployment request deployment { request with alive := false }

/-- Time passes, and people sign up. -/
inductive AdminOutside (deployment : Deployment) : Deployment → Prop where
  | tick {later : Nat} : deployment.now ≤ later → AdminOutside deployment { deployment with now := later }
  | signUp {id : String} {account : Account} {users : Collection String Account} :
      deployment.users.insertOne id account = some users → account = ⟨false, .list []⟩ →
      AdminOutside deployment { deployment with users := users }

def adminRules : Requests.Rules Deployment AdminRequest where
  starts _ deployment request := ∃ admin userId patch, request = .arrives admin userId patch deployment.now
  acts := AdminActs
  outside := AdminOutside

theorem act_deployment (slot : Nat) (deployment : Deployment) (request : AdminRequest) :
    (request.act slot deployment).1 = deployment ∨
      (request.phase = .locking ∧ deployment.lockFree = true ∧ (request.act slot deployment).1 =
        { deployment with lock := some ⟨deployment.now + demotionLockMillis, slot⟩ }) ∨
      (∃ attempt current next, request.phase = .writing attempt current next ∧
        (request.act slot deployment).1 = request.written deployment slot current next) ∨
      (request.act slot deployment).1 = deployment.releaseDemotionLock slot := by
  unfold AdminRequest.act
  cases phase : request.phase with
  | locking =>
    simp only
    split
    next free => exact .inr (.inl ⟨trivial, free, rfl⟩)
    next => split <;> exact .inl rfl
  | reading => simp only; split <;> exact .inl rfl
  | counting current => simp only; split <;> exact .inl rfl
  | deciding attempt current => exact .inl rfl
  | writing attempt current next =>
    simp only
    split
    · exact .inl rfl
    split
    · exact .inr (.inr (.inl ⟨attempt, current, next, rfl, rfl⟩))
    · exact .inl rfl
  | rereading attempt => simp only; split <;> exact .inl rfl
  | releasing answer => exact .inr (.inr (.inr rfl))
  | answered answer => exact .inl rfl

/-! ## Building runs -/

def adminTurn (slot : Nat) (deployment : Deployment) (request : AdminRequest) : Option (Deployment × AdminRequest) :=
  if request.alive = true ∧ request.inTime deployment.now then some (request.act slot deployment) else none

theorem acts_of_adminTurn (slot : Nat) (deployment : Deployment) (request : AdminRequest) (deployment' : Deployment)
    (after : AdminRequest) (turned : adminTurn slot deployment request = some (deployment', after)) :
    adminRules.acts slot deployment request deployment' after := by
  unfold adminTurn at turned
  split at turned
  next may =>
    have acted := Option.some.inj turned
    rw [show deployment' = (request.act slot deployment).1 by rw [acted],
      show after = (request.act slot deployment).2 by rw [acted]]
    exact .proceed (.inl may.1) may.2
  next => cases turned

end Boom.Api
