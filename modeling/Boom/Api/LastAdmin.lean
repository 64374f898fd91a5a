import Boom.Api.AdminPatch

/-! # The last admin

A demotion counts the admins and writes under a lock, so that no other demotion comes
between.  The lock is a lease: one whose holder crashed passes on by itself, and one whose
holder is slow must not pass on before its write.

`Guarded` is the invariant of a request.  While its lease lasts the lock is its own, and
once it has counted there is an admin besides the user it writes. -/

namespace Boom.Api

open Boom.Foundations

def IsAdmin (deployment : Deployment) (id : String) : Prop :=
  ∃ account, deployment.users.get id = some account ∧ account.isAdmin = true

def Phase.inLoop : Phase → Bool
  | .deciding _ _ | .writing _ _ _ | .rereading _ => true
  | _ => false

namespace AdminRequest

def Leases (request : AdminRequest) (now : Nat) (held : Held) : Prop :=
  request.locked = some held ∧ now ≤ held.lease ∧ ∀ answer, request.phase ≠ .answered answer

def HoldsLock (request : AdminRequest) (now : Nat) : Prop :=
  request.alive = true ∧ ∃ held, request.Leases now held

structure Counted (request : AdminRequest) (deployment : Deployment) : Prop where
  target : ∀ current, request.phase = .counting current → current.isAdmin = true ∧ IsAdmin deployment request.userId
  another : request.phase.inLoop = true → ∃ other, other ≠ request.userId ∧ IsAdmin deployment other

end AdminRequest

/-- The invariant of a request. -/
structure Guarded (slot : Nat) (deployment : Deployment) (request : AdminRequest) : Prop where
  demotes : request.locked.isSome = true → request.patch.isAdmin = some false
  unlocked : request.patch.isAdmin = some false → request.locked = none →
    request.phase = .locking ∨ ∃ answer, request.phase = .answered answer
  locking : request.phase = .locking → request.patch.isAdmin = some false ∧ request.locked = none
  lease : ∀ held, request.Leases deployment.now held → deployment.lock = some ⟨held.lease, slot⟩
  counted : ∀ held, request.Leases deployment.now held → request.Counted deployment

/-! ## Admins -/

variable {deployment : Deployment}

theorem another_of_count (id : String) (two : ¬ deployment.countAdmins ≤ 1) :
    ∃ other, other ≠ id ∧ IsAdmin deployment other := by
  by_contra nobody
  push Not at nobody
  apply two
  have onlyId : ∀ entry ∈ deployment.users.entries, entry.2.isAdmin = true → entry.1 = id := by
    intro entry member admin
    by_contra differs
    exact nobody entry.1 differs ⟨entry.2, Collection.mem_entries_iff.mp member, admin⟩
  have count : deployment.countAdmins ≤ (deployment.users.entries.map Prod.fst).count id := by
    rw [List.count_eq_countP, List.countP_map]
    apply List.countP_mono_left
    intro entry member admin
    simpa using onlyId entry member admin
  exact Nat.le_trans count (List.nodup_iff_count_le_one.mp deployment.users.unique id)

variable {slot : Nat} {request : AdminRequest} {current : CurrentUser} {next : Option (List BabamulAcl)}

theorem isAdmin_written_ne {id : String} (differs : id ≠ request.userId) (admin : IsAdmin deployment id) :
    IsAdmin (request.written deployment slot current next) id := by
  obtain ⟨account, stored, isAdmin⟩ := admin
  refine ⟨account, ?_, isAdmin⟩
  rw [AdminRequest.written, Collection.get_updateOne_ne _ differs, stored]

theorem isAdmin_written {id : String} (grants : request.patch.isAdmin ≠ some false)
    (admin : IsAdmin deployment id) : IsAdmin (request.written deployment slot current next) id := by
  by_cases same : id = request.userId
  · subst same
    obtain ⟨account, stored, isAdmin⟩ := admin
    cases selected : request.selects current account with
    | false => exact ⟨account, by simp [AdminRequest.written, stored, selected], isAdmin⟩
    | true =>
      refine ⟨request.patch.applied next account, by simp [AdminRequest.written, stored, selected], ?_⟩
      cases patched : request.patch.isAdmin with
      | none => simpa [AdminUserPatch.applied, patched] using isAdmin
      | some isAdmin => cases isAdmin <;> simp_all [AdminUserPatch.applied]
  · exact isAdmin_written_ne same admin

theorem IsAdmin.signUp {id : String} (admin : IsAdmin deployment id) {user : String}
    {account : Account} {users : Collection String Account}
    (inserted : deployment.users.insertOne user account = some users) : IsAdmin { deployment with users := users } id := by
  obtain ⟨known, stored, isAdmin⟩ := admin
  refine ⟨known, ?_, isAdmin⟩
  have differs : id ≠ user := by
    rintro rfl
    rw [Collection.absent_of_insertOne inserted] at stored
    cases stored
  rw [Collection.get_insertOne inserted, if_neg differs, stored]

/-! ## A request and its lock -/

namespace Guarded

variable {slot : Nat} {deployment : Deployment} {request : AdminRequest}

section

variable (guarded : Guarded slot deployment request)
include guarded

theorem locked (demotes : request.patch.isAdmin = some false)
    (notLocking : request.phase ≠ .locking) (notAnswered : ∀ answer, request.phase ≠ .answered answer) :
    ∃ held, request.locked = some held := by
  cases isHeld : request.locked with
  | some held => exact ⟨held, rfl⟩
  | none =>
    rcases guarded.unlocked demotes isHeld with locking | ⟨answer, answered⟩
    · exact absurd locking notLocking
    · exact absurd answered (notAnswered answer)

theorem go {phase : Phase} (notBack : phase ≠ .locking) (notAnswered : ∀ answer, request.phase ≠ .answered answer)
    (unlocked : request.patch.isAdmin = some false → request.locked = none →
      phase = .locking ∨ ∃ answer, phase = .answered answer)
    (counted : ∀ held, request.Leases deployment.now held → (request.go phase).Counted deployment) :
    Guarded slot deployment (request.go phase) where
  demotes := guarded.demotes
  unlocked := unlocked
  locking := fun back => absurd back notBack
  lease := fun held leases => guarded.lease held ⟨leases.1, leases.2.1, notAnswered⟩
  counted := fun held leases => counted held ⟨leases.1, leases.2.1, notAnswered⟩

theorem finish (answer : Answer)
    (notAnswered : ∀ answer, request.phase ≠ .answered answer) : Guarded slot deployment (request.finish answer) := by
  apply guarded.go (by split <;> simp) notAnswered
  · intro _ free
    simp [free]
  · intro held leases
    constructor <;> simp [AdminRequest.go, leases.1, Phase.inLoop]

theorem goOn {phase : Phase} (notBack : phase ≠ .locking) (notLocking : request.phase ≠ .locking)
    (notAnswered : ∀ answer, request.phase ≠ .answered answer)
    (counted : ∀ held, request.Leases deployment.now held → (request.go phase).Counted deployment) :
    Guarded slot deployment (request.go phase) := by
  apply guarded.go notBack notAnswered
  · intro demotes free
    obtain ⟨held, isHeld⟩ := guarded.locked demotes notLocking notAnswered
    rw [free] at isHeld
    cases isHeld
  · exact counted

theorem frame {after : Deployment} (later : deployment.now ≤ after.now)
    (sameLock : ∀ held, request.Leases deployment.now held → after.lock = deployment.lock)
    (grows : ∀ held, request.Leases deployment.now held → ∀ id, IsAdmin deployment id → IsAdmin after id) :
    Guarded slot after request where
  demotes := guarded.demotes
  unlocked := guarded.unlocked
  locking := guarded.locking
  lease := fun held leases => by
    have before : request.Leases deployment.now held := ⟨leases.1, by have := leases.2.1; omega, leases.2.2⟩
    rw [sameLock held before, guarded.lease held before]
  counted := fun held leases => by
    have before : request.Leases deployment.now held := ⟨leases.1, by have := leases.2.1; omega, leases.2.2⟩
    have counted := guarded.counted held before
    have grows := grows held before
    constructor
    · intro current counting
      exact ⟨(counted.target current counting).1, grows _ (counted.target current counting).2⟩
    · intro inLoop
      obtain ⟨other, differs, admin⟩ := counted.another inLoop
      exact ⟨other, differs, grows _ admin⟩

theorem take (locking : request.phase = .locking) :
    Guarded slot { deployment with lock := some ⟨deployment.now + demotionLockMillis, slot⟩ }
      { request with locked := some ⟨deployment.now, deployment.now + demotionLockMillis⟩, phase := .reading } where
  demotes := fun _ => (guarded.locking locking).1
  unlocked := fun _ free => by cases free
  locking := fun back => by cases back
  lease := fun held leases => by
    obtain rfl := Option.some.inj leases.1
    rfl
  counted := fun held leases => by constructor <;> simp [Phase.inLoop]

theorem begin (reading : request.phase = .reading) {account : Account}
    (stored : deployment.users.get request.userId = some account)
    (isRead : account.read = some current) (someAdmin : ∃ id, IsAdmin deployment id) :
    Guarded slot deployment (request.begin current) := by
  obtain ⟨acls, _, rfl⟩ := Option.map_eq_some_iff.mp isRead
  have notAnswered : ∀ answer, request.phase ≠ .answered answer := by simp [reading]
  unfold AdminRequest.begin
  split
  · exact guarded.finish _ notAnswered
  split
  next demoting =>
    apply guarded.goOn (by simp) (by simp [reading]) notAnswered
    intro held _
    have isAdmin : account.isAdmin = true := by
      simp only [AdminRequest.demoting, Bool.and_eq_true] at demoting
      exact demoting.2
    constructor
    · intro other same
      obtain rfl := Phase.counting.inj same
      exact ⟨isAdmin, account, stored, isAdmin⟩
    · simp [AdminRequest.go, Phase.inLoop]
  next notDemoting =>
    apply guarded.goOn (by simp) (by simp [reading]) notAnswered
    intro held leases
    constructor
    · simp [AdminRequest.go]
    · intro _
      obtain ⟨id, admin⟩ := someAdmin
      refine ⟨id, ?_, admin⟩
      -- the user is none of the admins there are
      rintro rfl
      obtain ⟨other, same, isAdmin⟩ := admin
      obtain rfl := Option.some.inj (stored.symm.trans same)
      simp [AdminRequest.demoting, leases.1, isAdmin] at notDemoting

theorem count (counting : request.phase = .counting current)
    (keeps : wouldOrphan request.patch.isAdmin current.isAdmin deployment.countAdmins = false) :
    Guarded slot deployment (request.go (.deciding 1 current)) := by
  apply guarded.goOn (by simp) (by simp [counting]) (by simp [counting])
  intro held leases
  have target := (guarded.counted held leases).target current counting
  have demotes := guarded.demotes (by simp [leases.1])
  constructor
  · simp [AdminRequest.go]
  · intro _
    apply another_of_count
    simpa [wouldOrphan, demotes, target.1] using keeps

theorem around {phase : Phase} (here : request.phase.inLoop = true)
    (there : phase.inLoop = true) : Guarded slot deployment (request.go phase) := by
  apply guarded.goOn
  · rintro rfl
    cases there
  · intro locking
    rw [locking] at here
    cases here
  · intro answer answered
    rw [answered] at here
    cases here
  · intro held leases
    constructor
    · rintro current same
      rw [show phase = .counting current from same] at there
      cases there
    · exact fun _ => (guarded.counted held leases).another here

theorem finishLoop (answer : Answer) (here : request.phase.inLoop = true) :
    Guarded slot deployment (request.finish answer) := by
  apply guarded.finish
  intro other answered
  rw [answered] at here
  cases here

theorem decides {attempt : Nat}
    (here : request.phase.inLoop = true) (now : Nat) : Guarded slot deployment (request.decides now attempt current) := by
  unfold AdminRequest.decides
  split
  · exact guarded.finishLoop _ here
  split
  · exact guarded.finishLoop _ here
  · exact guarded.around here rfl

theorem unmatched (attempt : Nat) (here : request.phase.inLoop = true) :
    Guarded slot deployment (request.unmatched attempt) := by
  unfold AdminRequest.unmatched
  split
  · split
    · exact guarded.around here rfl
    · exact guarded.finishLoop _ here
  · exact guarded.finishLoop _ here

end

end Guarded

/-! ## Steps -/

section

variable (guarded : Guarded slot deployment request)
include guarded

theorem Guarded.leasesOfWriting (inTime : request.inTime deployment.now) {attempt : Nat}
    (writing : request.phase = .writing attempt current next)
    (demotes : request.patch.isAdmin = some false) : ∃ held, request.Leases deployment.now held := by
  have notAnswered : ∀ answer, request.phase ≠ .answered answer := by simp [writing]
  obtain ⟨held, isHeld⟩ := guarded.locked demotes (by simp [writing]) notAnswered
  exact ⟨held, isHeld, inTime (by simp [AdminRequest.isWriting, writing]) held isHeld, notAnswered⟩

theorem someAdmin_act (inTime : request.inTime deployment.now)
    (someAdmin : ∃ id, IsAdmin deployment id) : ∃ id, IsAdmin (request.act slot deployment).1 id := by
  obtain ⟨id, admin⟩ := someAdmin
  rcases act_deployment slot deployment request with same | ⟨_, _, taken⟩ | ⟨attempt, current, next, writing, wrote⟩ | released
  · rw [same]
    exact ⟨id, admin⟩
  · rw [taken]
    exact ⟨id, admin⟩
  · rw [wrote]
    by_cases demotes : request.patch.isAdmin = some false
    · obtain ⟨held, leases⟩ := guarded.leasesOfWriting inTime writing demotes
      obtain ⟨other, differs, isAdmin⟩ := (guarded.counted held leases).another (by simp [writing, Phase.inLoop])
      exact ⟨other, isAdmin_written_ne differs isAdmin⟩
    · exact ⟨id, isAdmin_written demotes admin⟩
  · rw [released]
    exact ⟨id, admin⟩

/-- A request keeps its own invariant. -/
theorem guarded_act (someAdmin : ∃ id, IsAdmin deployment id) :
    Guarded slot (request.act slot deployment).1 (request.act slot deployment).2 := by
  unfold AdminRequest.act
  cases phase : request.phase with
  | locking =>
    simp only
    split
    · exact guarded.take phase
    split
    · exact guarded.finish _ (by simp [phase])
    · exact guarded
  | reading =>
    simp only
    split
    · exact guarded.finish _ (by simp [phase])
    next account stored =>
      cases isRead : account.read with
      | none => exact guarded.finish _ (by simp [phase])
      | some current => exact guarded.begin phase stored isRead someAdmin
  | counting current =>
    simp only
    split
    · exact guarded.finish _ (by simp [phase])
    next keeps => exact guarded.count phase (by simpa using keeps)
  | deciding attempt current => exact guarded.decides (by simp [phase, Phase.inLoop]) _
  | writing attempt current next =>
    simp only
    split
    · exact guarded.finishLoop _ (by simp [phase, Phase.inLoop])
    split
    · have finished := guarded.finishLoop .success (by simp [phase, Phase.inLoop])
      -- past the loop nothing is asked of the admins
      have keeps : ∀ held, (request.finish .success).Leases deployment.now held →
          (request.finish .success).Counted (request.written deployment slot current next) := by
        intro held leases
        constructor <;> simp [AdminRequest.finish, AdminRequest.go, show request.locked = some held from leases.1, Phase.inLoop]
      exact ⟨finished.demotes, finished.unlocked, finished.locking, finished.lease, keeps⟩
    · exact guarded.unmatched attempt (by simp [phase, Phase.inLoop])
  | rereading attempt =>
    simp only
    split
    · exact guarded.finishLoop _ (by simp [phase, Phase.inLoop])
    next account stored =>
      cases isRead : account.read with
      | none => exact guarded.finishLoop _ (by simp [phase, Phase.inLoop])
      | some fresh => exact guarded.around (by simp [phase, Phase.inLoop]) rfl
  | releasing answer =>
    constructor
    · exact guarded.demotes
    · exact fun _ _ => .inr ⟨answer, rfl⟩
    · exact fun back => by cases back
    · exact fun held leases => absurd rfl (leases.2.2 answer)
    · exact fun held leases => absurd rfl (leases.2.2 answer)
  | answered answer => exact guarded

theorem guarded_others (inTime : request.inTime deployment.now) {other : Nat}
    {bystander : AdminRequest} (differs : other ≠ slot) (before : Guarded other deployment bystander) :
    Guarded other (request.act slot deployment).1 bystander := by
  rcases act_deployment slot deployment request with same | ⟨_, free, taken⟩ | ⟨attempt, current, next, writing, wrote⟩ | released
  · rw [same]
    exact before
  · rw [taken]
    refine before.frame (Nat.le_refl _) (fun held leases => ?_) fun _ _ _ admin => admin
    -- a lease that lasts is not free
    have lock := before.lease held leases
    simp only [Deployment.lockFree, lock, Option.all_some, decide_eq_true_eq] at free
    have lasts := leases.2.1
    omega
  · rw [wrote]
    refine before.frame (Nat.le_refl _) (fun _ _ => rfl) fun held leases id admin => ?_
    apply isAdmin_written _ admin
    intro demotes
    obtain ⟨own, ownLeases⟩ := guarded.leasesOfWriting inTime writing demotes
    have lock := before.lease held leases
    rw [guarded.lease own ownLeases] at lock
    exact differs (DemotionLock.mk.inj (Option.some.inj lock)).2.symm
  · rw [released]
    refine before.frame (Nat.le_refl _) (fun held leases => ?_) fun _ _ _ admin => admin
    simp [Deployment.releaseDemotionLock, before.lease held leases, differs]

theorem guarded_fails
    : Guarded slot deployment request.fails := by
  unfold AdminRequest.fails
  split
  next answer phase =>
    apply guarded.go (by simp) (by simp [phase]) (fun _ _ => .inr ⟨answer, rfl⟩)
    intro held leases
    constructor <;> simp [AdminRequest.go, Phase.inLoop]
  next answer phase =>
    rw [show request.go (.answered answer) = request by rw [AdminRequest.go, ← phase]]
    exact guarded
  next notReleasing notAnswered => exact guarded.finish _ notAnswered

end

theorem guarded_arrives (slot : Nat) (deployment : Deployment) (admin userId : String) (patch : AdminUserPatch) :
    Guarded slot deployment (.arrives admin userId patch deployment.now) where
  demotes := fun held => by cases held
  unlocked := fun demotes _ => by
    have demotes : patch.isAdmin = some false := demotes
    by_cases self : userId = admin <;> simp [AdminRequest.arrives, demotes, self]
  locking := fun locking => by
    refine ⟨?_, rfl⟩
    by_contra grants
    have grants : patch.isAdmin ≠ some false := grants
    simp [AdminRequest.arrives, grants] at locking
  lease := fun held leases => by cases leases.1
  counted := fun held leases => by cases leases.1

/-! ## Runs -/

def GuardedSlot (slot : Nat) (deployment : Deployment) (request : Option AdminRequest) : Prop :=
  ∀ running ∈ request, Guarded slot deployment running

theorem admin_kept : Requests.Kept adminRules (fun deployment => ∃ id, IsAdmin deployment id) GuardedSlot where
  starts := by
    rintro slot deployment _ _ _ ⟨admin, userId, patch, rfl⟩ _ ⟨⟩
    exact guarded_arrives slot deployment admin userId patch
  acts := by
    intro slot deployment request deployment' after someAdmin own acted
    have guarded := own request rfl
    cases acted with
    | proceed _ inTime =>
      refine ⟨someAdmin_act guarded inTime someAdmin, ?_⟩
      rintro _ ⟨⟩
      exact guarded_act guarded someAdmin
    | fail _ =>
      refine ⟨someAdmin, ?_⟩
      rintro _ ⟨⟩
      exact guarded_fails guarded
    | crash =>
      refine ⟨someAdmin, ?_⟩
      rintro _ ⟨⟩
      exact ⟨guarded.demotes, guarded.unlocked, guarded.locking, guarded.lease, fun held leases =>
        ⟨(guarded.counted held leases).target, (guarded.counted held leases).another⟩⟩
  others := by
    intro slot deployment request deployment' after someAdmin own acted other bystander differs before running isRunning
    have guarded := own request rfl
    cases acted with
    | proceed _ inTime => exact guarded_others guarded inTime differs (before running isRunning)
    | fail _ => exact before running isRunning
    | crash => exact before running isRunning
  outside := by
    rintro deployment _ ⟨id, admin⟩ moved
    cases moved with
    | tick later =>
      refine ⟨⟨id, admin⟩, fun slot request before running isRunning => ?_⟩
      exact (before running isRunning).frame later (fun _ _ => rfl) fun _ _ _ admin => admin
    | signUp inserted _ =>
      have grows : ∀ id, IsAdmin deployment id → IsAdmin _ id := fun id admin => admin.signUp inserted
      refine ⟨⟨id, grows id admin⟩, fun slot request before running isRunning => ?_⟩
      exact (before running isRunning).frame (Nat.le_refl _) (fun _ _ => rfl) fun _ _ => grows

/-- Some user is an admin in every state of every run, and at most one live request holds
    the demotion lock. -/
theorem last_admin_stays {system : Requests Deployment AdminRequest}
    (run : Requests.Run adminRules (fun deployment => ∃ id, IsAdmin deployment id) system) :
    (∃ id, IsAdmin system.store id) ∧
      ∀ slot other request bystander, system.slots slot = some request → system.slots other = some bystander →
        request.HoldsLock system.store.now → bystander.HoldsLock system.store.now → slot = other := by
  have holds := Requests.invariant admin_kept (fun _ someAdmin => ⟨someAdmin, fun _ _ absent => by cases absent⟩) run
  refine ⟨holds.store, ?_⟩
  intro slot other request bystander running bystanding ⟨_, held, leases⟩ ⟨_, otherHeld, otherLeases⟩
  have lock := (holds.slots slot request running).lease held leases
  have otherLock := (holds.slots other bystander bystanding).lease otherHeld otherLeases
  rw [lock] at otherLock
  exact (DemotionLock.mk.inj (Option.some.inj otherLock)).2

def demote : AdminUserPatch := ⟨some false, none, none, none⟩

def twoAdmins : Deployment where
  users := ⟨[("ada", ⟨true, .missing⟩), ("bob", ⟨true, .list []⟩)], by decide⟩
  lock := none
  now := 1
  updates := []

def demotions : Requests Deployment AdminRequest :=
  (((⟨twoAdmins, fun _ => none⟩ : Requests Deployment AdminRequest).put 0 twoAdmins
    (.arrives "ada" "bob" demote 1)).put 1 twoAdmins (.arrives "bob" "ada" demote 1)).schedule
      adminTurn [0, 0, 1, 0, 0, 0, 0, 1, 1, 1, 1]

theorem last_admin_stays_demotions :
    (demotions.slots 0).map AdminRequest.phase = some (.answered .success) ∧
      (demotions.slots 1).map AdminRequest.phase = some (.answered (.conflict
        "This is the deployment's last admin. Appoint another one first, or nobody will be able to manage users.")) ∧
      ∃ id, IsAdmin demotions.store id := by
  have nobody : Requests.Run adminRules (fun deployment => ∃ id, IsAdmin deployment id) ⟨twoAdmins, fun _ => none⟩ :=
    Reachable.start ⟨⟨"ada", _, rfl, rfl⟩, fun _ => rfl⟩
  have ada := nobody.start 0 (.arrives "ada" "bob" demote 1) rfl ⟨"ada", "bob", demote, rfl⟩
  have bob := ada.start 1 (.arrives "bob" "ada" demote 1) rfl ⟨"bob", "ada", demote, rfl⟩
  have run : Requests.Run adminRules (fun deployment => ∃ id, IsAdmin deployment id) demotions :=
    bob.schedule acts_of_adminTurn [0, 0, 1, 0, 0, 0, 0, 1, 1, 1, 1]
  exact ⟨by decide +kernel, by decide +kernel, (last_admin_stays run).1⟩

end Boom.Api
