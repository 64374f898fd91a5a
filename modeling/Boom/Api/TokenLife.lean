import Boom.Api.Tokens

/-! # The life of a token

A token is alive from its issue until it is deleted.  `TokensKept` is the invariant: what
the accounts hold are the tokens that are alive, each hash once.  Both copies of the rules
accept exactly the tokens that are alive, of an activated owner
(`authenticatesTo_iff`, `resolvesTo_iff`): they never look at `expires_at`. -/

namespace Boom.Api

open Boom.Foundations

/-! ## What the claim speaks of -/

def Alive (history : List TokenEvent) (userId tokenId secret : String) (expiresAt : Int) : Prop :=
  ∃ before after, history = before ++ .issued userId tokenId secret expiresAt :: after ∧ .deleted userId tokenId ∉ after

def TokenStore.Live (store : TokenStore) (userId token : String) (expiresAt : Int) : Prop :=
  ∃ tokenId secret user, token = tokenPrefix ++ secret ∧ Alive store.history userId tokenId secret expiresAt ∧
    store.users.get userId = some user ∧ user.isActivated = true

def TokenStore.Good (store : TokenStore) (userId token : String) : Prop :=
  ∃ expiresAt, store.Live userId token expiresAt ∧ store.now < expiresAt

def TokenStore.Overdue (store : TokenStore) (token : String) : Prop :=
  ∃ userId expiresAt, store.Live userId token expiresAt ∧ expiresAt ≤ store.now

section Hash

variable (hash : String → String) (validateToken : String → Option String)

def resolvesTo (store : TokenStore) (token : String) : Option String :=
  match (resolveBabamulUser hash validateToken store token).1 with
  | .ok user => user.map Prod.fst
  | .error _ => none

def authenticatesTo (store : TokenStore) (token : String) : Option String :=
  match (authenticateBabamulUser hash validateToken store token).1 with
  | .ok user => some user.1
  | .error _ => none

end Hash

/-! ## Histories -/

theorem alive_append {history : List TokenEvent} {event : TokenEvent} {userId tokenId secret : String} {expiresAt : Int} :
    Alive (history ++ [event]) userId tokenId secret expiresAt ↔
      event = .issued userId tokenId secret expiresAt ∨
        Alive history userId tokenId secret expiresAt ∧ event ≠ .deleted userId tokenId := by
  constructor
  · rintro ⟨before, after, whole, kept⟩
    rcases List.eq_nil_or_concat' after with rfl | ⟨shorter, last, rfl⟩
    · obtain ⟨_, same⟩ := List.append_inj' whole rfl
      exact .inl (List.cons.inj same).1
    · rw [← List.cons_append, ← List.append_assoc] at whole
      obtain ⟨rfl, same⟩ := List.append_inj' whole rfl
      obtain rfl := (List.cons.inj same).1
      simp only [List.mem_append, List.mem_singleton, not_or] at kept
      exact .inr ⟨⟨before, shorter, rfl, kept.1⟩, Ne.symm kept.2⟩
  · rintro (rfl | ⟨⟨before, after, rfl, kept⟩, other⟩)
    · exact ⟨history, [], rfl, by simp⟩
    · refine ⟨before, after ++ [event], by simp, ?_⟩
      simp only [List.mem_append, List.mem_singleton, not_or]
      exact ⟨kept, Ne.symm other⟩

/-! ## What the accounts hold -/

def BabamulUserToken.core (token : BabamulUserToken) : String × String × Int := (token.id, token.tokenHash, token.expiresAt)

def BabamulUser.cores (user : BabamulUser) : List (String × String × Int) := user.tokens.map BabamulUserToken.core

def TokenStore.held (store : TokenStore) (userId : String) : List (String × String × Int) :=
  (store.users.get userId).elim [] BabamulUser.cores

@[simp] theorem cores_touch (user : BabamulUser) (tokenHash : String) (now : Int) : (user.touch tokenHash now).cores = user.cores := by
  simp only [BabamulUser.cores, BabamulUser.touch, List.map_map, List.map_inj_left, Function.comp_apply]
  intro token _
  split <;> rfl

@[simp] theorem cores_addToken (user : BabamulUser) (token : BabamulUserToken) :
    (user.addToken token).cores = user.cores ++ [token.core] := by
  simp [BabamulUser.cores, BabamulUser.addToken]

variable {user : BabamulUser}

theorem mem_cores_pullToken {tokenId : String} {core : String × String × Int} :
    core ∈ (user.pullToken tokenId).cores ↔ core ∈ user.cores ∧ core.1 ≠ tokenId := by
  simp only [BabamulUser.cores, BabamulUser.pullToken, List.mem_map, List.mem_filter, decide_eq_true_eq]
  constructor
  · rintro ⟨token, ⟨member, other⟩, rfl⟩
    exact ⟨⟨token, member, rfl⟩, other⟩
  · rintro ⟨⟨token, member, rfl⟩, other⟩
    exact ⟨token, ⟨member, other⟩, rfl⟩

theorem hasHash_iff {tokenHash : String} :
    user.hasHash tokenHash = true ↔ ∃ tokenId expiresAt, (tokenId, tokenHash, expiresAt) ∈ user.cores := by
  simp only [BabamulUser.hasHash, List.any_eq_true, decide_eq_true_eq, BabamulUser.cores, List.mem_map]
  constructor
  · rintro ⟨token, member, rfl⟩
    exact ⟨token.id, token.expiresAt, token, member, rfl⟩
  · rintro ⟨tokenId, expiresAt, token, member, same⟩
    exact ⟨token, member, (Prod.mk.inj (Prod.mk.inj same).2).1⟩

theorem held_of_get {store : TokenStore} {userId : String} (stored : store.users.get userId = some user) :
    store.held userId = user.cores := by
  simp [TokenStore.held, stored]

theorem get_of_held {store : TokenStore} {userId : String} {core : String × String × Int}
    (member : core ∈ store.held userId) : ∃ user, store.users.get userId = some user ∧ core ∈ user.cores := by
  unfold TokenStore.held at member
  cases stored : store.users.get userId with
  | none => simp [stored] at member
  | some user => exact ⟨user, rfl, by simpa [stored] using member⟩

structure TokensKept (hash : String → String) (store : TokenStore) : Prop where
  held : ∀ userId tokenId tokenHash expiresAt, (tokenId, tokenHash, expiresAt) ∈ store.held userId →
    ∃ secret, tokenHash = hash secret ∧ Alive store.history userId tokenId secret expiresAt
  alive : ∀ userId tokenId secret expiresAt, Alive store.history userId tokenId secret expiresAt →
    secret.utf8ByteSize = 36 ∧ (tokenId, hash secret, expiresAt) ∈ store.held userId
  once : ∀ userId otherId tokenId otherToken tokenHash expiresAt other, (tokenId, tokenHash, expiresAt) ∈ store.held userId →
    (otherToken, tokenHash, other) ∈ store.held otherId → userId = otherId ∧ expiresAt = other

variable {after : TokenStore}

namespace TokensKept

variable {hash : String → String} {store : TokenStore}

theorem frame (kept : TokensKept hash store) (sameHistory : after.history = store.history)
    (sameHeld : ∀ userId, after.held userId = store.held userId) : TokensKept hash after := by
  constructor
  · intro userId tokenId tokenHash expiresAt member
    rw [sameHeld] at member
    rw [sameHistory]
    exact kept.held userId tokenId tokenHash expiresAt member
  · intro userId tokenId secret expiresAt alive
    rw [sameHistory] at alive
    rw [sameHeld]
    exact kept.alive userId tokenId secret expiresAt alive
  · intro userId otherId tokenId otherToken tokenHash expiresAt other member otherMember
    rw [sameHeld] at member otherMember
    exact kept.once userId otherId tokenId otherToken tokenHash expiresAt other member otherMember

/-- A token is issued. -/
theorem issue (kept : TokensKept hash store) {userId tokenId secret : String} {expiresAt : Int}
    (length : secret.utf8ByteSize = 36) (history : after.history = store.history ++ [.issued userId tokenId secret expiresAt])
    (held : ∀ other, after.held other =
      if other = userId then store.held userId ++ [(tokenId, hash secret, expiresAt)] else store.held other)
    (free : ∀ other otherToken expires, (otherToken, hash secret, expires) ∉ store.held other) : TokensKept hash after := by
  have mem : ∀ other core, core ∈ after.held other ↔
      core ∈ store.held other ∨ other = userId ∧ core = (tokenId, hash secret, expiresAt) := by
    intro other core
    rw [held]
    split
    next same => simp [same]
    next differs => simp [differs]
  constructor
  · intro other otherToken tokenHash expires member
    rw [history]
    rcases (mem other _).mp member with before | ⟨rfl, new⟩
    · obtain ⟨known, rfl, alive⟩ := kept.held _ _ _ _ before
      exact ⟨known, rfl, alive_append.mpr (.inr ⟨alive, by simp⟩)⟩
    · obtain ⟨rfl, rfl, rfl⟩ := by simpa using new
      exact ⟨secret, rfl, alive_append.mpr (.inl rfl)⟩
  · intro other otherToken known expires alive
    rw [history] at alive
    rcases alive_append.mp alive with new | ⟨before, _⟩
    · obtain ⟨rfl, rfl, rfl, rfl⟩ := TokenEvent.issued.inj new
      exact ⟨length, (mem _ _).mpr (.inr ⟨rfl, rfl⟩)⟩
    · have ⟨size, member⟩ := kept.alive _ _ _ _ before
      exact ⟨size, (mem _ _).mpr (.inl member)⟩
  · intro first second firstToken secondToken tokenHash firstExpires secondExpires firstMember secondMember
    rcases (mem _ _).mp firstMember with before | ⟨rfl, new⟩ <;> rcases (mem _ _).mp secondMember with before' | ⟨rfl, new'⟩
    · exact kept.once _ _ _ _ _ _ _ before before'
    · obtain ⟨rfl, rfl, rfl⟩ := by simpa using new'
      exact absurd before (free _ _ _)
    · obtain ⟨rfl, rfl, rfl⟩ := by simpa using new
      exact absurd before' (free _ _ _)
    · obtain ⟨rfl, rfl, rfl⟩ := by simpa using new
      obtain ⟨_, rfl⟩ := by simpa using new'
      exact ⟨rfl, rfl⟩

theorem delete (kept : TokensKept hash store) {userId tokenId : String}
    (history : after.history = store.history ++ [.deleted userId tokenId])
    (held : ∀ other core, core ∈ after.held other ↔ core ∈ store.held other ∧ ¬ (other = userId ∧ core.1 = tokenId)) :
    TokensKept hash after := by
  constructor
  · intro other otherToken tokenHash expires member
    obtain ⟨before, stays⟩ := (held _ _).mp member
    obtain ⟨secret, rfl, alive⟩ := kept.held _ _ _ _ before
    rw [history]
    refine ⟨secret, rfl, alive_append.mpr (.inr ⟨alive, ?_⟩)⟩
    intro same
    obtain ⟨rfl, rfl⟩ := TokenEvent.deleted.inj same
    exact stays ⟨rfl, rfl⟩
  · intro other otherToken secret expires alive
    rw [history] at alive
    rcases alive_append.mp alive with impossible | ⟨before, stays⟩
    · cases impossible
    · have ⟨size, member⟩ := kept.alive _ _ _ _ before
      refine ⟨size, (held _ _).mpr ⟨member, ?_⟩⟩
      rintro ⟨rfl, rfl⟩
      exact stays rfl
  · intro first second firstToken secondToken tokenHash firstExpires secondExpires firstMember secondMember
    exact kept.once _ _ _ _ _ _ _ ((held _ _).mp firstMember).1 ((held _ _).mp secondMember).1

end TokensKept

/-! ## Steps -/

section Steps

variable {hash : String → String} {validateToken : String → Option String} {store : TokenStore}

theorem held_updateOne {userId : String} {filter : BabamulUser → Bool} {change : BabamulUser → BabamulUser}
    (same : ∀ user, (change user).cores = user.cores) (other : String) :
    TokenStore.held { store with users := store.users.updateOne userId filter change } other = store.held other := by
  simp only [TokenStore.held, Collection.get_updateOne]
  split
  next same' =>
    subst same'
    cases store.users.get other with
    | none => rfl
    | some user =>
      simp only [Option.map_some, Option.elim_some]
      split
      · exact same user
      · rfl
  next => rfl

theorem held_useToken (tokenHash userId : String) : (useToken store tokenHash).2.held userId = store.held userId := by
  unfold useToken
  split
  · rfl
  · exact held_updateOne (fun user => cores_touch user tokenHash store.now) userId

theorem history_useToken (tokenHash : String) : (useToken store tokenHash).2.history = store.history := by
  unfold useToken
  split <;> rfl

theorem resolve_store (token : String) : (resolveBabamulUser hash validateToken store token).2 = store ∨
    ∃ tokenHash, (resolveBabamulUser hash validateToken store token).2 = (useToken store tokenHash).2 := by
  unfold resolveBabamulUser
  split
  next secret _ =>
    split
    · exact .inl rfl
    · refine .inr ⟨hash secret, ?_⟩
      split <;> simp [*]
  next =>
    left
    split
    · rfl
    · split <;> rfl

theorem authenticate_store (token : String) : (authenticateBabamulUser hash validateToken store token).2 = store ∨
    ∃ tokenHash, (authenticateBabamulUser hash validateToken store token).2 = (useToken store tokenHash).2 := by
  unfold authenticateBabamulUser
  split
  next secret _ =>
    split
    · exact .inl rfl
    · refine .inr ⟨hash secret, ?_⟩
      split <;> simp [*]
  next =>
    left
    split
    · rfl
    · split
      · rfl
      · simp only
        split <;> rfl

section

variable (kept : TokensKept hash store)
include kept

theorem kept_useToken
    (used : after = store ∨ ∃ tokenHash, after = (useToken store tokenHash).2) : TokensKept hash after := by
  rcases used with rfl | ⟨tokenHash, rfl⟩
  · exact kept
  · exact kept.frame (history_useToken tokenHash) (held_useToken tokenHash)

theorem kept_postToken (userId : String) (post : TokenPost) {secret : String} (tokenId : String)
    (length : secret.utf8ByteSize = 36) : TokensKept hash (postToken hash store userId post secret tokenId).1 := by
  unfold postToken
  split
  · exact kept
  next current stored =>
    split
    · exact kept
    split
    · exact kept
    next noCollision =>
      split
      next free =>
        apply kept.issue length rfl
        · intro other
          simp only [TokenStore.held, Collection.get_updateOne]
          split
          next same =>
            subst same
            simp only [Collection.matches?, stored, Option.any_some] at free
            simp [stored, free, BabamulUserToken.core, TokenPost.token]
          next => rfl
        · intro other otherToken expires member
          apply noCollision
          obtain ⟨user, found, inUser⟩ := get_of_held member
          rw [List.any_eq_true]
          exact ⟨(other, user), Collection.mem_entries_iff.mpr found, hasHash_iff.mpr ⟨otherToken, expires, inUser⟩⟩
      next => exact kept

theorem kept_deleteToken (userId tokenId : String) :
    TokensKept hash (deleteToken store userId tokenId).1 := by
  unfold deleteToken
  split
  next =>
    apply kept.delete rfl
    intro other core
    simp only [TokenStore.held, Collection.get_updateOne]
    by_cases same : other = userId
    · subst same
      cases store.users.get other with
      | none => simp
      | some user => simp [mem_cores_pullToken]
    · simp [same]
  next => exact kept

theorem kept_step (taken : TokenStep hash validateToken store after) :
    TokensKept hash after := by
  cases taken with
  | post userId post secret tokenId length => exact kept_postToken kept userId post tokenId length
  | delete userId tokenId => exact kept_deleteToken kept userId tokenId
  | resolve token => exact kept_useToken kept (resolve_store token)
  | authenticate token => exact kept_useToken kept (authenticate_store token)
  | activation userId isActivated =>
    exact kept.frame rfl (held_updateOne fun _ => rfl)
  | signUp userId user users noTokens inserted =>
    have same : ∀ other, TokenStore.held { store with users := users } other = store.held other := by
      intro other
      simp only [TokenStore.held, Collection.get_insertOne inserted]
      split
      next same =>
        subst same
        simp [Collection.absent_of_insertOne inserted, BabamulUser.cores, noTokens]
      next => rfl
    exact kept.frame rfl same
  | tick later _ => exact kept.frame rfl fun _ => rfl

end

theorem kept_run (run : TokenRun hash validateToken store) : TokensKept hash store := by
  refine Reachable.invariant (TokensKept hash) ?_ (fun _ _ _ kept taken => kept_step kept taken) run
  rintro initial ⟨noHistory, noTokens⟩
  have nothing : ∀ userId, initial.held userId = [] := by
    intro userId
    unfold TokenStore.held
    cases stored : initial.users.get userId with
    | none => rfl
    | some user => simp [BabamulUser.cores, noTokens userId user stored]
  constructor
  · intro userId tokenId tokenHash expiresAt member
    simp [nothing] at member
  · rintro userId tokenId secret expiresAt ⟨before, after, whole, _⟩
    simp [noHistory] at whole
  · intro userId otherId tokenId otherToken tokenHash expiresAt other member
    simp [nothing] at member

/-! ## Whom a token lets in -/

section

variable (kept : TokensKept hash store)
include kept

theorem useToken_iff {tokenHash userId : String} : (useToken store tokenHash).1 = some (userId, user) ↔
      store.users.get userId = some user ∧ ∃ tokenId expiresAt, (tokenId, tokenHash, expiresAt) ∈ user.cores := by
  have first : (useToken store tokenHash).1 = store.users.entries.find? fun entry => entry.2.hasHash tokenHash := by
    unfold useToken
    split <;> simp [*]
  rw [first]
  constructor
  · intro found
    have hasHash := List.find?_some found
    exact ⟨Collection.mem_entries_iff.mp (List.mem_of_find?_eq_some found), hasHash_iff.mp hasHash⟩
  · rintro ⟨stored, tokenId, expiresAt, member⟩
    have entry := Collection.mem_entries_iff.mpr stored
    cases found : store.users.entries.find? fun entry => entry.2.hasHash tokenHash with
    | none =>
      rw [List.find?_eq_none] at found
      exact absurd (hasHash_iff.mpr ⟨tokenId, expiresAt, member⟩) (found _ entry)
    | some other =>
      -- the hash is held once, so the first user found is the only one
      have hasHash : other.2.hasHash tokenHash = true := by simpa using List.find?_some found
      obtain ⟨otherToken, expires, otherMember⟩ := hasHash_iff.mp hasHash
      have otherStored := Collection.mem_entries_iff.mp (List.mem_of_find?_eq_some found)
      have same := (kept.once userId other.1 tokenId otherToken tokenHash expiresAt expires
        (by rw [held_of_get stored]; exact member) (by rw [held_of_get otherStored]; exact otherMember)).1
      rw [← same, stored] at otherStored
      rw [Option.some.injEq]
      exact Prod.ext same.symm (Option.some.inj otherStored).symm

theorem live_iff_useToken (injective : Function.Injective hash) {userId secret : String} :
    (∃ expiresAt, store.Live userId (tokenPrefix ++ secret) expiresAt) ↔
      secret.utf8ByteSize = 36 ∧ ∃ user, (useToken store (hash secret)).1 = some (userId, user) ∧ user.isActivated = true := by
  constructor
  · rintro ⟨expiresAt, tokenId, other, user, same, alive, stored, activated⟩
    obtain rfl : secret = other := by simpa using same
    obtain ⟨size, member⟩ := kept.alive _ _ _ _ alive
    rw [held_of_get stored] at member
    exact ⟨size, user, (useToken_iff kept).mpr ⟨stored, tokenId, expiresAt, member⟩, activated⟩
  · rintro ⟨_, user, found, activated⟩
    obtain ⟨stored, tokenId, expiresAt, member⟩ := (useToken_iff kept).mp found
    rw [← held_of_get stored] at member
    obtain ⟨other, same, alive⟩ := kept.held _ _ _ _ member
    obtain rfl := injective same
    exact ⟨expiresAt, tokenId, secret, user, rfl, alive, stored, activated⟩

theorem authenticatesTo_iff (injective : Function.Injective hash) {userId secret : String} :
    authenticatesTo hash validateToken store (tokenPrefix ++ secret) = some userId ↔
      ∃ expiresAt, store.Live userId (tokenPrefix ++ secret) expiresAt := by
  rw [live_iff_useToken kept injective]
  have length : (tokenPrefix ++ secret).utf8ByteSize = 5 + secret.utf8ByteSize := by
    rw [String.utf8ByteSize_append]
    rfl
  unfold authenticatesTo authenticateBabamulUser
  rw [stripPrefix_append]
  simp only [length]
  by_cases size : secret.utf8ByteSize = 36
  · simp only [size, ne_eq, not_true_eq_false, if_false, true_and]
    obtain ⟨found, used⟩ := useToken store (hash secret)
    cases found with
    | none => simp
    | some entry =>
      obtain ⟨owner, user⟩ := entry
      cases activated : user.isActivated <;> simp [activated]
  · have tooLong : 5 + secret.utf8ByteSize ≠ 41 := by omega
    simp [size, tooLong]

theorem resolvesTo_iff (injective : Function.Injective hash) {userId secret : String} :
    resolvesTo hash validateToken store (tokenPrefix ++ secret) = some userId ↔
      ∃ expiresAt, store.Live userId (tokenPrefix ++ secret) expiresAt := by
  rw [live_iff_useToken kept injective]
  unfold resolvesTo resolveBabamulUser
  rw [stripPrefix_append]
  by_cases size : secret.utf8ByteSize = 36
  · simp only [size, ne_eq, not_true_eq_false, if_false, true_and]
    obtain ⟨found, used⟩ := useToken store (hash secret)
    cases found with
    | none => simp
    | some entry =>
      obtain ⟨owner, user⟩ := entry
      cases activated : user.isActivated <;> simp [activated]
  · simp [size]

theorem live_unique {userId otherId token : String} {expiresAt other : Int}
    (live : store.Live userId token expiresAt) (live' : store.Live otherId token other) : expiresAt = other := by
  obtain ⟨tokenId, secret, _, rfl, alive, _, _⟩ := live
  obtain ⟨otherToken, _, _, same, alive', _, _⟩ := live'
  obtain rfl : secret = _ := by simpa using same
  exact (kept.once _ _ _ _ _ _ _ (kept.alive _ _ _ _ alive).2 (kept.alive _ _ _ _ alive').2).2

end

end Steps

/-- After any history, both ways in accept a token exactly for as long as it is good, if
    and only if it is not one that has expired and would be good otherwise. -/
theorem token_good_iff (hash : String → String) (injective : Function.Injective hash) (validateToken : String → Option String)
    {store : TokenStore} (run : TokenRun hash validateToken store) (secret : String) :
    (∀ userId, (authenticatesTo hash validateToken store (tokenPrefix ++ secret) = some userId ↔
        store.Good userId (tokenPrefix ++ secret)) ∧
      (resolvesTo hash validateToken store (tokenPrefix ++ secret) = some userId ↔ store.Good userId (tokenPrefix ++ secret))) ↔
    ¬ store.Overdue (tokenPrefix ++ secret) := by
  have kept := kept_run run
  constructor
  · rintro honest ⟨userId, expiresAt, live, expired⟩
    have accepted : authenticatesTo hash validateToken store (tokenPrefix ++ secret) = some userId :=
      (authenticatesTo_iff kept injective).mpr ⟨expiresAt, live⟩
    obtain ⟨other, live', lasts⟩ := (honest userId).1.mp accepted
    have same := live_unique kept live live'
    omega
  · intro inTime userId
    rw [authenticatesTo_iff kept injective, resolvesTo_iff kept injective]
    have good : (∃ expiresAt, store.Live userId (tokenPrefix ++ secret) expiresAt) ↔ store.Good userId (tokenPrefix ++ secret) := by
      constructor
      · rintro ⟨expiresAt, live⟩
        refine ⟨expiresAt, live, ?_⟩
        by_contra expired
        exact inTime ⟨userId, expiresAt, live, by omega⟩
      · rintro ⟨expiresAt, live, _⟩
        exact ⟨expiresAt, live⟩
    exact ⟨good, good⟩

def someSecret : String := "aaaaaaaaaaaaaaaaaaaaaaaaaaaaaaaaaaaa"

def someHash (secret : String) : String :=
  if secret = someSecret then "22c1d24bcd03e9aee9832efccd6da613fc702793178e5f12c945c7b67ddda933" else "of " ++ secret

theorem someHash_injective : Function.Injective someHash := by
  have differs : ∀ secret : String, "22c1d24bcd03e9aee9832efccd6da613fc702793178e5f12c945c7b67ddda933" ≠ "of " ++ secret := by
    intro secret same
    have first := congrArg (fun text => text.toList.head?) same
    simp at first
  intro first second same
  unfold someHash at same
  split at same <;> split at same
  · simp [*]
  · exact absurd same (differs _)
  · exact absurd same.symm (differs _)
  · simpa using same

theorem ada_nodup : ["ada"].Nodup := by decide

def oneAccount : TokenStore where
  users := ⟨[("ada", ⟨"ada@example.org", ⟨"secret"⟩, none, true, [], none, none, none, [], none, none⟩)], ada_nodup⟩
  now := 0
  history := []

def oneToken : TokenStore := (postToken someHash oneAccount "ada" ⟨"laptop", some 1⟩ someSecret "t1").1

theorem oneToken_run (validateToken : String → Option String) : TokenRun someHash validateToken oneToken := by
  refine .next (.start ⟨rfl, ?_⟩) (.post "ada" ⟨"laptop", some 1⟩ someSecret "t1" (by decide))
  intro userId user stored
  obtain ⟨_, rfl⟩ := by simpa [oneAccount] using Collection.mem_entries_iff.mpr stored
  rfl

theorem token_good_iff_oneToken :
    (∀ userId, (authenticatesTo someHash (fun _ => none) oneToken (tokenPrefix ++ someSecret) = some userId ↔
        oneToken.Good userId (tokenPrefix ++ someSecret)) ∧
      (resolvesTo someHash (fun _ => none) oneToken (tokenPrefix ++ someSecret) = some userId ↔
        oneToken.Good userId (tokenPrefix ++ someSecret))) ↔
    ¬ oneToken.Overdue (tokenPrefix ++ someSecret) :=
  token_good_iff someHash someHash_injective (fun _ => none) (oneToken_run _) someSecret

/-- A day later the token still lets its owner in. -/
theorem expired_token_accepted :
    ¬ ∀ hash : String → String, Function.Injective hash → ∀ store, TokenRun hash (fun _ => none) store → ∀ secret userId,
      (authenticatesTo hash (fun _ => none) store (tokenPrefix ++ secret) = some userId ↔
        store.Good userId (tokenPrefix ++ secret)) := by
  intro always
  have run : TokenRun someHash (fun _ => none) { oneToken with now := 86400 } :=
    .next (oneToken_run _) (.tick 86400 (by decide))
  have honest := always someHash someHash_injective _ run someSecret "ada"
  have accepted : authenticatesTo someHash (fun _ => none) { oneToken with now := 86400 } (tokenPrefix ++ someSecret) =
      some "ada" := by decide +kernel
  obtain ⟨expiresAt, ⟨tokenId, secret, user, same, ⟨before, after, whole, _⟩, _⟩, lasts⟩ := honest.mp accepted
  have history : oneToken.history = [.issued "ada" "t1" someSecret 86400] := by decide +kernel
  have issued : TokenEvent.issued "ada" tokenId secret expiresAt ∈ oneToken.history := by
    rw [show oneToken.history = _ from whole]
    simp
  rw [history, List.mem_singleton] at issued
  obtain ⟨_, _, _, rfl⟩ := TokenEvent.issued.inj issued
  exact absurd lasts (by decide)

end Boom.Api
