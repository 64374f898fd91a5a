import Boom.Api.OAuth

/-! # Who a social sign-in signs in

An account is reached by an identity that is linked to it already, by an address that the
provider has verified, or by a code that was mailed to the address of the account for the
ticket it is presented with (`accounts_kept`).  A ticket keeps its identity, and its code
is always for its address: whoever claims an attempt reads both from one document.

The state of a sign-in, however, is not tied to the browser it was given to.  A browser that
is handed somebody else's way back gets a token (`signed_in_as_another`); one that comes
back with states of its own does not (`social_sign_in_safe`). -/

namespace Boom.Api

open Boom.Foundations

section Hash

variable (hash : String → String)

def AuthRequest.OwnState (store : AuthStore) (request : AuthRequest) : Prop :=
  match request.flow with
  | .callback provider state .consuming => ∀ pending, store.states.get state = some pending →
      store.now < pending.expiresAt → pending.provider = provider → pending.startedBy = request.browser
  | _ => True

def ownStates (config : AuthConfig) : Requests.Rules AuthStore AuthRequest where
  starts := (authRules hash config).starts
  acts slot store request store' after := (authRules hash config).acts slot store request store' after ∧
    request.OwnState store
  outside := (authRules hash config).outside

/-! ## What speaks for a sign-in -/

section Initial

variable (initial : AuthStore)

def Linked (history : List AuthEvent) (slot : Nat) (userId : String) (provider : OAuthProviderKind) (subject : String) : Prop :=
  (∃ user, initial.users.get userId = some user ∧ AuthStore.hasIdentity user provider subject = true) ∨
    ∃ other, other ≠ slot ∧ .linked other userId provider subject ∈ history

def Vouched (history : List AuthEvent) (slot : Nat) (provider : OAuthProviderKind) (subject email : String) : Prop :=
  (∃ identity, .asserted slot identity ∈ history ∧ identity.provider = provider ∧ identity.subject = subject ∧
    identity.emailVerified = true ∧ identity.email = some email) ∨
  ∃ ticket code, .parked ticket provider subject ∈ history ∧ .mailed ticket email code ∈ history ∧
    .presented slot ticket code ∈ history

def Proven (users : Collection String BabamulUser) (history : List AuthEvent) (slot : Nat) (userId : String)
    (provider : OAuthProviderKind) (subject : String) : Prop :=
  ∃ user, users.get userId = some user ∧
    (Linked initial history slot userId provider subject ∨ Vouched history slot provider subject user.email)

def IssuesProven (store : AuthStore) : Prop :=
  ∀ before after slot userId provider subject, store.history = before ++ .issued slot userId provider subject :: after →
    Proven initial store.users before slot userId provider subject

/-! ## What a step leaves behind -/

/-- The collections are as the history tells. -/
structure Recorded (store : AuthStore) : Prop where
  states : ∀ state pending, store.states.get state = some pending → .started state pending.startedBy ∈ store.history
  tickets : ∀ ticket pending, store.tickets.get ticket = some pending →
    .parked ticket pending.provider pending.subject ∈ store.history
  codes : ∀ ticket pending email codeHash, store.tickets.get ticket = some pending → pending.email = some email →
    pending.codeHash = some codeHash → ∃ code, codeHash = hash code ∧ .mailed ticket email code ∈ store.history
  identities : ∀ userId user provider subject, store.users.get userId = some user →
    AuthStore.hasIdentity user provider subject = true →
    (∃ first, initial.users.get userId = some first ∧ AuthStore.hasIdentity first provider subject = true) ∨
      ∃ slot, .linked slot userId provider subject ∈ store.history
  issues : IssuesProven initial store

def TicketFrom (before : AuthStore) (event : Option AuthEvent) (ticket : String) (pending : PendingIdentity) : Prop :=
  (event = some (.parked ticket pending.provider pending.subject) ∧ pending.codeHash = none) ∨
    ∃ held, before.tickets.get ticket = some held ∧ pending.provider = held.provider ∧ pending.subject = held.subject ∧
      (pending.email = held.email ∧ pending.codeHash = held.codeHash ∨
        ∃ email code, pending.email = some email ∧ pending.codeHash = some (hash code) ∧ event = some (.mailed ticket email code))

structure Traces (slot : Nat) (before after : AuthStore) (event : Option AuthEvent) : Prop where
  history : after.history = before.history ++ event.toList
  stay : ∀ userId user, before.users.get userId = some user →
    ∃ later, after.users.get userId = some later ∧ later.email = user.email
  identities : ∀ userId later provider subject, after.users.get userId = some later →
    AuthStore.hasIdentity later provider subject = true →
    (∃ user, before.users.get userId = some user ∧ AuthStore.hasIdentity user provider subject = true) ∨
      event = some (.linked slot userId provider subject)
  links : ∀ other userId provider subject, event = some (.linked other userId provider subject) → other = slot
  states : ∀ state pending, after.states.get state = some pending →
    before.states.get state = some pending ∨ event = some (.started state pending.startedBy)
  tickets : ∀ ticket pending, after.tickets.get ticket = some pending → TicketFrom hash before event ticket pending
  issues : ∀ other userId provider subject, event = some (.issued other userId provider subject) →
    Proven initial before.users before.history other userId provider subject

variable {hash initial} {before after : List AuthEvent} {provider : OAuthProviderKind}

theorem Linked.grows (grows : before ⊆ after) {slot : Nat} {userId subject : String}
    (linked : Linked initial before slot userId provider subject) :
    Linked initial after slot userId provider subject := by
  rcases linked with first | ⟨other, differs, member⟩
  · exact .inl first
  · exact .inr ⟨other, differs, grows member⟩

theorem Vouched.grows (grows : before ⊆ after) {slot : Nat} {subject email : String}
    (vouched : Vouched before slot provider subject email) :
    Vouched after slot provider subject email := by
  rcases vouched with ⟨identity, member, claims⟩ | ⟨ticket, code, parked, mailed, presented⟩
  · exact .inl ⟨identity, grows member, claims⟩
  · exact .inr ⟨ticket, code, grows parked, grows mailed, grows presented⟩

theorem Proven.grows {users later : Collection String BabamulUser} (grows : before ⊆ after)
    (stay : ∀ userId user, users.get userId = some user → ∃ other, later.get userId = some other ∧ other.email = user.email)
    {slot : Nat} {userId subject : String} (proven : Proven initial users before slot userId provider subject) :
    Proven initial later after slot userId provider subject := by
  obtain ⟨user, stored, speaks⟩ := proven
  obtain ⟨other, storedAfter, email⟩ := stay userId user stored
  refine ⟨other, storedAfter, ?_⟩
  rcases speaks with linked | vouched
  · exact .inl (linked.grows grows)
  · rw [email]
    exact .inr (vouched.grows grows)

theorem split_append {history before after : List AuthEvent} {added : Option AuthEvent} {event : AuthEvent}
    (split : history ++ added.toList = before ++ event :: after) :
    (∃ rest, history = before ++ event :: rest) ∨ before = history ∧ added = some event := by
  rcases List.append_eq_append_iff.mp split with ⟨middle, rfl, tail⟩ | ⟨middle, rfl, tail⟩
  · cases middle with
    | nil =>
      right
      cases added with
      | none => simp at tail
      | some last =>
        have same : last = event ∧ after = [] := by simpa using tail
        simp [same.1]
    | cons first rest =>
      cases added with
      | none => simp at tail
      | some last => simp at tail
  · cases middle with
    | nil =>
      right
      cases added with
      | none => simp at tail
      | some last =>
        have same : event = last ∧ after = [] := by simpa using tail
        simp [same.1]
    | cons first rest =>
      obtain ⟨rfl, _⟩ := List.cons.inj tail
      exact .inl ⟨rest, rfl⟩

variable {slot : Nat} {before after : AuthStore} {event : Option AuthEvent}

theorem Traces.remembers (traces : Traces hash initial slot before after event) : before.history ⊆ after.history := by
  rw [traces.history]
  exact List.subset_append_left _ _

theorem Traces.adds (traces : Traces hash initial slot before after event) {added : AuthEvent} (isAdded : event = some added) :
    added ∈ after.history := by
  rw [traces.history, isAdded]
  exact List.mem_append_right _ (List.mem_singleton.mpr rfl)

theorem Recorded.step (recorded : Recorded hash initial before) (traces : Traces hash initial slot before after event) :
    Recorded hash initial after where
  states := by
    intro state pending stored
    rcases traces.states state pending stored with known | started
    · exact traces.remembers (recorded.states state pending known)
    · exact traces.adds started
  tickets := by
    intro ticket pending stored
    rcases traces.tickets ticket pending stored with ⟨parked, _⟩ | ⟨held, known, provider, subject, _⟩
    · exact traces.adds parked
    · rw [provider, subject]
      exact traces.remembers (recorded.tickets ticket held known)
  codes := by
    intro ticket pending email codeHash stored given hashed
    rcases traces.tickets ticket pending stored with ⟨_, unset⟩ | ⟨held, known, _, _, same | ⟨other, code, sent, coded, mailed⟩⟩
    · rw [unset] at hashed
      cases hashed
    · obtain ⟨code, isHash, member⟩ := recorded.codes ticket held email codeHash known (same.1 ▸ given) (same.2 ▸ hashed)
      exact ⟨code, isHash, traces.remembers member⟩
    · obtain rfl := Option.some.inj (sent.symm.trans given)
      obtain rfl := Option.some.inj (coded.symm.trans hashed)
      exact ⟨code, rfl, traces.adds mailed⟩
  identities := by
    intro userId later provider subject stored has
    rcases traces.identities userId later provider subject stored has with ⟨user, known, had⟩ | added
    · rcases recorded.identities userId user provider subject known had with first | ⟨by', member⟩
      · exact .inl first
      · exact .inr ⟨by', traces.remembers member⟩
    · exact .inr ⟨slot, traces.adds added⟩
  issues := by
    intro first last other userId provider subject split
    rw [traces.history] at split
    rcases split_append split with ⟨rest, split⟩ | ⟨rfl, added⟩
    · exact (recorded.issues first rest other userId provider subject split).grows (List.Subset.refl _) traces.stay
    · exact (traces.issues other userId provider subject added).grows (List.Subset.refl _) traces.stay

/-! ## Operations -/

theorem TicketFrom.same {ticket : String} {pending : PendingIdentity} (stored : before.tickets.get ticket = some pending) :
    TicketFrom hash before event ticket pending :=
  .inr ⟨pending, stored, rfl, rfl, .inl ⟨rfl, rfl⟩⟩

theorem traces_setUser {userId : String} (change : BabamulUser → BabamulUser)
    (users : after.users = before.users.updateOne userId (fun _ => true) change) (states : after.states = before.states)
    (tickets : after.tickets = before.tickets) (history : after.history = before.history ++ event.toList)
    (email : ∀ user, (change user).email = user.email)
    (identities : ∀ user provider subject, AuthStore.hasIdentity (change user) provider subject = true →
      AuthStore.hasIdentity user provider subject = true ∨ event = some (.linked slot userId provider subject))
    (links : ∀ other userId provider subject, event = some (.linked other userId provider subject) → other = slot)
    (issues : ∀ other userId provider subject, event ≠ some (.issued other userId provider subject)) :
    Traces hash initial slot before after event where
  history := history
  stay := by
    intro other user stored
    rw [users, Collection.get_updateOne]
    split
    next same =>
      subst same
      exact ⟨change user, by rw [stored]; rfl, email user⟩
    next => exact ⟨user, stored, rfl⟩
  identities := by
    intro other later provider subject stored has
    rw [users] at stored
    obtain ⟨rfl, user, known, rfl⟩ | ⟨-, known⟩ := Collection.cases_updateOne stored
    · exact (identities user provider subject has).imp (fun had => ⟨user, known, had⟩) id
    · exact .inl ⟨later, known, has⟩
  links := links
  states := by
    rw [states]
    exact fun _ _ stored => .inl stored
  tickets := by
    rw [tickets]
    exact fun _ _ stored => .same stored
  issues := fun other userId provider subject issued => absurd issued (issues other userId provider subject)

theorem traces_other (users : after.users = before.users) (history : after.history = before.history ++ event.toList)
    (links : ∀ other userId provider subject, event ≠ some (.linked other userId provider subject))
    (states : ∀ state pending, after.states.get state = some pending →
      before.states.get state = some pending ∨ event = some (.started state pending.startedBy))
    (tickets : ∀ ticket pending, after.tickets.get ticket = some pending → TicketFrom hash before event ticket pending)
    (issues : ∀ other userId provider subject, event = some (.issued other userId provider subject) →
      Proven initial before.users before.history other userId provider subject) :
    Traces hash initial slot before after event where
  history := history
  stay := by
    rw [users]
    exact fun _ user stored => ⟨user, stored, rfl⟩
  identities := by
    rw [users]
    exact fun _ later _ _ stored has => .inl ⟨later, stored, has⟩
  links := fun other userId provider subject linked => absurd linked (links other userId provider subject)
  states := states
  tickets := tickets
  issues := issues

theorem traces_refl (slot : Nat) (store : AuthStore) : Traces hash initial slot store store none :=
  traces_other rfl (List.append_nil _).symm (fun _ _ _ _ linked => by cases linked)
        (fun _ _ stored => .inl stored) (fun _ _ stored => .same stored)
    fun _ _ _ _ issued => by cases issued

variable {config : AuthConfig} {user : BabamulUser}

theorem traces_insertUser {base : AuthStore} {userId : String} {inserted : AuthStore}
    (made : base.insertUser config userId user = some inserted) (users : base.users = before.users)
    (states : base.states = before.states) (tickets : base.tickets = before.tickets) (after_users : after.users = inserted.users)
    (after_states : after.states = inserted.states) (after_tickets : after.tickets = inserted.tickets)
    (history : after.history = before.history ++ event.toList)
    (identities : ∀ provider subject, AuthStore.hasIdentity user provider subject = true →
      event = some (.linked slot userId provider subject))
    (links : ∀ other userId provider subject, event = some (.linked other userId provider subject) → other = slot)
    (issues : ∀ other userId provider subject, event ≠ some (.issued other userId provider subject)) :
    Traces hash initial slot before after event := by
  have added : before.users.insertOne userId user = some after.users ∧ after.states = before.states ∧
      after.tickets = before.tickets := by
    unfold AuthStore.insertUser at made
    split at made
    · cases made
    split at made
    · cases made
    · obtain ⟨grown, insertedUsers, rfl⟩ := Option.map_eq_some_iff.mp made
      rw [after_users, after_states, after_tickets, ← users]
      exact ⟨insertedUsers, states, tickets⟩
  have getAfter := Collection.get_insertOne added.1
  refine ⟨history, ?_, ?_, links, ?_, ?_, fun other userId provider subject issued =>
    absurd issued (issues other userId provider subject)⟩
  · intro other known stored
    have differs : other ≠ userId := by
      rintro rfl
      rw [Collection.absent_of_insertOne added.1] at stored
      cases stored
    exact ⟨known, by rw [getAfter, if_neg differs, stored], rfl⟩
  · intro other later provider subject stored has
    rw [getAfter] at stored
    split at stored
    next same =>
      obtain rfl := Option.some.inj stored
      exact .inr (same ▸ identities provider subject has)
    next => exact .inl ⟨later, stored, has⟩
  · rw [added.2.1]
    exact fun _ _ stored => .inl stored
  · rw [added.2.2]
    exact fun _ _ stored => .same stored

theorem insertUser_made {base inserted : AuthStore} {userId : String}
    (made : base.insertUser config userId user = some inserted) :
    inserted.history = base.history ∧ inserted.users.get userId = some user := by
  unfold AuthStore.insertUser at made
  split at made
  · cases made
  split at made
  · cases made
  · obtain ⟨grown, added, rfl⟩ := Option.map_eq_some_iff.mp made
    exact ⟨rfl, by rw [Collection.get_insertOne added, if_pos rfl]⟩

variable {identity : ExternalIdentity}

theorem hasIdentity_link {existing : BabamulUser} {email : String} {now : Int} {subject : String}
    (has : AuthStore.hasIdentity (Resolve.link existing identity email now user) provider subject = true) :
    AuthStore.hasIdentity user provider subject = true ∨ identity.provider = provider ∧ identity.subject = subject := by
  simpa [AuthStore.hasIdentity, Resolve.link, Resolve.linkedIdentity] using has

theorem hasIdentity_newSocialUser {email password : String} {now : Int} {subject : String}
    (has : AuthStore.hasIdentity (Resolve.newSocialUser identity email password now) provider subject = true) :
    identity.provider = provider ∧ identity.subject = subject := by
  simpa [AuthStore.hasIdentity, Resolve.newSocialUser, Resolve.linkedIdentity] using has

/-! ## Matching an identity -/

def Unlinked (slot : Nat) (history : List AuthEvent) : Prop :=
  ∀ userId provider subject, .linked slot userId provider subject ∉ history

def Sworn (history : List AuthEvent) (slot : Nat) (identity : ExternalIdentity) : Prop :=
  ∀ email, Resolve.verifiedEmail identity = some email → Vouched history slot identity.provider identity.subject email

variable (initial) in
def Resolve.Backed (slot : Nat) (store : AuthStore) (identity : ExternalIdentity) : Resolve → Prop
  | .finding => Unlinked slot store.history
  | .matching email | .inserting email => Vouched store.history slot identity.provider identity.subject email
  | .activating userId | .linking userId _ _ | .issuing userId =>
      Proven initial store.users store.history slot userId identity.provider identity.subject
  | _ => True

variable {store : AuthStore}

theorem proven_of_found (recorded : Recorded hash initial store) {slot : Nat}
    (unlinked : Unlinked slot store.history) {subject userId : String}
    (found : store.findIdentity provider subject = some (userId, user)) :
    Proven initial store.users store.history slot userId provider subject := by
  have stored : store.users.get userId = some user := Collection.mem_entries_iff.mp (List.mem_of_find?_eq_some found)
  have has : AuthStore.hasIdentity user provider subject = true := by
    unfold AuthStore.findIdentity at found
    have selected := List.find?_some found
    exact selected
  refine ⟨user, stored, .inl ?_⟩
  rcases recorded.identities userId user provider subject stored has with first | ⟨other, member⟩
  · exact .inl first
  · refine .inr ⟨other, ?_, member⟩
    rintro rfl
    exact unlinked userId provider subject member

theorem stored_of_findEmail {email userId : String}
    (found : store.findEmail email = some (userId, user)) : store.users.get userId = some user ∧ user.email = email := by
  unfold AuthStore.findEmail at found
  exact ⟨Collection.mem_entries_iff.mp (List.mem_of_find?_eq_some found), by simpa using List.find?_some found⟩

theorem resolve_step {outcome : AuthOutcome} (recorded : Recorded hash initial store)
    (sworn : Sworn store.history slot identity) (resolve : Resolve)
    (backed : resolve.Backed initial slot store identity) :
    ∃ event, Traces hash initial slot store (resolve.act config outcome slot store identity).1 event ∧
      (resolve.act config outcome slot store identity).2.Backed initial slot
        (resolve.act config outcome slot store identity).1 identity := by
  cases resolve with
  | finding =>
    refine ⟨none, ?_⟩
    simp only [Resolve.act]
    split
    next userId user found =>
      have proven := proven_of_found recorded backed found
      split
      next => exact ⟨traces_refl slot store, proven⟩
      next =>
        split
        next => exact ⟨traces_refl slot store, proven⟩
        next => exact ⟨traces_refl slot store, trivial⟩
    next =>
      split
      next => exact ⟨traces_refl slot store, trivial⟩
      next email verified => exact ⟨traces_refl slot store, sworn email verified⟩
  | activating userId =>
    -- Activation gives the user no identity.
    let change (user : BabamulUser) : BabamulUser := { user with isActivated := true, activationCode := none }
    have traces : Traces hash initial slot store (store.setUser userId change) none :=
      traces_setUser change rfl rfl rfl (List.append_nil _).symm (fun _ => rfl) (fun _ _ _ has => .inl has)
        (fun _ _ _ _ linked => by cases linked) fun _ _ _ _ issued => by cases issued
    exact ⟨none, traces, Proven.grows traces.remembers traces.stay backed⟩
  | parking =>
    simp only [Resolve.act]
    split
    next tickets inserted =>
      refine ⟨some (.parked outcome.fresh identity.provider identity.subject), ?_, trivial⟩
      refine traces_other rfl rfl (fun _ _ _ _ linked => by cases linked) (fun _ _ stored => .inl stored) ?_
        fun _ _ _ _ issued => by cases issued
      intro ticket pending stored
      have held : tickets.get ticket = some pending := stored
      -- The parked ticket is the only new one.
      rw [Collection.get_insertOne inserted] at held
      split at held
      next same =>
        subst same
        obtain rfl := Option.some.inj held
        exact .inl ⟨rfl, rfl⟩
      next => exact .same held
    next => exact ⟨none, traces_refl slot store, trivial⟩
  -- A user is found by the address, which the provider or a code has confirmed.
  | matching email =>
    refine ⟨none, ?_⟩
    simp only [Resolve.act]
    split
    next userId existing found =>
      obtain ⟨stored, isEmail⟩ := stored_of_findEmail found
      refine ⟨traces_refl slot store, existing, stored, .inr ?_⟩
      rw [isEmail]
      exact backed
    next =>
      split
      next => exact ⟨traces_refl slot store, backed⟩
      next => exact ⟨traces_refl slot store, trivial⟩
  | linking userId existing email =>
    simp only [Resolve.act]
    split
    next => exact ⟨none, traces_refl slot store, trivial⟩
    next =>
      have traces : Traces hash initial slot store
          ((store.setUser userId (Resolve.link existing identity email store.now)).log
            [.linked slot userId identity.provider identity.subject])
          (some (.linked slot userId identity.provider identity.subject)) := by
        refine traces_setUser (Resolve.link existing identity email store.now) rfl rfl rfl rfl (fun _ => rfl) ?_ ?_
          fun _ _ _ _ issued => by cases issued
        · intro user provider subject has
          -- Linking adds this identity and no other.
          rcases hasIdentity_link has with had | ⟨rfl, rfl⟩
          · exact .inl had
          · exact .inr rfl
        · rintro _ _ _ _ ⟨⟩
          rfl
      exact ⟨_, traces, Proven.grows traces.remembers traces.stay backed⟩
  | inserting email =>
    simp only [Resolve.act]
    split
    next inserted made =>
      have traces : Traces hash initial slot store
          (inserted.log [.linked slot outcome.userId identity.provider identity.subject])
          (some (.linked slot outcome.userId identity.provider identity.subject)) := by
        refine traces_insertUser made rfl rfl rfl rfl rfl rfl ?_ ?_ ?_ fun _ _ _ _ issued => by cases issued
        · rw [← (insertUser_made made).1]
          rfl
        · intro provider subject has
          obtain ⟨rfl, rfl⟩ := hasIdentity_newSocialUser has
          rfl
        · rintro _ _ _ _ ⟨⟩
          rfl
      exact ⟨_, traces, _, (insertUser_made made).2, .inr (backed.grows traces.remembers)⟩
    next => exact ⟨none, traces_refl slot store, trivial⟩
  | issuing userId =>
    refine ⟨some (.issued slot userId identity.provider identity.subject), ?_, trivial⟩
    refine traces_other rfl rfl (fun _ _ _ _ linked => by cases linked)
        (fun _ _ stored => .inl stored) (fun _ _ stored => .same stored) ?_
    rintro _ _ _ _ ⟨⟩
    exact backed
  | issued userId => exact ⟨none, traces_refl slot store, trivial⟩
  | ended resolution => exact ⟨none, traces_refl slot store, trivial⟩

/-! ## The operations of each request -/

variable (initial) in
def Flow.Backed (slot : Nat) (store : AuthStore) : Flow → Prop
  | .callback _ _ .consuming | .callback _ _ .exchanging | .verify _ _ (.claiming _) => Unlinked slot store.history
  | .verify _ _ (.burning identity) => Unlinked slot store.history ∧ Sworn store.history slot identity
  | .callback _ _ (.resolving identity resolve) | .verify _ _ (.resolving identity resolve) =>
      Sworn store.history slot identity ∧ resolve.Backed initial slot store identity
  | _ => True

section Flows

variable {config : AuthConfig} {outcome : AuthOutcome} {store : AuthStore}

theorem traces_signUp (email : String) (phase : SignUp) :
    ∃ event, Traces hash initial slot store (phase.act config outcome store email).1 event := by
  refine ⟨none, ?_⟩
  cases phase with
  | reading =>
    simp only [SignUp.act]
    split
    · split <;> exact traces_refl slot store
    · split <;> exact traces_refl slot store
  | recoding userId =>
    exact traces_setUser (fun user => { user with activationCode := some outcome.fresh }) rfl rfl rfl (List.append_nil _).symm
      (fun _ => rfl) (fun _ _ _ has => .inl has) (fun _ _ _ _ linked => by cases linked) fun _ _ _ _ issued => by cases issued
  | inserting =>
    simp only [SignUp.act]
    split
    next inserted made =>
      refine traces_insertUser made rfl rfl rfl rfl rfl rfl ?_ ?_ (fun _ _ _ _ linked => by cases linked)
        fun _ _ _ _ issued => by cases issued
      · rw [(insertUser_made made).1]
        exact (List.append_nil _).symm
      · intro provider subject has
        simp [AuthStore.hasIdentity, SignUp.newUser] at has
    next => exact traces_refl slot store
  | answered answer => exact traces_refl slot store

theorem traces_activate (email code : String) (phase : Activate) :
    ∃ event, Traces hash initial slot store (phase.act outcome slot store email code).1 event := by
  cases phase with
  | reading =>
    refine ⟨none, ?_⟩
    simp only [Activate.act]
    split
    · exact traces_refl slot store
    · split
      · exact traces_refl slot store
      · split <;> exact traces_refl slot store
  | updating userId =>
    let change (user : BabamulUser) : BabamulUser :=
      { user with isActivated := true, activationCode := none, passwordHash := ⟨outcome.password⟩ }
    exact ⟨some (.activated slot userId code outcome.password), traces_setUser change rfl rfl rfl rfl (fun _ => rfl)
      (fun _ _ _ has => .inl has) (fun _ _ _ _ linked => by cases linked) fun _ _ _ _ issued => by cases issued⟩
  | answered answer => exact ⟨none, traces_refl slot store⟩

theorem traces_forgot (email : String) (phase : Forgot) :
    ∃ event, Traces hash initial slot store (phase.act hash config outcome store email).1 event := by
  refine ⟨none, ?_⟩
  cases phase with
  | reading =>
    simp only [Forgot.act]
    split
    · exact traces_refl slot store
    · split
      · exact traces_refl slot store
      · split <;> exact traces_refl slot store
  | storing userId now =>
    let change (user : BabamulUser) : BabamulUser :=
      { user with
        passwordResetTokenHash := some (hash outcome.fresh)
        passwordResetTokenExpiresAt := some (now + 3600) }
    exact traces_setUser change rfl rfl rfl (List.append_nil _).symm (fun _ => rfl) (fun _ _ _ has => .inl has)
      (fun _ _ _ _ linked => by cases linked) fun _ _ _ _ issued => by cases issued
  | answered answer => exact traces_refl slot store

theorem traces_reset (email token newPassword : String) (phase : Reset) :
    ∃ event, Traces hash initial slot store (phase.act hash config slot store email token newPassword).1 event := by
  cases phase with
  | reading now =>
    refine ⟨none, ?_⟩
    simp only [Reset.act]
    split
    · exact traces_refl slot store
    · split <;> exact traces_refl slot store
  | updating userId now =>
    let change (user : BabamulUser) : BabamulUser :=
      { user with
        passwordHash := ⟨newPassword⟩
        passwordLastChangedAt := some now
        passwordResetTokenHash := none
        passwordResetTokenExpiresAt := none }
    exact ⟨some (.reset slot userId (hash token) newPassword), traces_setUser change rfl rfl rfl rfl (fun _ => rfl)
      (fun _ _ _ has => .inl has) (fun _ _ _ _ linked => by cases linked) fun _ _ _ _ issued => by cases issued⟩
  | answered answer => exact ⟨none, traces_refl slot store⟩

theorem traces_start (browser : Nat) (provider : OAuthProviderKind) (phase : Start) :
    ∃ event, Traces hash initial slot store (phase.act config outcome browser store provider).1 event := by
  cases phase with
  | inserting =>
    simp only [Start.act]
    split
    next states inserted =>
      refine ⟨some (.started outcome.fresh browser), traces_other rfl rfl (fun _ _ _ _ linked => by cases linked) ?_
        (fun _ _ stored => .same stored) fun _ _ _ _ issued => by cases issued⟩
      intro state pending stored
      have held : states.get state = some pending := stored
      rw [Collection.get_insertOne inserted] at held
      split at held
      next same =>
        subst same
        obtain rfl := Option.some.inj held
        exact .inr rfl
      next => exact .inl held
    next => exact ⟨none, traces_refl slot store⟩
  | answered answer => exact ⟨none, traces_refl slot store⟩

theorem ticketFrom_update {ticket : String} {filter : PendingIdentity → Bool} {change : PendingIdentity → PendingIdentity}
    (changes : ∀ held, store.tickets.get ticket = some held → TicketFrom hash store event ticket (change held))
    (other : String) (pending : PendingIdentity) (stored : (store.tickets.updateOne ticket filter change).get other = some pending) :
    TicketFrom hash store event other pending := by
  obtain ⟨rfl, held, known, rfl⟩ | ⟨-, known⟩ := Collection.cases_updateOne stored
  · split
    · exact changes held known
    · exact .same known
  · exact .same known

theorem ticketFrom_delete {filter : String → PendingIdentity → Bool} (ticket : String) (pending : PendingIdentity)
    (stored : (store.tickets.deleteMany filter).get ticket = some pending) : TicketFrom hash store event ticket pending := by
  rw [Collection.get_deleteMany] at stored
  exact .same (Option.filter_eq_some_iff.mp stored).1

theorem traces_complete (ticket email : String) (phase : Complete) :
    ∃ event, Traces hash initial slot store (phase.act hash outcome store ticket email).1 event := by
  cases phase with
  | loading now =>
    refine ⟨none, ?_⟩
    simp only [Complete.act]
    split <;> exact traces_refl slot store
  | attaching expiresAt =>
    simp only [Complete.act]
    split
    next =>
      refine ⟨some (.mailed ticket email outcome.code), traces_other rfl rfl (fun _ _ _ _ linked => by cases linked)
        (fun _ _ stored => .inl stored) ?_ fun _ _ _ _ issued => by cases issued⟩
      refine ticketFrom_update fun held known => .inr ⟨held, known, rfl, rfl, .inr ⟨email, outcome.code, rfl, rfl, rfl⟩⟩
    next => exact ⟨none, traces_refl slot store⟩
  | answered answer => exact ⟨none, traces_refl slot store⟩

theorem Unlinked.keep {other : Nat} (unlinked : Unlinked slot before.history)
    (traces : Traces hash initial other before after event) (silent : ∀ userId provider subject,
      event ≠ some (.linked slot userId provider subject)) : Unlinked slot after.history := by
  intro userId provider subject member
  rw [traces.history] at member
  rcases List.mem_append.mp member with old | new
  · exact unlinked userId provider subject old
  · exact silent userId provider subject (by simpa using new)

theorem Sworn.grows {history later : List AuthEvent} (grows : history ⊆ later)
    (sworn : Sworn history slot identity) : Sworn later slot identity :=
  fun email verified => (sworn email verified).grows grows

theorem callback_step (recorded : Recorded hash initial store) (provider : OAuthProviderKind) (state : String) (phase : Callback)
    (backed : (Flow.callback provider state phase).Backed initial slot store) :
    ∃ event, Traces hash initial slot store (phase.act config outcome slot store provider state).1 event ∧
      (Flow.callback provider state (phase.act config outcome slot store provider state).2).Backed initial slot
        (phase.act config outcome slot store provider state).1 := by
  cases phase with
  | consuming =>
    have consumed : Traces hash initial slot store
        (({ store with states := store.states.deleteMany fun key _ => key = state }).log [.consumed slot state])
        (some (.consumed slot state)) := by
      refine traces_other rfl rfl (fun _ _ _ _ linked => by cases linked) ?_ (fun _ _ stored => .same stored)
        fun _ _ _ _ issued => by cases issued
      intro other pending stored
      have held : (store.states.deleteMany fun key _ => key = state).get other = some pending := stored
      rw [Collection.get_deleteMany] at held
      exact .inl (Option.filter_eq_some_iff.mp held).1
    simp only [Callback.act]
    split
    next => exact ⟨none, traces_refl slot store, trivial⟩
    next =>
      refine ⟨some (.consumed slot state), ?_⟩
      split
      next => exact ⟨consumed, trivial⟩
      next =>
        split
        next => exact ⟨consumed, trivial⟩
        next => exact ⟨consumed, Unlinked.keep backed consumed fun _ _ _ linked => by cases linked⟩
  | exchanging =>
    simp only [Callback.act]
    split
    next => exact ⟨none, traces_refl slot store, trivial⟩
    next identity _ =>
      have asserted : Traces hash initial slot store (store.log [.asserted slot { identity with provider := provider }])
          (some (.asserted slot { identity with provider := provider })) :=
        traces_other rfl rfl (fun _ _ _ _ linked => by cases linked)
        (fun _ _ stored => .inl stored) (fun _ _ stored => .same stored)
          fun _ _ _ _ issued => by cases issued
      refine ⟨_, asserted, ?_, Unlinked.keep backed asserted fun _ _ _ linked => by cases linked⟩
      intro email verified
      refine .inl ⟨_, asserted.adds rfl, rfl, rfl, ?_⟩
      simpa [Resolve.verifiedEmail] using verified
  | resolving identity resolve =>
    obtain ⟨sworn, backed⟩ := backed
    have resolved : ∃ event, Traces hash initial slot store (resolve.act config outcome slot store identity).1 event ∧
        (resolve.act config outcome slot store identity).2.Backed initial slot
          (resolve.act config outcome slot store identity).1 identity := resolve_step recorded sworn resolve backed
    obtain ⟨event, traces, backedAfter⟩ := resolved
    refine ⟨event, traces, ?_⟩
    simp only [Callback.act]
    unfold Callback.next
    split
    next => trivial
    next => trivial
    next => exact ⟨sworn.grows traces.remembers, backedAfter⟩
  | answered answer => exact ⟨none, traces_refl slot store, backed⟩

section

variable (injective : Function.Injective hash)
include injective

theorem sworn_of_confirmed {ticket code email codeHash : String} {pending : PendingIdentity}
    (recorded : Recorded hash initial store) (stored : store.tickets.get ticket = some pending) (given : pending.email = some email)
    (hashed : pending.codeHash = some codeHash) (right : hash code = codeHash) {history : List AuthEvent}
    (grows : store.history ⊆ history) (presented : .presented slot ticket code ∈ history) :
    Sworn history slot (Verify.confirmed pending email) := by
  intro other verified
  have same : email = other := by simpa [Resolve.verifiedEmail, Verify.confirmed] using verified
  subst same
  obtain ⟨mailedCode, isHash, mailed⟩ := recorded.codes ticket pending email codeHash stored given hashed
  obtain rfl := injective (right.trans isHash)
  exact .inr ⟨ticket, code, grows (recorded.tickets ticket pending stored), grows mailed, presented⟩

theorem verify_step (recorded : Recorded hash initial store) (ticket code : String)
    (phase : Verify) (backed : (Flow.verify ticket code phase).Backed initial slot store) :
    ∃ event, Traces hash initial slot store (phase.act hash config outcome slot store ticket code).1 event ∧
      (Flow.verify ticket code (phase.act hash config outcome slot store ticket code).2).Backed initial slot
        (phase.act hash config outcome slot store ticket code).1 := by
  cases phase with
  | claiming now =>
    simp only [Verify.act]
    split
    next => exact ⟨none, traces_refl slot store, trivial⟩
    next pending found =>
      obtain ⟨stored, _⟩ := Option.filter_eq_some_iff.mp found
      have claimed : Traces hash initial slot store
          (({ store with tickets := store.tickets.updateOne ticket (Verify.selects now) fun pending =>
            { pending with attempts := pending.attempts + 1 } }).log [.presented slot ticket code])
          (some (.presented slot ticket code)) := by
        refine traces_other rfl rfl (fun _ _ _ _ linked => by cases linked) (fun _ _ stored => .inl stored) ?_
          fun _ _ _ _ issued => by cases issued
        -- An attempt is counted, and the ticket stays the one that was parked.
        exact ticketFrom_update fun held known => .inr ⟨held, known, rfl, rfl, .inl ⟨rfl, rfl⟩⟩
      refine ⟨_, claimed, ?_⟩
      unfold Verify.checks
      split
      next email codeHash given hashed =>
        split
        next => trivial
        next =>
          split
          next => trivial
          next right =>
            -- The code that was sent to the address is the one presented.
            have sworn := sworn_of_confirmed injective recorded stored given hashed (not_not.mp right) claimed.remembers
              (claimed.adds rfl)
            exact ⟨Unlinked.keep backed claimed (fun _ _ _ linked => by cases linked), sworn⟩
      next => trivial
  | refusing now =>
    refine ⟨none, ?_⟩
    simp only [Verify.act]
    split
    next => exact ⟨traces_refl slot store, trivial⟩
    next => exact ⟨traces_refl slot store, trivial⟩
  | discarding =>
    refine ⟨none, ?_, trivial⟩
    exact traces_other rfl (List.append_nil _).symm (fun _ _ _ _ linked => by cases linked)
      (fun _ _ stored => .inl stored) ticketFrom_delete fun _ _ _ _ issued => by cases issued
  | burning identity =>
    obtain ⟨unlinked, sworn⟩ := backed
    simp only [Verify.act]
    split
    next => exact ⟨none, traces_refl slot store, trivial⟩
    next =>
      have burned : Traces hash initial slot store
          (({ store with tickets := store.tickets.deleteMany fun key _ => key = ticket }).log [.burned slot ticket])
          (some (.burned slot ticket)) :=
        traces_other rfl rfl (fun _ _ _ _ linked => by cases linked)
          (fun _ _ stored => .inl stored) ticketFrom_delete fun _ _ _ _ issued => by cases issued
      exact ⟨_, burned, sworn.grows burned.remembers, unlinked.keep burned fun _ _ _ linked => by cases linked⟩
  | resolving identity resolve =>
    obtain ⟨sworn, backed⟩ := backed
    have resolved : ∃ event, Traces hash initial slot store (resolve.act config outcome slot store identity).1 event ∧
        (resolve.act config outcome slot store identity).2.Backed initial slot
          (resolve.act config outcome slot store identity).1 identity := resolve_step recorded sworn resolve backed
    obtain ⟨event, traces, backedAfter⟩ := resolved
    refine ⟨event, traces, ?_⟩
    simp only [Verify.act]
    unfold Verify.next
    split
    next => trivial
    next => trivial
    next => exact ⟨sworn.grows traces.remembers, backedAfter⟩
  | answered answer => exact ⟨none, traces_refl slot store, backed⟩

/-! ## Accounts, over runs -/

theorem auth_step {store' : AuthStore} {request after : AuthRequest}
    (recorded : Recorded hash initial store) (backed : request.flow.Backed initial slot store)
    (acted : AuthActs hash config slot store request store' after) :
    ∃ event, Traces hash initial slot store store' event ∧ after.flow.Backed initial slot store' := by
  obtain ⟨browser, flow⟩ := request
  cases acted with
  | fail _ => exact ⟨none, traces_refl slot store, by cases flow <;> trivial⟩
  | proceed outcome unused =>
    cases flow with
    | signUp email phase =>
      exact (traces_signUp email phase).imp fun _ traces => ⟨traces, trivial⟩
    | activate email code phase =>
      exact (traces_activate email code phase).imp fun _ traces => ⟨traces, trivial⟩
    | forgot email phase =>
      exact (traces_forgot email phase).imp fun _ traces => ⟨traces, trivial⟩
    | reset email token newPassword phase =>
      exact (traces_reset email token newPassword phase).imp fun _ traces => ⟨traces, trivial⟩
    | start provider phase =>
      exact (traces_start browser provider phase).imp fun _ traces => ⟨traces, trivial⟩
    | callback provider state phase => exact callback_step recorded provider state phase backed
    | complete ticket email phase =>
      exact (traces_complete ticket email phase).imp fun _ traces => ⟨traces, trivial⟩
    | verify ticket code phase => exact verify_step injective recorded ticket code phase backed

end

end Flows

theorem traces_outside {store store' : AuthStore} (moved : AuthOutside store store') :
    Traces hash initial slot store store' none := by
  cases moved with
  | tick later _ =>
    exact traces_other rfl (List.append_nil _).symm (fun _ _ _ _ linked => by cases linked) (fun _ _ stored => .inl stored)
      (fun _ _ stored => .same stored) fun _ _ _ _ issued => by cases issued
  | sweepState state =>
    refine traces_other rfl (List.append_nil _).symm (fun _ _ _ _ linked => by cases linked) ?_
      (fun _ _ stored => .same stored) fun _ _ _ _ issued => by cases issued
    intro other pending stored
    rw [Collection.get_deleteMany] at stored
    exact .inl (Option.filter_eq_some_iff.mp stored).1
  | sweepTicket ticket =>
    exact traces_other rfl (List.append_nil _).symm (fun _ _ _ _ linked => by cases linked) (fun _ _ stored => .inl stored)
      ticketFrom_delete fun _ _ _ _ issued => by cases issued

theorem Resolve.Backed.frame {other : Nat} {resolve : Resolve}
    (backed : resolve.Backed initial slot before identity) (traces : Traces hash initial other before after event)
    (silent : ∀ userId provider subject, event ≠ some (.linked slot userId provider subject)) :
    resolve.Backed initial slot after identity := by
  cases resolve with
  | finding => exact Unlinked.keep backed traces silent
  | matching email => exact Vouched.grows traces.remembers backed
  | inserting email => exact Vouched.grows traces.remembers backed
  | activating userId => exact Proven.grows traces.remembers traces.stay backed
  | linking userId existing email => exact Proven.grows traces.remembers traces.stay backed
  | issuing userId => exact Proven.grows traces.remembers traces.stay backed
  | _ => trivial

theorem Flow.Backed.frame {other : Nat} {flow : Flow} (backed : flow.Backed initial slot before)
    (traces : Traces hash initial other before after event)
    (silent : ∀ userId provider subject, event ≠ some (.linked slot userId provider subject)) :
    flow.Backed initial slot after := by
  unfold Flow.Backed at backed ⊢
  split at backed
  · exact backed.keep traces silent
  · exact backed.keep traces silent
  · exact backed.keep traces silent
  · exact ⟨backed.1.keep traces silent, backed.2.grows traces.remembers⟩
  · exact ⟨backed.1.grows traces.remembers, backed.2.frame traces silent⟩
  · exact ⟨backed.1.grows traces.remembers, backed.2.frame traces silent⟩
  · trivial

variable (initial) in
def BackedSlot (slot : Nat) (store : AuthStore) : Option AuthRequest → Prop
  | none => Unlinked slot store.history
  | some request => request.flow.Backed initial slot store

theorem BackedSlot.frame {other : Nat} {request : Option AuthRequest} (backed : BackedSlot initial slot before request)
    (traces : Traces hash initial other before after event)
    (silent : ∀ userId provider subject, event ≠ some (.linked slot userId provider subject)) :
    BackedSlot initial slot after request := by
  cases request with
  | none => exact Unlinked.keep backed traces silent
  | some request => exact Flow.Backed.frame backed traces silent

theorem backed_arrives {now : Int} {flow : Flow} (arrives : flow.Arrives config now)
    (unlinked : Unlinked slot store.history) : flow.Backed initial slot store := by
  cases arrives with
  | callback provider code state error =>
    unfold Callback.arrives
    split
    · trivial
    · split
      · trivial
      · split
        · trivial
        · exact unlinked
  | verify ticket code => exact unlinked
  | _ => trivial

theorem accounts_kept (injective : Function.Injective hash) (config : AuthConfig) :
    Requests.Kept (authRules hash config) (Recorded hash initial) (BackedSlot initial) where
  starts := fun _ _ _ _ unlinked arrives => backed_arrives arrives unlinked
  acts := by
    intro slot store request store' after recorded backed acted
    obtain ⟨event, traces, backedAfter⟩ := auth_step injective recorded backed acted
    exact ⟨recorded.step traces, backedAfter⟩
  others := by
    intro slot store request store' after recorded backed acted other bystander differs before
    obtain ⟨event, traces, _⟩ := auth_step injective recorded backed acted
    exact before.frame traces fun userId provider subject linked => differs (traces.links other userId provider subject linked)
  outside := by
    intro store store' recorded moved
    have traces : ∀ slot, Traces hash initial slot store store' none := fun _ => traces_outside moved
    exact ⟨recorded.step (traces 0), fun slot request before => before.frame (traces slot) fun _ _ _ linked => by cases linked⟩

variable (initial) in
structure Opened (store : AuthStore) : Prop where
  same : store = initial
  history : store.history = []
  states : ∀ state, store.states.get state = none
  tickets : ∀ ticket, store.tickets.get ticket = none

theorem recorded_opened (opened : Opened initial store) : Recorded hash initial store := by
  obtain ⟨rfl, history, states, tickets⟩ := opened
  refine ⟨?_, ?_, ?_, ?_, ?_⟩
  · intro state pending stored
    rw [states] at stored
    cases stored
  · intro ticket pending stored
    rw [tickets] at stored
    cases stored
  · intro ticket pending email codeHash stored
    rw [tickets] at stored
    cases stored
  · exact fun userId user provider subject stored has => .inl ⟨user, stored, has⟩
  · intro before after slot userId provider subject split
    simp [history] at split

theorem unlinked_opened (opened : Opened initial store) (slot : Nat) : Unlinked slot store.history := by
  intro userId provider subject member
  simp [opened.history] at member

/-! ## Browsers, over runs -/

def AuthRequest.Returns (store : AuthStore) (request : AuthRequest) : Prop :=
  match request.flow with
  | .callback _ state .exchanging | .callback _ state (.resolving _ _) | .callback _ state (.answered (.token _)) =>
      .started state request.browser ∈ store.history
  | _ => True

theorem AuthRequest.Returns.grows {store later : AuthStore} (grows : store.history ⊆ later.history) {request : AuthRequest}
    (returns : request.Returns store) : request.Returns later := by
  unfold AuthRequest.Returns at returns ⊢
  split at returns
  · exact grows returns
  · exact grows returns
  · exact grows returns
  · trivial

theorem returns_callback {outcome : AuthOutcome} (recorded : Recorded hash initial store)
    (browser : Nat) (provider : OAuthProviderKind) (state : String) (phase : Callback)
    (own : (⟨browser, .callback provider state phase⟩ : AuthRequest).OwnState store)
    (returns : (⟨browser, .callback provider state phase⟩ : AuthRequest).Returns store) :
    (⟨browser, .callback provider state (phase.act config outcome slot store provider state).2⟩ : AuthRequest).Returns store := by
  cases phase with
  | consuming =>
    simp only [Callback.act]
    split
    next => trivial
    next pending stored =>
      split
      next => trivial
      next alive =>
        split
        next => trivial
        next same =>
          have started := recorded.states state pending stored
          rw [own pending stored (by omega) (not_not.mp same)] at started
          exact started
  | exchanging =>
    simp only [Callback.act]
    split
    next => trivial
    next => exact returns
  | resolving identity resolve =>
    simp only [Callback.act]
    unfold Callback.next
    split
    next => exact returns
    next resolution _ => cases resolution <;> trivial
    next => exact returns
  | answered answer => exact returns

theorem returns_act {store store' : AuthStore} {request after : AuthRequest}
    (recorded : Recorded hash initial store) (returns : request.Returns store) (grows : store.history ⊆ store'.history)
    (acted : (ownStates hash config).acts slot store request store' after) : after.Returns store' := by
  obtain ⟨acted, own⟩ := acted
  obtain ⟨browser, flow⟩ := request
  cases acted with
  | fail _ => cases flow <;> trivial
  | proceed outcome unused =>
    cases flow with
    | callback provider state phase => exact (returns_callback recorded browser provider state phase own returns).grows grows
    | _ => trivial

theorem returns_arrives {now : Int} {request : AuthRequest} (arrives : request.flow.Arrives config now)
    (store : AuthStore) : request.Returns store := by
  obtain ⟨browser, flow⟩ := request
  cases arrives with
  | callback provider code state error =>
    unfold Callback.arrives
    split
    · trivial
    · split
      · trivial
      · split <;> trivial
  | _ => trivial

variable (initial) in
def ReturnsSlot (slot : Nat) (store : AuthStore) (request : Option AuthRequest) : Prop :=
  BackedSlot initial slot store request ∧ ∀ running ∈ request, running.Returns store

theorem returns_kept (injective : Function.Injective hash) (config : AuthConfig) :
    Requests.Kept (ownStates hash config) (Recorded hash initial) (ReturnsSlot initial) where
  starts := by
    intro slot store request recorded own arrives
    refine ⟨(accounts_kept injective config).starts slot store request recorded own.1 arrives, ?_⟩
    rintro _ ⟨⟩
    exact returns_arrives arrives store
  acts := by
    intro slot store request store' after recorded own acted
    obtain ⟨event, traces, backedAfter⟩ := auth_step injective recorded own.1 acted.1
    refine ⟨recorded.step traces, backedAfter, ?_⟩
    rintro _ ⟨⟩
    exact returns_act recorded (own.2 request rfl) traces.remembers acted
  others := by
    intro slot store request store' after recorded own acted other bystander differs before
    obtain ⟨event, traces, _⟩ := auth_step injective recorded own.1 acted.1
    refine ⟨(accounts_kept injective config).others slot store request store' after recorded own.1 acted.1 other bystander differs
      before.1, ?_⟩
    exact fun running isRunning => (before.2 running isRunning).grows traces.remembers
  outside := by
    intro store store' recorded moved
    obtain ⟨recordedAfter, backed⟩ := (accounts_kept injective config).outside store store' recorded moved
    have traces : Traces hash initial 0 store store' none := traces_outside moved
    refine ⟨recordedAfter, fun slot request before => ⟨backed slot request before.1, ?_⟩⟩
    exact fun running isRunning => (before.2 running isRunning).grows traces.remembers

end Initial

def SameBrowser (system : Requests AuthStore AuthRequest) : Prop :=
  ∀ slot browser provider state userId,
    system.slots slot = some ⟨browser, .callback provider state (.answered (.token userId))⟩ →
    .started state browser ∈ system.store.history

/-- In every run in which no browser comes back with a live state of another one, tokens
    are for the browsers that asked for them, and for accounts that are proven. -/
theorem social_sign_in_safe (injective : Function.Injective hash) (config : AuthConfig) (initial : AuthStore)
    {system : Requests AuthStore AuthRequest} (run : Requests.Run (ownStates hash config) (Opened initial) system) :
    SameBrowser system ∧ IssuesProven initial system.store := by
  have kept : Requests.Kept (ownStates hash config) (Recorded hash initial) (ReturnsSlot initial) := returns_kept injective config
  have holds := Requests.invariant kept
    (fun _ opened => ⟨recorded_opened opened, fun slot => ⟨unlinked_opened opened slot, fun _ absent => by cases absent⟩⟩) run
  refine ⟨?_, holds.store.issues⟩
  intro slot browser provider state userId running
  exact (holds.slots slot).2 _ running

def ownTurn (config : AuthConfig) (outcome : Nat → AuthOutcome) (slot : Nat) (store : AuthStore) (request : AuthRequest) :
    Option (AuthStore × AuthRequest) :=
  match request.flow with
  | .callback _ state .consuming =>
    if (store.states.get state).all fun pending => pending.startedBy = request.browser then
      authTurn hash config outcome slot store request
    else none
  | _ => authTurn hash config outcome slot store request

theorem acts_of_ownTurn (config : AuthConfig) (outcome : Nat → AuthOutcome) (slot : Nat) (store : AuthStore)
    (request : AuthRequest) (store' : AuthStore) (after : AuthRequest)
    (turned : ownTurn hash config outcome slot store request = some (store', after)) :
    (ownStates hash config).acts slot store request store' after := by
  obtain ⟨browser, flow⟩ := request
  unfold ownTurn at turned
  split at turned
  next provider state isCallback =>
    split at turned
    next own =>
      refine ⟨acts_of_authTurn hash config outcome slot store _ store' after turned, ?_⟩
      have isCallback : flow = .callback provider state .consuming := isCallback
      subst isCallback
      intro pending stored _ _
      rw [stored] at own
      simpa using own
    next => cases turned
  next notConsuming =>
    refine ⟨acts_of_authTurn hash config outcome slot store _ store' after turned, ?_⟩
    unfold AuthRequest.OwnState
    split
    next provider state isCallback => exact absurd isCallback (notConsuming provider state)
    next => trivial

end Hash

def passwordOnly : AuthStore where
  users := ⟨[("1", { SignUp.newUser "ada@sky.org" "code" "unknown" with isActivated := true, activationCode := none })], by decide⟩
  states := .empty
  tickets := .empty
  now := 0
  drawn := []
  history := []

theorem passwordOnly_opened : Opened passwordOnly passwordOnly where
  same := rfl
  history := rfl
  states := fun _ => rfl
  tickets := fun _ => rfl

def signInOutcome (slot : Nat) : AuthOutcome :=
  ⟨if slot = 0 then "state" else "other", "12345678", "unknown", "2",
    some ⟨.google, "ada", some "ada@sky.org", true, none, none⟩⟩

def signIn (turn : Nat → AuthStore → AuthRequest → Option (AuthStore × AuthRequest)) (starting returning : Nat) :
    Requests AuthStore AuthRequest :=
  let started := ((⟨passwordOnly, fun _ => none⟩ : Requests AuthStore AuthRequest).put 0 passwordOnly
    ⟨starting, .start .google .inserting⟩).schedule turn [0]
  (started.put 1 started.store ⟨returning, .callback .google "state" .consuming⟩).schedule turn [1, 1, 1, 1, 1, 1]

theorem signIn_run (rules : Requests.Rules AuthStore AuthRequest) (starts : rules.starts = (authRules id openConfig).starts)
    {turn : Nat → AuthStore → AuthRequest → Option (AuthStore × AuthRequest)}
    (allowed : ∀ slot store request store' after, turn slot store request = some (store', after) →
      rules.acts slot store request store' after) (starting returning : Nat) :
    Requests.Run rules (Opened passwordOnly) (signIn turn starting returning) := by
  have nobody : Requests.Run rules (Opened passwordOnly) ⟨passwordOnly, fun _ => none⟩ :=
    Reachable.start ⟨passwordOnly_opened, fun _ => rfl⟩
  have start := nobody.start 0 ⟨starting, .start .google .inserting⟩ rfl (by rw [starts]; exact .start .google)
  have started := start.schedule allowed [0]
  have idle := Requests.schedule_slots_of_notMem turn ((⟨passwordOnly, fun _ => none⟩ : Requests AuthStore AuthRequest).put 0
    passwordOnly ⟨starting, .start .google .inserting⟩) [0] (show 1 ∉ [0] by decide)
  have back := started.start 1 ⟨returning, .callback .google "state" .consuming⟩ idle (by rw [starts]; exact .callback .google "code" "state" false)
  exact back.schedule allowed [1, 1, 1, 1, 1, 1]

theorem social_sign_in_safe_google :
    (signIn (ownTurn id openConfig signInOutcome) 1 1).slots 1 =
        some ⟨1, .callback .google "state" (.answered (.token "1"))⟩ ∧
      SameBrowser (signIn (ownTurn id openConfig signInOutcome) 1 1) ∧
      IssuesProven passwordOnly (signIn (ownTurn id openConfig signInOutcome) 1 1).store := by
  have run : Requests.Run (ownStates id openConfig) (Opened passwordOnly) (signIn (ownTurn id openConfig signInOutcome) 1 1) :=
    signIn_run (ownStates id openConfig) rfl (acts_of_ownTurn id openConfig signInOutcome) 1 1
  exact ⟨by decide +kernel, social_sign_in_safe id Function.injective_id openConfig passwordOnly run⟩

/-- Browser 2 is handed the way back of browser 1, and gets a token for its account. -/
theorem signed_in_as_another :
    Requests.Run (authRules id openConfig) (Opened passwordOnly) (signIn (authTurn id openConfig signInOutcome) 1 2) ∧
      ¬ SameBrowser (signIn (authTurn id openConfig signInOutcome) 1 2) := by
  refine ⟨signIn_run (authRules id openConfig) rfl (acts_of_authTurn id openConfig signInOutcome) 1 2, fun same => ?_⟩
  have token : (signIn (authTurn id openConfig signInOutcome) 1 2).slots 1 =
      some ⟨2, .callback .google "state" (.answered (.token "1"))⟩ := by decide +kernel
  exact absurd (same 1 2 .google "state" "1" token) (by decide +kernel)

end Boom.Api
