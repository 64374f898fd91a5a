import Boom.Api.Accounts
import Boom.Foundations.Requests

/-! # Social sign-in

A sign-in starts with a random state, comes back from the provider with a code for it, and
ends with a token for the account the identity is matched to.  Without an email address
the provider vouches for, the identity waits under a ticket until the user confirms one
with a mailed code.

`Resolve` matches an identity to an account, for the callback as for the confirmation.  A
ghost field of a pending authorization, and the history, say who did what. -/

namespace Boom.Api

open Boom.Foundations

def pendingIdentityTtlSeconds : Int := 1800

def maxVerificationAttempts : Nat := 5

def maxCodeSends : Nat := 5

def registrationClosed : String :=
  "New accounts aren't being created yet. If you already have a Babamul account, sign in with the email address it uses."

/-! ## Matching an identity to an account -/

/-- Outcomes that are no sign-in. -/
inductive Resolution where
  | needsEmail (ticket : String) (suggestedEmail : Option String)
  | pendingActivation (email : String)
  | conflict (message : String)
deriving DecidableEq

inductive Resolve where
  | finding
  | activating (userId : String)
  | parking
  | matching (email : String)
  | linking (userId : String) (existing : BabamulUser) (email : String)
  | inserting (email : String)
  | issuing (userId : String)
  | issued (userId : String)
  | ended (resolution : Resolution)
deriving DecidableEq

namespace Resolve

def verifiedEmail (identity : ExternalIdentity) : Option String :=
  if identity.emailVerified then identity.email else none

def linkedIdentity (identity : ExternalIdentity) (email : String) (now : Int) : LinkedIdentity :=
  ⟨identity.provider, identity.subject, some email, now⟩

def nameToSet (existing : BabamulUser) (name : Option String) : Option String :=
  if existing.name.all fun held => held = "" then name.filter fun name => name ≠ "" else none

def link (existing : BabamulUser) (identity : ExternalIdentity) (email : String) (now : Int) (user : BabamulUser) : BabamulUser :=
  { user with
    isActivated := true
    activationCode := none
    orcidId := identity.orcidId.or user.orcidId
    name := (nameToSet existing identity.name).or user.name
    identities := user.identities ++ [linkedIdentity identity email now] }

def newSocialUser (identity : ExternalIdentity) (email password : String) (now : Int) : BabamulUser where
  email := email
  passwordHash := ⟨password⟩
  activationCode := none
  isActivated := true
  tokens := []
  passwordResetTokenHash := none
  passwordResetTokenExpiresAt := none
  passwordLastChangedAt := none
  identities := [linkedIdentity identity email now]
  orcidId := identity.orcidId
  name := identity.name

def pendingIdentity (identity : ExternalIdentity) (now : Int) : PendingIdentity where
  provider := identity.provider
  subject := identity.subject
  orcidId := identity.orcidId
  name := identity.name
  email := none
  codeHash := none
  codeExpiresAt := none
  attempts := 0
  codeSends := 0
  expiresAt := now + pendingIdentityTtlSeconds

/-- The next operation. -/
def act (config : AuthConfig) (outcome : AuthOutcome) (slot : Nat) (store : AuthStore) (identity : ExternalIdentity) :
    Resolve → AuthStore × Resolve
  | .finding =>
    match store.findIdentity identity.provider identity.subject with
    | some (userId, user) =>
      if user.isActivated then (store, .issuing userId)
      else if verifiedEmail identity = some user.email then (store, .activating userId)
      else (store, .ended (.pendingActivation user.email))
    | none =>
      match verifiedEmail identity with
      | none => (store, .parking)
      | some email => (store, .matching email)
  | .activating userId =>
    (store.setUser userId fun user => { user with isActivated := true, activationCode := none }, .issuing userId)
  | .parking =>
    match (store.draw outcome.fresh).tickets.insertOne outcome.fresh (pendingIdentity identity store.now) with
    | some tickets =>
      (({ store.draw outcome.fresh with tickets := tickets }).log [.parked outcome.fresh identity.provider identity.subject],
        .ended (.needsEmail outcome.fresh identity.email))
    | none => (store, .ended (.conflict "Sign-in failed"))
  | .matching email =>
    match store.findEmail email with
    | some (userId, existing) => (store, .linking userId existing email)
    | none =>
      if config.registrationEnabled then (store, .inserting email) else (store, .ended (.conflict registrationClosed))
  | .linking userId existing email =>
    if config.uniqueIdentities && store.identityTaken userId identity.provider identity.subject then
      (store, .ended (.conflict ("This sign-in is already connected to a different Babamul account. " ++
        "Sign in with that one, or contact support to merge them.")))
    else ((store.setUser userId (link existing identity email store.now)).log
      [.linked slot userId identity.provider identity.subject], .issuing userId)
  | .inserting email =>
    match store.insertUser config outcome.userId (newSocialUser identity email outcome.password store.now) with
    | some inserted => (inserted.log [.linked slot outcome.userId identity.provider identity.subject], .issuing outcome.userId)
    | none => (store, .ended
        (.conflict "That account was just created by another sign-in. Please try signing in again."))
  | .issuing userId => (store.log [.issued slot userId identity.provider identity.subject], .issued userId)
  | .issued userId => (store, .issued userId)
  | .ended resolution => (store, .ended resolution)

end Resolve

/-! ## Starting -/

inductive Start where
  | inserting
  | answered (answer : AuthAnswer)
deriving DecidableEq

namespace Start

def arrives (config : AuthConfig) (provider : OAuthProviderKind) : Start :=
  if config.enabled provider then .inserting else .answered (.refused 404 "Sign-in provider is not enabled")

def act (config : AuthConfig) (outcome : AuthOutcome) (browser : Nat) (store : AuthStore) (provider : OAuthProviderKind) :
    Start → AuthStore × Start
  | .inserting =>
    match (store.draw outcome.fresh).states.insertOne outcome.fresh ⟨provider, store.now + config.stateTtlSeconds, browser⟩ with
    | some states =>
      (({ store.draw outcome.fresh with states := states }).log [.started outcome.fresh browser],
        .answered (.redirect outcome.fresh))
    | none => (store, .answered (.refused 500 "Could not start sign-in"))
  | .answered answer => (store, .answered answer)

end Start

/-! ## The way back -/

inductive Callback where
  | consuming
  | exchanging
  | resolving (identity : ExternalIdentity) (resolve : Resolve)
  | answered (answer : AuthAnswer)
deriving DecidableEq

namespace Callback

def arrives (config : AuthConfig) (provider : OAuthProviderKind) (code state : String) (error : Bool) : Callback :=
  if !config.enabled provider then .answered (.refused 404 "Sign-in provider is not enabled")
  else if error then .answered (.refused 302 "Sign-in was canceled")
  else if code = "" || state = "" then .answered (.refused 302 "Sign-in response was incomplete")
  else .consuming

def answer : Resolution → AuthAnswer
  | .needsEmail ticket suggestedEmail => .needsEmail ticket suggestedEmail
  | .pendingActivation email => .refused 302 ("Your account still needs email confirmation. Check " ++ email ++
      " for the code, or sign in again to get a new one.")
  | .conflict message => .refused 302 message

def next (identity : ExternalIdentity) : Resolve → Callback
  | .issued userId => .answered (.token userId)
  | .ended resolution => .answered (answer resolution)
  | resolve => .resolving identity resolve

def act (config : AuthConfig) (outcome : AuthOutcome) (slot : Nat) (store : AuthStore) (provider : OAuthProviderKind)
    (state : String) : Callback → AuthStore × Callback
  | .consuming =>
    match store.states.get state with
    | none => (store, .answered (.refused 302 "Sign-in request expired or was already used. Please try again."))
    | some pending =>
      let consumed := ({ store with states := store.states.deleteMany fun key _ => key = state }).log [.consumed slot state]
      if pending.expiresAt ≤ store.now then
        (consumed, .answered (.refused 302 "Sign-in request expired. Please try again."))
      else if pending.provider ≠ provider then (consumed, .answered (.refused 302 "Sign-in request was invalid"))
      else (consumed, .exchanging)
  | .exchanging =>
    match outcome.exchanged with
    | none => (store, .answered (.refused 302 "Could not verify your account with the sign-in provider"))
    | some identity =>
      let identity := { identity with provider := provider }
      (store.log [.asserted slot identity], .resolving identity .finding)
  | .resolving identity resolve =>
    let (after, resolve) := resolve.act config outcome slot store identity
    (after, next identity resolve)
  | .answered answer => (store, .answered answer)

end Callback

/-! ## Confirming an address -/

section Hash

variable (hash : String → String)

inductive Complete where
  | loading (now : Int)
  | attaching (expiresAt : Int)
  | answered (answer : AuthAnswer)
deriving DecidableEq

namespace Complete

def arrives (email : String) (now : Int) : Complete :=
  if isValidEmail email then .loading now else .answered (.refused 400 "Invalid email address")

def attach (email code : String) (codeExpiresAt : Int) (pending : PendingIdentity) : PendingIdentity :=
  { pending with
    email := some email
    codeHash := some (hash code)
    codeExpiresAt := some codeExpiresAt
    attempts := 0
    codeSends := pending.codeSends + 1 }

def act (outcome : AuthOutcome) (store : AuthStore) (ticket email : String) : Complete → AuthStore × Complete
  | .loading now =>
    match (store.tickets.get ticket).filter fun pending => now < pending.expiresAt with
    | none => (store, .answered (.refused 400 "This sign-in request has expired. Please sign in again."))
    | some pending => (store, .attaching pending.expiresAt)
  | .attaching expiresAt =>
    if store.tickets.matches? ticket fun pending => pending.codeSends < maxCodeSends then
      let tickets := store.tickets.updateOne ticket (fun pending => pending.codeSends < maxCodeSends)
        (attach hash email outcome.code (min expiresAt (store.now + pendingIdentityTtlSeconds)))
      -- the mail with the code goes out at once
      (({ store with tickets := tickets }).log [.mailed ticket email outcome.code],
        .answered (.ok ("A confirmation code has been sent to " ++ email ++ ". Enter it to finish signing in.")))
    else (store, .answered
      (.refused 429 "Too many confirmation codes have been sent for this sign-in. Please sign in again."))
  | .answered answer => (store, .answered answer)

end Complete

inductive Verify where
  | claiming (now : Int)
  | refusing (now : Int)
  | discarding
  | burning (identity : ExternalIdentity)
  | resolving (identity : ExternalIdentity) (resolve : Resolve)
  | answered (answer : AuthAnswer)
deriving DecidableEq

namespace Verify

def selects (now : Int) (pending : PendingIdentity) : Bool :=
  now < pending.expiresAt && pending.attempts < maxVerificationAttempts

def confirmed (pending : PendingIdentity) (email : String) : ExternalIdentity :=
  ⟨pending.provider, pending.subject, some email, true, pending.name, pending.orcidId⟩

def checks (pending : PendingIdentity) (code : String) (now : Int) : Verify :=
  match pending.email, pending.codeHash with
  | some email, some codeHash =>
    if pending.codeExpiresAt.getD 0 ≤ now then
      .answered (.refused 400 "That code has expired. Please sign in again.")
    else if hash code ≠ codeHash then .answered (.refused 400 "Incorrect code")
    else .burning (confirmed pending email)
  | _, _ => .answered (.refused 400 "No confirmation code has been requested yet")

def answer : Resolution → AuthAnswer
  | .needsEmail _ _ => .refused 500 "Sign-in failed"
  | .pendingActivation email => .refused 400 ("This sign-in is already linked to an account awaiting confirmation at " ++ email ++
      ". Confirm that address instead.")
  | .conflict message => .refused 400 message

def next (identity : ExternalIdentity) : Resolve → Verify
  | .issued userId => .answered (.token userId)
  | .ended resolution => .answered (answer resolution)
  | resolve => .resolving identity resolve

def act (config : AuthConfig) (outcome : AuthOutcome) (slot : Nat) (store : AuthStore) (ticket code : String) :
    Verify → AuthStore × Verify
  | .claiming now =>
    match (store.tickets.get ticket).filter (selects now) with
    | none => (store, .refusing now)
    | some pending =>
      let tickets := store.tickets.updateOne ticket (selects now) fun pending =>
        { pending with attempts := pending.attempts + 1 }
      (({ store with tickets := tickets }).log [.presented slot ticket code], checks hash pending code now)
  | .refusing now =>
    match (store.tickets.get ticket).filter fun pending => now < pending.expiresAt with
    | some _ => (store, .discarding)
    | none => (store, .answered (.refused 400 "This sign-in request has expired. Please sign in again."))
  | .discarding =>
    ({ store with tickets := store.tickets.deleteMany fun key _ => key = ticket },
      .answered (.refused 429 "Too many incorrect codes. Please sign in again."))
  | .burning identity =>
    match store.tickets.get ticket with
    | none => (store, .answered (.refused 400 "This sign-in request has already been used. Please sign in again."))
    | some _ =>
      (({ store with tickets := store.tickets.deleteMany fun key _ => key = ticket }).log [.burned slot ticket],
        .resolving identity .finding)
  | .resolving identity resolve =>
    let (after, resolve) := resolve.act config outcome slot store identity
    (after, next identity resolve)
  | .answered answer => (store, .answered answer)

end Verify

/-! ## Requests -/

/-- A request, with what it carries and how far it is. -/
inductive Flow where
  | signUp (email : String) (phase : SignUp)
  | activate (email code : String) (phase : Activate)
  | forgot (email : String) (phase : Forgot)
  | reset (email token newPassword : String) (phase : Reset)
  | start (provider : OAuthProviderKind) (phase : Start)
  | callback (provider : OAuthProviderKind) (state : String) (phase : Callback)
  | complete (ticket email : String) (phase : Complete)
  | verify (ticket code : String) (phase : Verify)
deriving DecidableEq

/-- And the browser it comes from. -/
structure AuthRequest where
  browser : Nat
  flow : Flow
deriving DecidableEq

namespace Flow

def answer? : Flow → Option AuthAnswer
  | .signUp _ (.answered answer) | .activate _ _ (.answered answer) | .forgot _ (.answered answer)
  | .reset _ _ _ (.answered answer) | .start _ (.answered answer) | .callback _ _ (.answered answer)
  | .complete _ _ (.answered answer) | .verify _ _ (.answered answer) => some answer
  | _ => none

/-- A request as it comes in. -/
inductive Arrives (config : AuthConfig) (now : Int) : Flow → Prop where
  | signUp (email : String) : Arrives config now (.signUp email (.arrives config email))
  | activate (email code : String) : Arrives config now (.activate email code .reading)
  | forgot (email : String) : Arrives config now (.forgot email .reading)
  | reset (email token newPassword : String) : Arrives config now (.reset email token newPassword (.arrives newPassword now))
  | start (provider : OAuthProviderKind) : Arrives config now (.start provider (.arrives config provider))
  | callback (provider : OAuthProviderKind) (code state : String) (error : Bool) :
      Arrives config now (.callback provider state (.arrives config provider code state error))
  | complete (ticket email : String) : Arrives config now (.complete ticket email (.arrives email now))
  | verify (ticket code : String) : Arrives config now (.verify ticket code (.claiming now))

end Flow

/-- The next operation of a request. -/
def AuthRequest.act (config : AuthConfig) (outcome : AuthOutcome) (slot : Nat) (store : AuthStore) (request : AuthRequest) :
    AuthStore × AuthRequest :=
  match request.flow with
  | .signUp email phase =>
    let (after, phase) := phase.act config outcome store email
    (after, { request with flow := .signUp email phase })
  | .activate email code phase =>
    let (after, phase) := phase.act outcome slot store email code
    (after, { request with flow := .activate email code phase })
  | .forgot email phase =>
    let (after, phase) := phase.act hash config outcome store email
    (after, { request with flow := .forgot email phase })
  | .reset email token newPassword phase =>
    let (after, phase) := phase.act hash config slot store email token newPassword
    (after, { request with flow := .reset email token newPassword phase })
  | .start provider phase =>
    let (after, phase) := phase.act config outcome request.browser store provider
    (after, { request with flow := .start provider phase })
  | .callback provider state phase =>
    let (after, phase) := phase.act config outcome slot store provider state
    (after, { request with flow := .callback provider state phase })
  | .complete ticket email phase =>
    let (after, phase) := phase.act hash outcome store ticket email
    (after, { request with flow := .complete ticket email phase })
  | .verify ticket code phase =>
    let (after, phase) := phase.act hash config outcome slot store ticket code
    (after, { request with flow := .verify ticket code phase })

def AuthStore.Unused (store : AuthStore) (fresh : String) : Prop :=
  ∀ used ∈ store.drawn, fresh ≠ used ∧ hash fresh ≠ hash used

/-- A request that fails with a database error. -/
def Flow.fail : Flow → Flow
  | .signUp email _ => .signUp email (.answered (.refused 500 "Database error"))
  | .activate email code _ => .activate email code (.answered (.refused 500 "Database error"))
  | .forgot email _ => .forgot email (.answered (.refused 500 "Database error"))
  | .reset email token newPassword _ => .reset email token newPassword (.answered (.refused 500 "Database error"))
  | .start provider _ => .start provider (.answered (.refused 500 "Could not start sign-in"))
  | .callback provider state _ => .callback provider state (.answered (.refused 302 "Sign-in failed"))
  | .complete ticket email _ => .complete ticket email (.answered (.refused 500 "Database error"))
  | .verify ticket code _ => .verify ticket code (.answered (.refused 500 "Database error"))

inductive AuthActs (config : AuthConfig) (slot : Nat) (store : AuthStore) (request : AuthRequest) :
    AuthStore → AuthRequest → Prop where
  | proceed (outcome : AuthOutcome) : store.Unused hash outcome.fresh →
      AuthActs config slot store request (request.act hash config outcome slot store).1 (request.act hash config outcome slot store).2
  | fail : request.flow.answer? = none → AuthActs config slot store request store { request with flow := request.flow.fail }

inductive AuthOutside (store : AuthStore) : AuthStore → Prop where
  | tick (later : Int) : store.now ≤ later → AuthOutside store { store with now := later }
  | sweepState (state : String) : AuthOutside store { store with
      states := store.states.deleteMany fun key pending => key = state && pending.expiresAt ≤ store.now }
  | sweepTicket (ticket : String) : AuthOutside store { store with
      tickets := store.tickets.deleteMany fun key pending => key = ticket && pending.expiresAt ≤ store.now }

def authRules (config : AuthConfig) : Requests.Rules AuthStore AuthRequest where
  starts _ store request := request.flow.Arrives config store.now
  acts := AuthActs hash config
  outside := AuthOutside

def authTurn (config : AuthConfig) (outcome : Nat → AuthOutcome) (slot : Nat) (store : AuthStore)
    (request : AuthRequest) : Option (AuthStore × AuthRequest) :=
  if ∀ used ∈ store.drawn, (outcome slot).fresh ≠ used ∧ hash (outcome slot).fresh ≠ hash used then
    some (request.act hash config (outcome slot) slot store)
  else none

theorem acts_of_authTurn (config : AuthConfig) (outcome : Nat → AuthOutcome) (slot : Nat)
    (store : AuthStore) (request : AuthRequest) (store' : AuthStore) (after : AuthRequest)
    (turned : authTurn hash config outcome slot store request = some (store', after)) :
    (authRules hash config).acts slot store request store' after := by
  unfold authTurn at turned
  split at turned
  next unused =>
    have acted := Option.some.inj turned
    rw [show store' = (request.act hash config (outcome slot) slot store).1 by rw [acted],
      show after = (request.act hash config (outcome slot) slot store).2 by rw [acted]]
    exact .proceed (outcome slot) unused
  next => cases turned

end Hash

def openConfig : AuthConfig where
  registrationEnabled := true
  enabled := fun _ => true
  stateTtlSeconds := 600
  cooldownSeconds := 900
  uniqueIdentities := true

end Boom.Api
