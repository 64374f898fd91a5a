import Boom.Api.Babamul

/-! # Accounts and their one-time secrets

Signing up mails an activation code, activating answers with a password, and a forgotten
password is reset with a mailed token.  Each request is a few database operations, between
which other requests may run; `SignUp.act`, `Activate.act`, `Forgot.act` and `Reset.act`
are the next operation of each.

Random values, and what a mail or an identity provider says, come from outside.  The store
keeps the values drawn so far and a history of what happened.  Addresses, codes and tokens
are as they are compared: without the white space around them, in lower or upper case.
Times are in seconds. -/

namespace Boom.Api

open Boom.Foundations

/-! ## The store -/

/-- A verified external identity, as a provider answers. -/
structure ExternalIdentity where
  provider : OAuthProviderKind
  subject : String
  email : Option String
  emailVerified : Bool
  name : Option String
  orcidId : Option String
deriving DecidableEq

structure PendingAuthorization where
  provider : OAuthProviderKind
  expiresAt : Int
  startedBy : Nat
deriving DecidableEq

/-- A provider-verified identity waiting on an email address. -/
structure PendingIdentity where
  provider : OAuthProviderKind
  subject : String
  orcidId : Option String
  name : Option String
  email : Option String
  codeHash : Option String
  codeExpiresAt : Option Int
  attempts : Nat
  codeSends : Nat
  expiresAt : Int
deriving DecidableEq

/-- What happened, and in which slot. -/
inductive AuthEvent where
  | activated (slot : Nat) (userId code password : String)
  | reset (slot : Nat) (userId tokenHash password : String)
  | started (state : String) (browser : Nat)
  | consumed (slot : Nat) (state : String)
  | asserted (slot : Nat) (identity : ExternalIdentity)
  | parked (ticket : String) (provider : OAuthProviderKind) (subject : String)
  | mailed (ticket email code : String)
  | presented (slot : Nat) (ticket code : String)
  | burned (slot : Nat) (ticket : String)
  | linked (slot : Nat) (userId : String) (provider : OAuthProviderKind) (subject : String)
  | issued (slot : Nat) (userId : String) (provider : OAuthProviderKind) (subject : String)
deriving DecidableEq

structure AuthStore where
  users : Collection String BabamulUser
  states : Collection String PendingAuthorization
  tickets : Collection String PendingIdentity
  now : Int
  drawn : List String
  history : List AuthEvent

structure AuthConfig where
  registrationEnabled : Bool
  /-- The provider has credentials, and the URLs are configured. -/
  enabled : OAuthProviderKind → Bool
  stateTtlSeconds : Int
  cooldownSeconds : Int
  /-- The unique index of identities could be built. -/
  uniqueIdentities : Bool

/-- What comes from outside. -/
structure AuthOutcome where
  /-- A random value of at least 36 characters. -/
  fresh : String
  /-- A random code of 8 characters, in upper case. -/
  code : String
  password : String
  userId : String
  /-- The answer of the provider to the exchange of a code. -/
  exchanged : Option ExternalIdentity

inductive AuthAnswer where
  | ok (message : String)
  | activated (password : String)
  | alreadyActivated
  | passwordReset
  | redirect (state : String)
  | token (userId : String)
  | needsEmail (ticket : String) (suggestedEmail : Option String)
  | refused (status : Nat) (message : String)
deriving DecidableEq

namespace AuthStore

def log (store : AuthStore) (events : List AuthEvent) : AuthStore := { store with history := store.history ++ events }

def draw (store : AuthStore) (fresh : String) : AuthStore := { store with drawn := store.drawn ++ [fresh] }

def findEmail (store : AuthStore) (email : String) : Option (String × BabamulUser) :=
  store.users.entries.find? fun entry => entry.2.email = email

def setUser (store : AuthStore) (userId : String) (change : BabamulUser → BabamulUser) : AuthStore :=
  { store with users := store.users.updateOne userId (fun _ => true) change }

def hasIdentity (user : BabamulUser) (provider : OAuthProviderKind) (subject : String) : Bool :=
  user.identities.any fun identity => identity.provider = provider && identity.subject = subject

def findIdentity (store : AuthStore) (provider : OAuthProviderKind) (subject : String) : Option (String × BabamulUser) :=
  store.users.entries.find? fun entry => hasIdentity entry.2 provider subject

def identityTaken (store : AuthStore) (userId : String) (provider : OAuthProviderKind) (subject : String) : Bool :=
  store.users.entries.any fun entry => entry.1 != userId && hasIdentity entry.2 provider subject

def insertUser (config : AuthConfig) (store : AuthStore) (userId : String) (user : BabamulUser) : Option AuthStore :=
  if (store.findEmail user.email).isSome then none
  else if config.uniqueIdentities && user.identities.any fun identity =>
      store.identityTaken userId identity.provider identity.subject then none
  else (store.users.insertOne userId user).map fun users => { store with users := users }

end AuthStore

/-! ## Checks of the body -/

def splitOnce (char : Char) : List Char → Option (List Char × List Char)
  | [] => none
  | first :: rest => if first = char then some ([], rest) else (splitOnce char rest).map fun (before, after) => (first :: before, after)

def isValidEmail (email : String) : Bool :=
  match splitOnce '@' email.toList with
  | none => false
  | some (name, domain) =>
    let labels := splitDots domain
    !name.isEmpty && !domain.contains '@' && 2 ≤ labels.length && labels.all (fun label => !label.isEmpty) &&
      name.all (fun char => char.isAlphanum || ['.', '_', '-', '+'].contains char) &&
      domain.all fun char => char.isAlphanum || ['.', '-'].contains char

def usernameOf (email : String) : List Char :=
  (email.toList.takeWhile (· ≠ '@')).filter fun char => char.isAlphanum || ['.', '_', '-'].contains char

def validatePasswordComplexity (password : String) : Option String :=
  if password.utf8ByteSize < 12 then some "Password must be at least 12 characters long"
  else if !password.toList.any Char.isUpper then some "Password must contain at least one uppercase letter"
  else if !password.toList.any Char.isLower then some "Password must contain at least one lowercase letter"
  else if !password.toList.any Char.isDigit then some "Password must contain at least one digit"
  else if !password.toList.any fun char => !char.isAlphanum && char.toNat < 128 then
    some "Password must contain at least one special character"
  else none

def coolingDown (config : AuthConfig) (user : BabamulUser) (now : Int) : Bool :=
  user.passwordLastChangedAt.any fun changed => now - changed < config.cooldownSeconds

/-! ## Signing up -/

inductive SignUp where
  | reading
  | recoding (userId : String)
  | inserting
  | answered (answer : AuthAnswer)
deriving DecidableEq

namespace SignUp

def arrives (config : AuthConfig) (email : String) : SignUp :=
  if !config.registrationEnabled then .answered (.refused 403 "New accounts aren't being created yet.")
  else if !isValidEmail email then .answered (.refused 400 "Invalid email address")
  else .reading

def done (email : String) : SignUp :=
  .answered (.ok ("Signup successful. An activation code has been sent to " ++ email ++
    ". Use the /babamul/activate endpoint to activate your account and receive your password."))

def newUser (email code password : String) : BabamulUser where
  email := email
  passwordHash := ⟨password⟩
  activationCode := some code
  isActivated := false
  tokens := []
  passwordResetTokenHash := none
  passwordResetTokenExpiresAt := none
  passwordLastChangedAt := none
  identities := []
  orcidId := none
  name := none

def act (config : AuthConfig) (outcome : AuthOutcome) (store : AuthStore) (email : String) : SignUp → AuthStore × SignUp
  | .reading =>
    match store.findEmail email with
    | some (userId, user) =>
      if user.isActivated then (store, .answered (.refused 409 "Email already registered (and activated)"))
      else (store, .recoding userId)
    | none =>
      if (usernameOf email).isEmpty then
        (store, .answered (.refused 400 "Invalid email address for username extraction"))
      else (store, .inserting)
  | .recoding userId =>
    ((store.draw outcome.fresh).setUser userId fun user => { user with activationCode := some outcome.fresh }, done email)
  | .inserting =>
    match (store.draw outcome.fresh).insertUser config outcome.userId (newUser email outcome.fresh outcome.password) with
    | some inserted => (inserted, done email)
    | none => (store, .answered (.refused 409 "Email already registered"))
  | .answered answer => (store, .answered answer)

end SignUp

/-! ## Activating -/

inductive Activate where
  | reading
  | updating (userId : String)
  | answered (answer : AuthAnswer)
deriving DecidableEq

namespace Activate

def act (outcome : AuthOutcome) (slot : Nat) (store : AuthStore) (email code : String) : Activate → AuthStore × Activate
  | .reading =>
    match store.findEmail email with
    | none => (store, .answered (.refused 404 "User not found"))
    | some (userId, user) =>
      if user.isActivated then (store, .answered .alreadyActivated)
      else if user.activationCode ≠ some code then (store, .answered (.refused 400 "Invalid activation code"))
      else (store, .updating userId)
  | .updating userId =>
    -- by the id alone: the code is not looked at again
    ((store.setUser userId fun user =>
        { user with isActivated := true, activationCode := none, passwordHash := ⟨outcome.password⟩ }).log
      [.activated slot userId code outcome.password], .answered (.activated outcome.password))
  | .answered answer => (store, .answered answer)

end Activate

/-! ## Forgotten passwords -/

section Hash

variable (hash : String → String)

inductive Forgot where
  | reading
  | storing (userId : String) (now : Int)
  | answered (answer : AuthAnswer)
deriving DecidableEq

namespace Forgot

def generic : Forgot :=
  .answered (.ok "If an account with that email exists, a password reset link has been sent.")

def act (config : AuthConfig) (outcome : AuthOutcome) (store : AuthStore) (email : String) : Forgot → AuthStore × Forgot
  | .reading =>
    match store.findEmail email with
    | none => (store, generic)
    | some (userId, user) =>
      if !user.isActivated then (store, generic)
      else if coolingDown config user store.now then
        (store, .answered (.refused 429
          "Password was changed recently. Please wait 15 minutes before requesting another reset."))
      else (store, .storing userId store.now)
  | .storing userId now =>
    ((store.draw outcome.fresh).setUser userId fun user =>
      { user with
        passwordResetTokenHash := some (hash outcome.fresh)
        passwordResetTokenExpiresAt := some (now + 3600) }, generic)
  | .answered answer => (store, .answered answer)

end Forgot

inductive Reset where
  | reading (now : Int)
  | updating (userId : String) (now : Int)
  | answered (answer : AuthAnswer)
deriving DecidableEq

namespace Reset

def arrives (newPassword : String) (now : Int) : Reset :=
  match validatePasswordComplexity newPassword with
  | some message => .answered (.refused 400 message)
  | none => .reading now

def selects (email token : String) (now : Int) (user : BabamulUser) : Bool :=
  user.email = email && user.passwordResetTokenHash = some (hash token) &&
    user.passwordResetTokenExpiresAt.any fun expiresAt => now < expiresAt

def act (config : AuthConfig) (slot : Nat) (store : AuthStore) (email token newPassword : String) : Reset → AuthStore × Reset
  | .reading now =>
    match store.users.entries.find? fun entry => selects hash email token now entry.2 with
    | none => (store, .answered (.refused 400 "Invalid or expired password reset token"))
    | some (userId, user) =>
      if coolingDown config user now then
        (store, .answered (.refused 429 "Password was changed recently. Please wait 15 minutes before resetting again."))
      else (store, .updating userId now)
  | .updating userId now =>
    -- by the id alone: the token is not looked at again
    ((store.setUser userId fun user =>
        { user with
          passwordHash := ⟨newPassword⟩
          passwordLastChangedAt := some now
          passwordResetTokenHash := none
          passwordResetTokenExpiresAt := none }).log
      [.reset slot userId (hash token) newPassword], .answered .passwordReset)
  | .answered answer => (store, .answered answer)

end Reset

end Hash

end Boom.Api
