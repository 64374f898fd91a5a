import Boom.Api.Babamul
import Boom.Foundations.Transition

/-! # Personal access tokens

A user of an activated account makes tokens, and any of them stands in for a login
until it is deleted.  Only the hash of a token is stored.  Two places accept one, each
with its own copy of the rules: `resolveBabamulUser` on the main API and
`authenticateBabamulUser` on Babamul's.

The hash, and the check of a JWT, are parameters.  Times are in seconds. -/

namespace Boom.Api

open Boom.Foundations

/-! ## The store and its history -/

inductive TokenEvent where
  | issued (userId tokenId secret : String) (expiresAt : Int)
  | deleted (userId tokenId : String)
deriving DecidableEq

structure TokenStore where
  users : Collection String BabamulUser
  now : Int
  /-- What happened to the tokens, the first event first. -/
  history : List TokenEvent

def tokenPrefix : String := "bbml_"

structure TokenPost where
  /-- Without the white space at its ends. -/
  name : String
  expiresInDays : Option Nat
deriving DecidableEq

inductive TokenAnswer where
  | ok
  | badRequest (message : String)
  | notFound (message : String)
  | internalError (message : String)
deriving DecidableEq

section Hash

variable (hash : String → String)

/-! ## Making and deleting tokens -/

def TokenPost.refusal (post : TokenPost) (held : List BabamulUserToken) : Option String :=
  if post.name = "" then some "Token name cannot be empty"
  else if post.expiresInDays = some 0 then some "Token expiration must be at least 1 day"
  else if post.expiresInDays.any fun days => 1095 < days then some "Token expiration cannot exceed 3 years (1095 days)"
  else if 10 ≤ held.length then
    some "Maximum number of tokens (10) reached. Please delete an existing token before creating a new one."
  else none

def TokenPost.expiresAt (post : TokenPost) (now : Int) : Int := now + (post.expiresInDays.getD 365 : Nat) * 86400

def TokenPost.token (post : TokenPost) (now : Int) (secret tokenId : String) : BabamulUserToken :=
  ⟨tokenId, post.name, hash secret, now, post.expiresAt now, none⟩

def BabamulUser.hasHash (user : BabamulUser) (tokenHash : String) : Bool :=
  user.tokens.any fun token => token.tokenHash = tokenHash

def BabamulUser.free (user : BabamulUser) (name tokenId : String) : Bool :=
  (user.tokens.all fun token => token.name ≠ name) && user.tokens.all fun token => token.id ≠ tokenId

def BabamulUser.addToken (user : BabamulUser) (token : BabamulUserToken) : BabamulUser :=
  { user with tokens := user.tokens ++ [token] }

def BabamulUser.pullToken (user : BabamulUser) (tokenId : String) : BabamulUser :=
  { user with tokens := user.tokens.filter fun token => token.id ≠ tokenId }

def postToken (store : TokenStore) (userId : String) (post : TokenPost) (secret tokenId : String) : TokenStore × TokenAnswer :=
  match store.users.get userId with
  | none => (store, .internalError "Failed to create token")
  | some current =>
    match post.refusal current.tokens with
    | some message => (store, .badRequest message)
    | none =>
      if store.users.entries.any fun entry => entry.2.hasHash (hash secret) then
        (store, .internalError "Failed to create token")
      else if store.users.matches? userId fun user => user.free post.name tokenId then
        ({ store with
            users := store.users.updateOne userId (fun user => user.free post.name tokenId)
              fun user => user.addToken (post.token hash store.now secret tokenId)
            history := store.history ++ [.issued userId tokenId secret (post.expiresAt store.now)] }, .ok)
      else (store, .badRequest "A token with this name already exists")

def deleteToken (store : TokenStore) (userId tokenId : String) : TokenStore × TokenAnswer :=
  if store.users.matches? userId fun user => user.tokens.any fun token => token.id = tokenId then
    ({ store with
        users := store.users.updateOne userId (fun _ => true) fun user => user.pullToken tokenId
        history := store.history ++ [.deleted userId tokenId] }, .ok)
  else (store, .notFound "Token not found")

/-! ## Using a token -/

inductive AuthError where
  | unauthorized (message : String)
  | forbidden (message : String)
deriving DecidableEq

def BabamulUser.touch (user : BabamulUser) (tokenHash : String) (now : Int) : BabamulUser :=
  { user with tokens := user.tokens.map fun token =>
      if token.tokenHash = tokenHash then { token with lastUsedAt := some now } else token }

def useToken (store : TokenStore) (tokenHash : String) : Option (String × BabamulUser) × TokenStore :=
  match store.users.entries.find? fun entry => entry.2.hasHash tokenHash with
  | none => (none, store)
  | some (userId, user) =>
    (some (userId, user), { store with
      users := store.users.updateOne userId (fun _ => true) fun user => user.touch tokenHash store.now })

def notActivated : AuthError :=
  .forbidden "Account not activated. Please check your email for activation instructions."

def trimStartMatches (text start : String) : String :=
  String.ofList (drop start.toList text.toList.length text.toList)
where
  drop (start : List Char) : Nat → List Char → List Char
    | 0, text => text
    | fuel + 1, text => if start.isPrefixOf text then drop start fuel (text.drop start.length) else text

variable (validateToken : String → Option String)

/-- On the main API.  `none` is no credential of Babamul's. -/
def resolveBabamulUser (store : TokenStore) (token : String) : Except AuthError (Option (String × BabamulUser)) × TokenStore :=
  match stripPrefix token tokenPrefix with
  | some secret =>
    if secret.utf8ByteSize ≠ 36 then (.error (.unauthorized "Invalid Babamul personal access token"), store)
    else
      match useToken store (hash secret) with
      | (some (userId, user), used) => (if user.isActivated then .ok (some (userId, user)) else .error notActivated, used)
      | (none, used) => (.ok none, used)
  | none =>
    match (validateToken token).bind fun subject => stripPrefix subject "babamul:" with
    | none => (.ok none, store)
    | some userId =>
      match store.users.get userId with
      | some user => (if user.isActivated then .ok (some (userId, user)) else .error notActivated, store)
      | none => (.ok none, store)

/-- On Babamul's API. -/
def authenticateBabamulUser (store : TokenStore) (token : String) : Except AuthError (String × BabamulUser) × TokenStore :=
  match stripPrefix token tokenPrefix with
  | some secret =>
    if token.utf8ByteSize ≠ 41 then (.error (.unauthorized "Invalid Babamul personal access token"), store)
    else
      match useToken store (hash secret) with
      | (some (userId, user), used) => (if user.isActivated then .ok (userId, user) else .error notActivated, used)
      | (none, used) => (.error (.unauthorized "Invalid personal access token"), used)
  | none =>
    match validateToken token with
    | none => (.error (.unauthorized "Invalid token"), store)
    | some subject =>
      if (stripPrefix subject "babamul:").isNone then
        (.error (.forbidden "Main API users cannot access Babamul endpoints"), store)
      else
        let userId := trimStartMatches subject "babamul:"
        match store.users.get userId with
        | some user => (if user.isActivated then .ok (userId, user) else .error notActivated, store)
        | none => (.error (.unauthorized "Babamul user not found"), store)

/-! ## Runs -/

inductive TokenStep (store : TokenStore) : TokenStore → Prop where
  | post (userId : String) (post : TokenPost) (secret tokenId : String) : secret.utf8ByteSize = 36 →
      TokenStep store (postToken hash store userId post secret tokenId).1
  | delete (userId tokenId : String) : TokenStep store (deleteToken store userId tokenId).1
  | resolve (token : String) : TokenStep store (resolveBabamulUser hash validateToken store token).2
  | authenticate (token : String) : TokenStep store (authenticateBabamulUser hash validateToken store token).2
  | activation (userId : String) (isActivated : Bool) : TokenStep store { store with
      users := store.users.updateOne userId (fun _ => true) fun user => { user with isActivated := isActivated } }
  | signUp (userId : String) (user : BabamulUser) (users : Collection String BabamulUser) :
      user.tokens = [] → store.users.insertOne userId user = some users → TokenStep store { store with users := users }
  | tick (later : Int) : store.now ≤ later → TokenStep store { store with now := later }

def TokenStore.Initial (store : TokenStore) : Prop :=
  store.history = [] ∧ ∀ userId user, store.users.get userId = some user → user.tokens = []

def TokenRun : TokenStore → Prop := Reachable TokenStore.Initial (TokenStep hash validateToken)

end Hash

end Boom.Api
