import Boom.Api.Tokens
import Boom.Filter.Base
import Boom.Foundations.AsciiOrder

/-! # Babamul's credentials on both APIs

Babamul's API takes a credential of Babamul's, and so does the main API on the paths of the admin
surface, when the credential is not one of its own.  Each has its own copy of the rules, and they
agree on all tokens but one kind: where the subject of a JWT repeats the prefix of Babamul's
subjects, one copy takes off the first and the other all of them.

The provider and the database are among the data of the app, and the database answers. -/

namespace Boom.Api

open Boom.Foundations

/-! ## The two middlewares -/

def PUBLIC_ROUTES : List String := ["/docs", "/auth", "/"]

def BABAMUL_AUTHENTICATED_ROUTES : List String :=
  ["/tasks", "/task-types", "/data/mutations", "/enrichment/status", "/enrichment/sets", "/catalogs/status", "/catalogs/exports"]

def acceptsBabamulCredentials (path : String) : Bool :=
  BABAMUL_AUTHENTICATED_ROUTES.any fun allowed => path == allowed || (stripPrefix path (allowed ++ "/")).isSome

def headerText (bytes : List UInt8) : Option String :=
  if bytes.all fun byte => (32 ≤ byte && byte < 127) || byte == 9 then
    some (String.ofList (bytes.map fun byte => Char.ofNat byte.toNat))
  else none

def bearerToken (invalid : String) (authorization : Option (List UInt8)) : Except AuthError String :=
  match authorization with
  | none => .error (.unauthorized "Missing or invalid Authorization header")
  | some header =>
    match (headerText header).bind (stripPrefix · "Bearer ") with
    | some token => .ok (Filter.trim token)
    | none => .error (.unauthorized invalid)

inductive UserError where
  | incorrectJwt
  | permissionDenied
  | notFound (userId : String)
deriving DecidableEq

inductive Caller (υ : Type) where
  | user (user : υ)
  | babamulUser (userId : String) (user : BabamulUser)

section Middleware

variable {υ : Type} (hash : String → String) (validateToken : String → Option String) (mainUsers : Collection String υ)

def authenticateUser (token : String) : Except UserError υ :=
  match validateToken token with
  | none => .error .incorrectJwt
  | some userId =>
    if (stripPrefix userId "babamul:").isSome then .error .permissionDenied
    else
      match mainUsers.get userId with
      | some user => .ok user
      | none => .error (.notFound userId)

def authMiddleware (store : TokenStore) (path : String) (authorization : Option (List UInt8)) :
    Except AuthError (Option (Caller υ)) × TokenStore :=
  if path ∈ PUBLIC_ROUTES then (.ok none, store)
  else
    match bearerToken "Invalid Authorization header" authorization with
    | .error error => (.error error, store)
    | .ok token =>
      match authenticateUser validateToken mainUsers token with
      | .ok user => (.ok (some (.user user)), store)
      | .error _ =>
        if acceptsBabamulCredentials path then
          match resolveBabamulUser hash validateToken store token with
          | (.ok (some (userId, user)), after) => (.ok (some (.babamulUser userId user)), after)
          | (.ok none, after) => (.error (.unauthorized "Invalid token"), after)
          | (.error error, after) => (.error error, after)
        else (.error (.unauthorized "Invalid token"), store)

def authenticateBabamulRequest (store : TokenStore) (authorization : Option (List UInt8)) :
    Except AuthError (String × BabamulUser) × TokenStore :=
  match bearerToken "Invalid Authorization header in Babamul middleware" authorization with
  | .error error => (.error error, store)
  | .ok token => authenticateBabamulUser hash validateToken store token

end Middleware

/-! ## Taking off prefixes -/

theorem drop_nil {start : List Char} (some_ : start ≠ []) (fuel : Nat) : trimStartMatches.drop start fuel [] = [] := by
  cases fuel with
  | zero => rfl
  | succ fuel =>
    have noPrefix : ¬ start.isPrefixOf [] = true := by
      rw [List.isPrefixOf_iff_prefix, List.prefix_nil]
      exact some_
    rw [trimStartMatches.drop, if_neg noPrefix]

theorem drop_fuel {start : List Char} (some_ : start ≠ []) {fuel fuel' : Nat} {text : List Char}
    (enough : text.length ≤ fuel) (enough' : text.length ≤ fuel') :
    trimStartMatches.drop start fuel text = trimStartMatches.drop start fuel' text := by
  induction fuel generalizing fuel' text with
  | zero =>
    obtain rfl := List.length_eq_zero_iff.mp (Nat.le_zero.mp enough)
    rw [drop_nil some_, drop_nil some_]
  | succ fuel ih =>
    cases fuel' with
    | zero =>
      obtain rfl := List.length_eq_zero_iff.mp (Nat.le_zero.mp enough')
      rw [drop_nil some_, drop_nil some_]
    | succ fuel' =>
      rw [trimStartMatches.drop, trimStartMatches.drop]
      have positive := List.length_pos_of_ne_nil some_
      have shorter : (text.drop start.length).length = text.length - start.length := List.length_drop
      split
      · exact ih (by omega) (by omega)
      · rfl

theorem trimStartMatches_append {start : String} (some_ : start.toList ≠ []) (rest : String) :
    trimStartMatches (start ++ rest) start = trimStartMatches rest start := by
  have positive := List.length_pos_of_ne_nil some_
  have isPrefix : start.toList.isPrefixOf (start ++ rest).toList = true := by
    rw [List.isPrefixOf_iff_prefix, String.toList_append]
    exact List.prefix_append _ _
  have length : (start ++ rest).toList.length = (start.toList.length - 1 + rest.toList.length) + 1 := by
    rw [String.toList_append, List.length_append]
    omega
  unfold trimStartMatches
  rw [length, trimStartMatches.drop, if_pos isPrefix, String.toList_append, List.drop_left]
  rw [drop_fuel some_ (Nat.le_add_left _ _) (Nat.le_refl _)]

theorem trimStartMatches_of_none {text start : String} (none_ : stripPrefix text start = none) :
    trimStartMatches text start = text := by
  have noPrefix : ¬ start.toList.isPrefixOf text.toList = true := by
    intro isPrefix
    rw [stripPrefix, if_pos isPrefix] at none_
    simp at none_
  unfold trimStartMatches
  cases text.toList.length with
  | zero => rw [trimStartMatches.drop, String.ofList_toList]
  | succ length => rw [trimStartMatches.drop, if_neg noPrefix, String.ofList_toList]

/-! ## One token on both APIs -/

section Agreement

variable {υ : Type} {hash : String → String} {validateToken : String → Option String} {mainUsers : Collection String υ}
  {store : TokenStore} {token : String} {userId : String} {user : BabamulUser}

variable (validateToken store) in
def RepeatsPrefix (token : String) : Prop :=
  ∃ rest user, validateToken token = some ("babamul:" ++ ("babamul:" ++ rest)) ∧
    store.users.get (trimStartMatches rest "babamul:") = some user ∧ user.isActivated = true

def TokenStore.Unprefixed (store : TokenStore) : Prop :=
  ∀ userId user, store.users.get userId = some user → stripPrefix userId "babamul:" = none

theorem babamul_ne_nil : "babamul:".toList ≠ [] := by decide

theorem authenticate_of_pat {secret : String} (isPat : stripPrefix token tokenPrefix = some secret) :
    (∀ userId user, (authenticateBabamulUser hash validateToken store token).1 = .ok (userId, user) ↔
      (resolveBabamulUser hash validateToken store token).1 = .ok (some (userId, user))) ∧
    (authenticateBabamulUser hash validateToken store token).2 = (resolveBabamulUser hash validateToken store token).2 := by
  have length : token.utf8ByteSize = 5 + secret.utf8ByteSize := by
    rw [eq_append_of_stripPrefix isPat, String.utf8ByteSize_append]
    rfl
  have sizes : token.utf8ByteSize ≠ 41 ↔ secret.utf8ByteSize ≠ 36 := by omega
  unfold authenticateBabamulUser resolveBabamulUser
  rw [isPat]
  simp only [sizes]
  split
  · simp
  · obtain ⟨found, used⟩ := useToken store (hash secret)
    cases found with
    | none => simp
    | some entry =>
      obtain ⟨owner, holder⟩ := entry
      cases activated : holder.isActivated <;> simp [activated]

variable (hash validateToken store) in
theorem stores_of_jwt (isJwt : stripPrefix token tokenPrefix = none) :
    (authenticateBabamulUser hash validateToken store token).2 = store ∧
      (resolveBabamulUser hash validateToken store token).2 = store := by
  unfold authenticateBabamulUser resolveBabamulUser
  rw [isJwt]
  constructor
  · dsimp only
    split
    · rfl
    · split
      · rfl
      · split <;> rfl
  · dsimp only
    split
    · rfl
    · split <;> rfl

theorem stripPrefix_eq_some {text start rest : String} : stripPrefix text start = some rest ↔ text = start ++ rest := by
  constructor
  · exact eq_append_of_stripPrefix
  · rintro rfl
    exact stripPrefix_append start rest

theorem admits_iff {β : Type} {accepts : String × BabamulUser → β} (injective : Function.Injective accepts)
    {refused : Except AuthError β} (refuses : ∀ caller, refused ≠ .ok (accepts caller)) (owner : String) :
    (match store.users.get owner with
      | some user => (if user.isActivated then Except.ok (accepts (owner, user)) else Except.error notActivated, store)
      | none => (refused, store)).1 = Except.ok (accepts (userId, user)) ↔
      owner = userId ∧ store.users.get userId = some user ∧ user.isActivated = true := by
  cases found : store.users.get owner with
  | none =>
    refine iff_of_false (refuses (userId, user)) ?_
    rintro ⟨rfl, stored, -⟩
    simp [found] at stored
  | some holder =>
    dsimp only
    split
    next activated =>
      rw [Except.ok.injEq, injective.eq_iff, Prod.mk.injEq]
      constructor
      · rintro ⟨rfl, rfl⟩
        exact ⟨rfl, found, activated⟩
      · rintro ⟨rfl, stored, -⟩
        exact ⟨rfl, Option.some.inj (found.symm.trans stored)⟩
    next inactive =>
      refine iff_of_false (by simp) ?_
      rintro ⟨rfl, stored, active⟩
      obtain rfl := Option.some.inj (found.symm.trans stored)
      exact inactive active

theorem resolve_of_jwt (isJwt : stripPrefix token tokenPrefix = none) :
    (resolveBabamulUser hash validateToken store token).1 = .ok (some (userId, user)) ↔
      validateToken token = some ("babamul:" ++ userId) ∧ store.users.get userId = some user ∧ user.isActivated = true := by
  have subjects : ((validateToken token).bind fun subject => stripPrefix subject "babamul:") = some userId ↔
      validateToken token = some ("babamul:" ++ userId) := by
    simp [Option.bind_eq_some_iff, stripPrefix_eq_some]
  rw [← subjects]
  unfold resolveBabamulUser
  rw [isJwt]
  dsimp only
  cases isOwner : (validateToken token).bind fun subject => stripPrefix subject "babamul:" with
  | none => simp
  | some owner =>
    rw [Option.some.injEq]
    exact admits_iff (Option.some_injective _) (by simp) owner

variable (hash) in
theorem authenticate_of_jwt (isJwt : stripPrefix token tokenPrefix = none) :
    (authenticateBabamulUser hash validateToken store token).1 = .ok (userId, user) ↔
      ∃ rest, validateToken token = some ("babamul:" ++ rest) ∧ trimStartMatches rest "babamul:" = userId ∧
        store.users.get userId = some user ∧ user.isActivated = true := by
  unfold authenticateBabamulUser
  rw [isJwt]
  dsimp only
  cases isSubject : validateToken token with
  | none => simp
  | some subject =>
    dsimp only
    cases stripped : stripPrefix subject "babamul:" with
    | none =>
      have other : ∀ rest, subject ≠ "babamul:" ++ rest := by
        rintro rest rfl
        simp at stripped
      simp [other]
    | some rest =>
      obtain rfl := eq_append_of_stripPrefix stripped
      rw [trimStartMatches_append babamul_ne_nil]
      simp only [Option.isNone_some, Bool.false_eq_true, if_false]
      refine Iff.trans (admits_iff Function.injective_id (by simp) (trimStartMatches rest "babamul:")) ?_
      constructor
      · rintro ⟨isOwner, stored, activated⟩
        exact ⟨rest, rfl, isOwner, stored, activated⟩
      · rintro ⟨other, same, isOwner, stored, activated⟩
        obtain rfl : rest = other := by simpa using same
        exact ⟨isOwner, stored, activated⟩

theorem authenticate_iff_resolve (unprefixed : store.Unprefixed) (single : ¬ RepeatsPrefix validateToken store token) :
    (authenticateBabamulUser hash validateToken store token).1 = .ok (userId, user) ↔
      (resolveBabamulUser hash validateToken store token).1 = .ok (some (userId, user)) := by
  cases isPat : stripPrefix token tokenPrefix with
  | some secret => exact (authenticate_of_pat isPat).1 userId user
  | none =>
    rw [authenticate_of_jwt hash isPat, resolve_of_jwt isPat]
    constructor
    · rintro ⟨rest, isSubject, isOwner, stored, activated⟩
      cases again : stripPrefix rest "babamul:" with
      | none =>
        rw [trimStartMatches_of_none again] at isOwner
        obtain rfl := isOwner
        exact ⟨isSubject, stored, activated⟩
      | some later =>
        obtain rfl := eq_append_of_stripPrefix again
        rw [trimStartMatches_append babamul_ne_nil] at isOwner
        exact absurd ⟨later, user, isSubject, isOwner ▸ stored, activated⟩ single
    · rintro ⟨isSubject, stored, activated⟩
      exact ⟨userId, isSubject, trimStartMatches_of_none (unprefixed userId user stored), stored, activated⟩

/-! ## One request on both APIs -/

variable {authorization : Option (List UInt8)}

theorem bearerToken_ok {invalid : String} (invalid' : String)
    (isToken : bearerToken invalid authorization = .ok token) : bearerToken invalid' authorization = .ok token := by
  unfold bearerToken at isToken ⊢
  split at isToken
  next => simp at isToken
  next =>
    split at isToken
    next => exact isToken
    next => simp at isToken

theorem bearerToken_error {invalid : String} (invalid' : String) {error : AuthError}
    (noToken : bearerToken invalid authorization = .error error) : ∃ error', bearerToken invalid' authorization = .error error' := by
  cases isToken : bearerToken invalid' authorization with
  | error error' => exact ⟨error', rfl⟩
  | ok token =>
    rw [bearerToken_ok invalid isToken] at noToken
    cases noToken

variable {path : String}

theorem notMem_public (accepts : acceptsBabamulCredentials path = true) : path ∉ PUBLIC_ROUTES := by
  intro isPublic
  have none_ : PUBLIC_ROUTES.all fun path => !acceptsBabamulCredentials path := by decide +kernel
  have rejected := List.all_eq_true.mp none_ path isPublic
  simp [accepts] at rejected

variable (hash store) in
theorem authenticate_of_user (jwts : ∀ token subject, validateToken token = some subject → stripPrefix token tokenPrefix = none)
    {caller : υ} (isUser : authenticateUser validateToken mainUsers token = .ok caller) :
    ∃ error, authenticateBabamulUser hash validateToken store token = (.error error, store) := by
  unfold authenticateUser at isUser
  cases isSubject : validateToken token with
  | none => simp [isSubject] at isUser
  | some subject =>
    rw [isSubject] at isUser
    dsimp only at isUser
    cases stripped : stripPrefix subject "babamul:" with
    | some rest => simp [stripped] at isUser
    | none =>
      refine ⟨.forbidden "Main API users cannot access Babamul endpoints", ?_⟩
      unfold authenticateBabamulUser
      rw [jwts token subject isSubject, isSubject]
      simp [stripped]

variable (mainUsers) in
theorem authenticateUser_of_authenticate
    (jwts : ∀ token subject, validateToken token = some subject → stripPrefix token tokenPrefix = none)
    (admitted : (authenticateBabamulUser hash validateToken store token).1 = .ok (userId, user)) :
    ∃ error, authenticateUser validateToken mainUsers token = .error error := by
  cases isUser : authenticateUser validateToken mainUsers token with
  | error error => exact ⟨error, rfl⟩
  | ok caller =>
    obtain ⟨error, rejected⟩ := authenticate_of_user hash store jwts isUser
    simp [rejected] at admitted

variable (hash validateToken mainUsers store) in
structure Agree (authorization : Option (List UInt8)) : Prop where
  admitted : ∀ path, acceptsBabamulCredentials path = true → ∀ userId user,
    (authMiddleware hash validateToken mainUsers store path authorization).1 = .ok (some (.babamulUser userId user)) ↔
      (authenticateBabamulRequest hash validateToken store authorization).1 = .ok (userId, user)
  used : ∀ path, acceptsBabamulCredentials path = true →
    (authMiddleware hash validateToken mainUsers store path authorization).2 =
      (authenticateBabamulRequest hash validateToken store authorization).2
  named : ∀ path, acceptsBabamulCredentials path = true →
    (authMiddleware hash validateToken mainUsers store path authorization).1 ≠ .ok none
  elsewhere : ∀ path, acceptsBabamulCredentials path = false →
    (authMiddleware hash validateToken mainUsers store path authorization).2 = store ∧
    ∀ userId user, (authMiddleware hash validateToken mainUsers store path authorization).1 ≠ .ok (some (.babamulUser userId user))
  rejected : ∀ path, acceptsBabamulCredentials path = false → path ∉ PUBLIC_ROUTES → ∀ userId user,
    (authenticateBabamulRequest hash validateToken store authorization).1 = .ok (userId, user) →
      (authMiddleware hash validateToken mainUsers store path authorization).1 = .error (.unauthorized "Invalid token")

theorem elsewhere_spec (other : acceptsBabamulCredentials path = false) (authorization : Option (List UInt8)) :
    (authMiddleware hash validateToken mainUsers store path authorization).2 = store ∧
    ∀ userId user, (authMiddleware hash validateToken mainUsers store path authorization).1 ≠ .ok (some (.babamulUser userId user)) := by
  unfold authMiddleware
  split
  next => simp
  next =>
    split
    next => simp
    next token _ =>
      split
      next => simp
      next => simp [other]

theorem elsewhere_rejects (jwts : ∀ token subject, validateToken token = some subject → stripPrefix token tokenPrefix = none)
    (other : acceptsBabamulCredentials path = false) (guarded : path ∉ PUBLIC_ROUTES)
    (admitted : (authenticateBabamulRequest hash validateToken store authorization).1 = .ok (userId, user)) :
    (authMiddleware hash validateToken mainUsers store path authorization).1 = .error (.unauthorized "Invalid token") := by
  unfold authenticateBabamulRequest at admitted
  split at admitted
  next => simp at admitted
  next token isToken =>
    obtain ⟨error, isError⟩ := authenticateUser_of_authenticate mainUsers jwts admitted
    unfold authMiddleware
    rw [if_neg guarded, bearerToken_ok _ isToken]
    simp [isError, other]

theorem surface_of_token (accepts : acceptsBabamulCredentials path = true)
    (isToken : bearerToken "Invalid Authorization header" authorization = .ok token)
    {error : UserError} (isError : authenticateUser validateToken mainUsers token = .error error) : (∀ userId user,
      (authMiddleware hash validateToken mainUsers store path authorization).1 = .ok (some (.babamulUser userId user)) ↔
        (resolveBabamulUser hash validateToken store token).1 = .ok (some (userId, user))) ∧
    (authMiddleware hash validateToken mainUsers store path authorization).2 =
      (resolveBabamulUser hash validateToken store token).2 := by
  unfold authMiddleware
  rw [if_neg (notMem_public accepts), isToken]
  dsimp only
  rw [isError]
  dsimp only
  rw [if_pos accepts]
  obtain ⟨answer, after⟩ := resolveBabamulUser hash validateToken store token
  match answer with
  | .ok (some (owner, holder)) => simp
  | .ok none => simp
  | .error rejection => simp

theorem surface_named (accepts : acceptsBabamulCredentials path = true) (authorization : Option (List UInt8)) :
    (authMiddleware hash validateToken mainUsers store path authorization).1 ≠ .ok none := by
  unfold authMiddleware
  rw [if_neg (notMem_public accepts)]
  split
  next => simp
  next =>
    split
    next => simp
    next =>
      rw [if_pos accepts]
      split <;> simp

theorem agree_of_single (unprefixed : store.Unprefixed)
    (jwts : ∀ token subject, validateToken token = some subject → stripPrefix token tokenPrefix = none)
    (single : ∀ token, bearerToken "Invalid Authorization header" authorization = .ok token → ¬ RepeatsPrefix validateToken store token) :
    Agree hash validateToken mainUsers store authorization := by
  have surface : ∀ path, acceptsBabamulCredentials path = true →
      (∀ userId user,
        (authMiddleware hash validateToken mainUsers store path authorization).1 = .ok (some (.babamulUser userId user)) ↔
          (authenticateBabamulRequest hash validateToken store authorization).1 = .ok (userId, user)) ∧
      (authMiddleware hash validateToken mainUsers store path authorization).2 =
        (authenticateBabamulRequest hash validateToken store authorization).2 := by
    intro path accepts
    unfold authenticateBabamulRequest
    cases isToken : bearerToken "Invalid Authorization header" authorization with
    | error error =>
      obtain ⟨error', isError⟩ := bearerToken_error "Invalid Authorization header in Babamul middleware" isToken
      unfold authMiddleware
      rw [if_neg (notMem_public accepts), isToken, isError]
      simp
    | ok token =>
      rw [bearerToken_ok _ isToken]
      dsimp only
      cases isUser : authenticateUser validateToken mainUsers token with
      | ok caller =>
        obtain ⟨error, rejected⟩ := authenticate_of_user hash store jwts isUser
        unfold authMiddleware
        rw [if_neg (notMem_public accepts), isToken, rejected]
        simp [isUser]
      | error error =>
        have stores : (authenticateBabamulUser hash validateToken store token).2 =
            (resolveBabamulUser hash validateToken store token).2 := by
          cases isPat : stripPrefix token tokenPrefix with
          | some secret => exact (authenticate_of_pat isPat).2
          | none =>
            obtain ⟨same, same'⟩ := stores_of_jwt hash validateToken store isPat
            rw [same, same']
        refine ⟨fun userId user => ?_, ?_⟩
        · rw [(surface_of_token accepts isToken isUser).1 userId user, authenticate_iff_resolve unprefixed (single token isToken)]
        · rw [(surface_of_token accepts isToken isUser).2, stores]
  exact
    { admitted := fun path accepts => (surface path accepts).1
      used := fun path accepts => (surface path accepts).2
      named := fun path accepts => surface_named accepts authorization
      elsewhere := fun path other => elsewhere_spec other authorization
      rejected := fun path other guarded userId user admitted => elsewhere_rejects jwts other guarded admitted }

theorem not_agree_of_repeats (unprefixed : store.Unprefixed)
    (jwts : ∀ token subject, validateToken token = some subject → stripPrefix token tokenPrefix = none)
    (isToken : bearerToken "Invalid Authorization header" authorization = .ok token)
    (repeats : RepeatsPrefix validateToken store token) : ¬ Agree hash validateToken mainUsers store authorization := by
  intro agree
  obtain ⟨rest, user, isSubject, stored, activated⟩ := repeats
  have isJwt := jwts token _ isSubject
  have letIn : (authenticateBabamulUser hash validateToken store token).1 = .ok (trimStartMatches rest "babamul:", user) :=
    (authenticate_of_jwt hash isJwt).mpr ⟨_, isSubject, trimStartMatches_append babamul_ne_nil rest, stored, activated⟩
  have admitted : (authenticateBabamulRequest hash validateToken store authorization).1 =
      .ok (trimStartMatches rest "babamul:", user) := by
    unfold authenticateBabamulRequest
    rw [bearerToken_ok _ isToken]
    exact letIn
  have accepts : acceptsBabamulCredentials "/tasks" = true := by decide +kernel
  obtain ⟨error, isError⟩ := authenticateUser_of_authenticate mainUsers jwts letIn
  have resolved := (agree.admitted "/tasks" accepts _ _).mpr admitted
  rw [(surface_of_token accepts isToken isError).1, resolve_of_jwt isJwt, isSubject] at resolved
  -- The other copy would take the rest of the subject for an id, which starts with the prefix.
  have same : trimStartMatches rest "babamul:" = "babamul:" ++ rest := by simpa using resolved.1.symm
  have none_ := unprefixed _ _ stored
  rw [same, stripPrefix_append] at none_
  cases none_

variable (hash validateToken mainUsers store) in
/-- The APIs agree on a request exactly when its token is not one that repeats the prefix. -/
theorem agree_iff (unprefixed : store.Unprefixed)
    (jwts : ∀ token subject, validateToken token = some subject → stripPrefix token tokenPrefix = none)
    (authorization : Option (List UInt8)) :
    Agree hash validateToken mainUsers store authorization ↔
      ¬ ∃ token, bearerToken "Invalid Authorization header" authorization = .ok token ∧ RepeatsPrefix validateToken store token := by
  constructor
  · rintro agree ⟨token, isToken, repeats⟩
    exact not_agree_of_repeats unprefixed jwts isToken repeats agree
  · intro single
    exact agree_of_single unprefixed jwts fun token isToken repeats => single ⟨token, isToken, repeats⟩

end Agreement

/-! ### One user, with a token of each kind -/

def adasStore : TokenStore where
  users := ⟨[("ada", ⟨"ada@example.org", ⟨"secret"⟩, none, true, [], none, none, none, [], none, none⟩)], by decide +kernel⟩
  now := 0
  history := []

def adasJwt : String :=
  "eyJ0eXAiOiJKV1QiLCJhbGciOiJIUzI1NiJ9.eyJzdWIiOiJiYWJhbXVsOmFkYSIsImlhdCI6MCwiZXhwIjo0MTAyNDQ0ODAwfQ." ++
    "tOFFbHM0BdVqbnmfMiNlva2x6iW52wCZSBtN-pbSg0c"

def repeatingJwt : String :=
  "eyJ0eXAiOiJKV1QiLCJhbGciOiJIUzI1NiJ9.eyJzdWIiOiJiYWJhbXVsOmJhYmFtdWw6YWRhIiwiaWF0IjowLCJleHAiOjQxMDI0NDQ4MDB9." ++
    "tkZGcLaAdVKXtVia2I4PIOeY8ZnHeBuls3391q9Llds"

def twoJwts (token : String) : Option String :=
  if token = adasJwt then some "babamul:ada" else if token = repeatingJwt then some "babamul:babamul:ada" else none

def bearer (token : String) : Option (List UInt8) := some (("Bearer " ++ token).toList.map fun char => UInt8.ofNat char.toNat)

theorem bearerToken_bearer {token : String} (visible : ∀ char ∈ token.toList, 32 < char.toNat ∧ char.toNat < 127)
    (invalid : String) : bearerToken invalid (bearer token) = .ok token := by
  have plain : ∀ char ∈ ("Bearer " ++ token).toList, 32 ≤ char.toNat ∧ char.toNat < 127 := by
    rw [String.toList_append, String.toList_ofList]
    simp only [List.forall_mem_append]
    exact ⟨forall_of_all (by decide +kernel), fun char member => ⟨(visible char member).1.le, (visible char member).2⟩⟩
  have text : headerText (("Bearer " ++ token).toList.map fun char => UInt8.ofNat char.toNat) = some ("Bearer " ++ token) := by
    have back : ∀ char ∈ ("Bearer " ++ token).toList, (UInt8.ofNat char.toNat).toNat = char.toNat := fun char member =>
      Nat.mod_eq_of_lt (Nat.lt_trans (plain char member).2 (by decide))
    unfold headerText
    rw [if_pos, List.map_map, List.map_congr_left (g := id), List.map_id, String.ofList_toList]
    · intro char member
      simp [back char member]
    · rw [List.all_map, List.all_eq_true]
      intro char member
      obtain ⟨low, high⟩ := plain char member
      simp [UInt8.le_iff_toNat_le, UInt8.lt_iff_toNat_lt, back char member, low, high]
  have blank (chars : List Char) (inside : ∀ char ∈ chars, char ∈ token.toList) : chars.dropWhile Filter.isWhiteSpace = chars := by
    cases chars with
    | nil => rfl
    | cons char rest =>
      have bounds := visible char (inside char List.mem_cons_self)
      refine List.dropWhile_cons_of_neg ?_
      simp only [Filter.isWhiteSpace, Bool.or_eq_true, Bool.and_eq_true, decide_eq_true_eq, beq_iff_eq]
      omega
  have trimmed : Filter.trim token = token := by
    rw [Filter.trim, blank _ fun _ => id, blank _ fun _ => List.mem_reverse.mp, List.reverse_reverse, String.ofList_toList]
  simp only [bearerToken, bearer, text, Option.bind_some, stripPrefix_append, trimmed]

theorem visible_append {first second : List Char}
    (checked : ((first ++ second).all fun char => decide (32 < char.toNat ∧ char.toNat < 127)) = true) :
    ∀ char ∈ (String.ofList first ++ String.ofList second).toList, 32 < char.toNat ∧ char.toNat < 127 := by
  simp only [String.toList_append, String.toList_ofList]
  exact forall_of_all checked

theorem adasStore_unprefixed : adasStore.Unprefixed := by
  intro userId user stored
  have member := Collection.mem_entries_iff.mpr stored
  simp only [adasStore, List.mem_singleton, Prod.mk.injEq] at member
  rw [member.1]
  decide

theorem twoJwts_not_pat (token subject : String) (isSubject : twoJwts token = some subject) : stripPrefix token tokenPrefix = none := by
  have refused (first : List Char) (rest : String) (other : (first.head? == some 'e') = true) :
      stripPrefix (String.ofList first ++ rest) tokenPrefix = none := by
    cases first with
    | nil => simp at other
    | cons char first =>
      have same : char = 'e' := by simpa using other
      simp [stripPrefix, tokenPrefix, same]
  unfold twoJwts at isSubject
  split at isSubject
  next same =>
    rw [same]
    exact refused _ _ rfl
  next =>
    split at isSubject
    next same =>
      rw [same]
      exact refused _ _ rfl
    next => cases isSubject

theorem agree_iff_login : Agree id twoJwts (Collection.empty : Collection String Unit) adasStore (bearer adasJwt) := by
  refine (agree_iff id twoJwts .empty adasStore adasStore_unprefixed twoJwts_not_pat (bearer adasJwt)).mpr ?_
  rintro ⟨token, isToken, rest, user, isSubject, -, -⟩
  have isJwt : bearerToken "Invalid Authorization header" (bearer adasJwt) = .ok adasJwt :=
    bearerToken_bearer (visible_append (by decide +kernel)) _
  obtain rfl := Except.ok.inj (isJwt.symm.trans isToken)
  have subject : stripPrefix "babamul:ada" "babamul:" = some ("babamul:" ++ rest) := by
    rw [Option.some.inj (isSubject.symm.trans (if_pos rfl)).symm, stripPrefix_append]
  have id_ : stripPrefix "babamul:ada" "babamul:" = some "ada" := by decide +kernel
  have again := Option.some.inj (id_.symm.trans subject)
  have none_ : stripPrefix "ada" "babamul:" = none := by decide +kernel
  rw [again, stripPrefix_append] at none_
  cases none_

/-- Babamul's API lets its bearer in, and the main API does not. -/
theorem repeated_prefix_disagrees :
    ¬ ∀ (hash : String → String) (validateToken : String → Option String) (mainUsers : Collection String Unit) (store : TokenStore),
      store.Unprefixed → (∀ token subject, validateToken token = some subject → stripPrefix token tokenPrefix = none) →
      ∀ authorization, Agree hash validateToken mainUsers store authorization := by
  intro always
  have agree := always id twoJwts .empty adasStore adasStore_unprefixed twoJwts_not_pat (bearer repeatingJwt)
  have accepts : acceptsBabamulCredentials "/tasks" = true := by decide +kernel
  have isToken : bearerToken "Invalid Authorization header" (bearer repeatingJwt) = .ok repeatingJwt :=
    bearerToken_bearer (visible_append (by decide +kernel)) _
  have repeats : RepeatsPrefix twoJwts adasStore repeatingJwt := ⟨"ada", _, by decide +kernel, rfl, rfl⟩
  exact not_agree_of_repeats adasStore_unprefixed twoJwts_not_pat isToken repeats agree

end Boom.Api
