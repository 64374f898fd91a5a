import Boom.Foundations.Collection
import Boom.Foundations.Json

/-! # Babamul accounts -/

namespace Boom.Api

structure BcryptHash where
  password : String
deriving DecidableEq, Repr

/-- A personal access token.  The token itself is never stored. -/
structure BabamulUserToken where
  id : String
  name : String
  tokenHash : String
  createdAt : Int
  expiresAt : Int
  lastUsedAt : Option Int
deriving DecidableEq, Repr

inductive OAuthProviderKind where
  | google
  | github
  | orcid
deriving DecidableEq, Repr

structure LinkedIdentity where
  provider : OAuthProviderKind
  subject : String
  email : Option String
  linkedAt : Int
deriving DecidableEq, Repr

structure BabamulUser where
  email : String
  passwordHash : BcryptHash
  activationCode : Option String
  isActivated : Bool
  tokens : List BabamulUserToken
  passwordResetTokenHash : Option String
  passwordResetTokenExpiresAt : Option Int
  passwordLastChangedAt : Option Int
  identities : List LinkedIdentity
  orcidId : Option String
  name : Option String
deriving DecidableEq, Repr

end Boom.Api
