import Boom.Foundations.Json
import Boom.Utils.Conf

/-! # Which collections a user may query

A name is unsafe if it is empty, a system collection's or that of a collection the service
keeps its own state in.  Watchlists are open to the users they list.  Of the other
collections an admin may query all, and a user those of the surveys and the reference
catalogs of the configuration. -/

namespace Boom.Api

open Boom.Foundations
open Boom.Utils (AppConfig Survey)

def watchlistPrefix : String := "watchlist_"

def surveyCollectionSuffixes : List String := ["alerts", "alerts_aux", "alerts_cutouts"]

def protectedCollectionNames : List String :=
  ["filters", "babamul_users", "users", "stats", "babamul_oauth_states", "babamul_pending_identities", "locks",
    "catalog_state"]

structure User where
  isAdmin : Bool
  watchlistAccess : List String
deriving DecidableEq, Repr

def startsWith (text start : String) : Bool := (stripPrefix text start).isSome

def isSafeCatalogName (catalogName : String) : Bool :=
  !catalogName.isEmpty && !startsWith catalogName "system." && !protectedCollectionNames.contains catalogName

def User.canAccessCatalog (user : User) (catalog : String) : Bool :=
  !startsWith catalog watchlistPrefix || user.isAdmin || user.watchlistAccess.contains catalog

def isCatalogNameVisible (catalogName : String) (user : Option User) : Bool :=
  isSafeCatalogName catalogName &&
    match user with
    | some user => user.canAccessCatalog catalogName
    | none => !startsWith catalogName watchlistPrefix

def surveyCollectionSuffix (catalogName : String) : Option String :=
  Survey.valueVariants.findSome? fun survey =>
    ((stripPrefix catalogName survey.asStr).bind fun rest => stripPrefix rest "_").filter surveyCollectionSuffixes.contains

def isReferenceCatalog (catalogName : String) (config : AppConfig) : Bool :=
  !startsWith catalogName watchlistPrefix &&
    config.crossmatch.any fun entry => entry.2.any fun catalog => catalog.collectionName == catalogName

def isCatalogQueryable (catalogName : String) (user : User) (config : AppConfig) : Bool :=
  isCatalogNameVisible catalogName (some user) &&
    (user.isAdmin || startsWith catalogName watchlistPrefix || (surveyCollectionSuffix catalogName).isSome ||
      isReferenceCatalog catalogName config)

def collectionExists (collections : Option (List String)) (collectionName : String) : Bool :=
  collections.any fun names => names.contains collectionName

def catalogAccessible (collections : Option (List String)) (catalogName : String) (user : User) (config : AppConfig) : Bool :=
  isCatalogQueryable catalogName user config && collectionExists collections catalogName

/-! ## What a queryable collection is -/

structure MayRead (user : User) (config : AppConfig) (collection : String) : Prop where
  queryable : isCatalogQueryable collection user config = true
  notProtected : collection ∉ protectedCollectionNames
  notSystem : startsWith collection "system." = false
  own : startsWith collection watchlistPrefix = true → user.isAdmin = true ∨ collection ∈ user.watchlistAccess

theorem mayRead_of_queryable {user : User} {config : AppConfig} {collection : String}
    (queryable : isCatalogQueryable collection user config = true) : MayRead user config collection := by
  obtain ⟨visible, _⟩ := Bool.and_eq_true_iff.mp queryable
  obtain ⟨safe, accessible⟩ := Bool.and_eq_true_iff.mp visible
  simp only [isSafeCatalogName, Bool.and_eq_true, Bool.not_eq_true'] at safe
  refine ⟨queryable, by simpa using safe.2, safe.1.2, fun isWatchlist => ?_⟩
  simpa [User.canAccessCatalog, isWatchlist] using accessible

end Boom.Api
