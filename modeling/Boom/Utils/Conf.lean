import Boom.Utils.Enums

/-! # Configuration of the catalogs that alerts are matched with -/

namespace Boom.Utils

structure CatalogXmatchConfig where
  /-- The key the matches appear under. -/
  catalog : String
  collection : Option String
  maxResults : Option Nat
  /-- The field with a row's object type, and its values that mean a star. -/
  typeKey : Option String
  stellarTypes : List String
deriving DecidableEq, Repr

def CatalogXmatchConfig.collectionName (config : CatalogXmatchConfig) : String :=
  config.collection.getD config.catalog

structure AppConfig where
  crossmatch : List (Survey × List CatalogXmatchConfig)

namespace Survey

def valueVariants : List Survey := [.ztf, .lsst, .decam, .winter]

def asStr : Survey → String
  | .ztf => "ZTF"
  | .lsst => "LSST"
  | .decam => "DECAM"
  | .winter => "WINTER"

end Survey

end Boom.Utils
