import Boom.Foundations.Expressions
import Boom.Utils.Spatial

/-! # The order of catalog matches, as an expression

A catalog-driven run groups the matches of a record in the store and has the store sort
and trim them, by an expression that mirrors `hostSorted`.  The strings a configuration
puts into it are read as expressions there. -/

namespace Boom.Tasks

open Boom.Foundations Boom.Utils

section Expressions

-- How a stellar type is lowercased; beyond ASCII it depends on the tables of Unicode.
variable (toLowercase : String → String)

def stellarExpr (config : CatalogXmatchConfig) : Option Expr :=
  match config.typeKey, config.stellarTypes with
  | some typeKey, _ :: _ => do
    let values ← (config.stellarTypes.map toLowercase).mapM Expr.ofString
    let input ← Expr.ofString ("$$this." ++ typeKey)
    let value := Expr.convertToString input (.literal (.string "")) (.literal (.string ""))
    return .in_ (.toLower (.trim value)) (.array values)
  | _, _ => some (.literal (.bool false))

def asI64 (value : Nat) : Int := (value : Int).bmod (2 ^ 64)

def rankExpr (stellar : Expr) : Expr :=
  .switch
    [(.lt (.path "a" []) (.literal (.double coincidentArcsec)), .literal (.int32 0)),
      (stellar, .literal (.int32 3)),
      (.eq (.path "k" []) (.literal (.double noProjectedDistance)), .literal (.int32 1))]
    (.literal (.int32 2))

def keyedExpr (stellar : Expr) : Expr :=
  .let_ [("a", .ifNull (.path "this" ["distance_arcsec"]) (.literal (.double F64.largest))),
      ("k", .ifNull (.path "this" ["distance_kpc"]) (.literal (.double F64.largest)))]
    (.let_ [("r", rankExpr stellar)]
      (.object [("r", .path "r" []),
        ("k", .cond (.eq (.path "r" []) (.literal (.int32 2))) (.path "k" []) (.literal (.double F64.zero))),
        ("a", .path "a" []), ("doc", .path "this" [])]))

def sortedMatches (config : CatalogXmatchConfig) (input : String) : Option Expr := do
  let stellar ← stellarExpr toLowercase config
  let input ← Expr.ofString input
  let keyed := Expr.map (.ifNull input (.array [])) (keyedExpr stellar)
  let sorted := Expr.map (.sortArray keyed ["r", "k", "a"]) (.path "this" ["doc"])
  return match config.maxResults with
    | some max => .slice sorted (.literal (.int64 (asI64 max)))
    | none => sorted

def storeSorted (server : Server) (config : CatalogXmatchConfig) (id : Bson) (matches_ : List Match) :
    Option Value := do
  let expression ← sortedMatches toLowercase config "$m"
  expression.eval server
    [(Expr.current, some (.document [("_id", id), ("m", .array (matches_.map .document))]))]

end Expressions

end Boom.Tasks
