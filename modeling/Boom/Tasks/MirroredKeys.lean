import Boom.Foundations.Rounding
import Boom.Tasks.SortedMatches

/-! # What the expression makes of a match

The expression wraps every match in a document with the fields it sorts by.  `keyed` is
that document, and `eval_keyedExpr` says when the store makes it. -/

namespace Boom.Tasks

open Boom.Foundations Boom.Utils

/-! ## Strings as expressions -/

theorem toLower_eq_dollar {char : Char} (lowered : char.toLower = '$') : char = '$' := by
  unfold Char.toLower at lowered
  split at lowered
  · next upper =>
    have code := congrArg (fun char : Char => char.val.toNat) lowered
    have bounds := upper.1
    have bounds' := upper.2
    simp only [ge_iff_le, UInt32.le_iff_toNat_le] at bounds bounds'
    simp only [UInt32.toNat_add] at code
    have letterA : 'A'.val.toNat = 65 := rfl
    have letterZ : 'Z'.val.toNat = 90 := rfl
    have distance : ('a'.val - 'A'.val).toNat = 32 := rfl
    have dollar : '$'.val.toNat = 36 := rfl
    omega
  · exact lowered

theorem ofString_of_plain {text : String} (plain : text.toList.head? ≠ some '$') :
    Expr.ofString text = some (.literal (.string text)) := by
  unfold Expr.ofString
  split
  · next shape => exact absurd (by rw [shape]; rfl) plain
  · next shape => exact absurd (by rw [shape]; rfl) plain
  · rfl

theorem ofString_this {key : String} (valid : Expr.validName key.toList = true) (undotted : '.' ∉ key.toList) :
    Expr.ofString ("$$this." ++ key) = some (.path "this" [key]) := by
  have letters : ("$$this." ++ key).toList = '$' :: '$' :: ("this".toList ++ '.' :: key.toList) := by
    rw [String.toList_append]
    rfl
  have parts : ("this".toList ++ '.' :: key.toList).splitOn '.' = ["this".toList, key.toList] := by
    rw [List.splitOn_append_cons_self_of_not_mem (by decide), List.splitOn_eq_singleton undotted]
  have this : Expr.validName "this".toList = true := by decide
  unfold Expr.ofString
  simp only [letters, parts, List.all_cons, List.all_nil, List.map_cons, List.map_nil, valid, this,
    String.ofList_toList, Bool.and_true, if_true]

/-! ## Stars -/

def columnText (server : Server) : Option Bson → String
  | none | some .null => ""
  | some (.string text) => text
  | some value => (server.render value).getD ""

def storeStellar (server : Server) (config : CatalogXmatchConfig) (doc : Match) : Bool :=
  match config.typeKey with
  | none => false
  | some key =>
    config.stellarTypes.any fun type_ => eqIgnoreAsciiCase type_ (trimBlank (columnText server (doc.lookup key)))

structure Plain (toLowercase : String → String) (config : CatalogXmatchConfig) : Prop where
  limit : ∀ max, config.maxResults = some max → max ≤ 2147483647
  column : ∀ key, config.typeKey = some key → config.stellarTypes ≠ [] →
    Expr.validName key.toList = true ∧ '.' ∉ key.toList
  types : config.typeKey ≠ none → ∀ type_ ∈ config.stellarTypes,
    toLowercase type_ = lowerAscii type_ ∧ type_.toList.head? ≠ some '$'

theorem lowerAscii_eq_iff {first second : String} :
    lowerAscii first = lowerAscii second ↔ eqIgnoreAsciiCase first second = true := by
  unfold lowerAscii eqIgnoreAsciiCase
  rw [beq_iff_eq, String.ofList_inj]

theorem head_lowerAscii {text : String} (plain : text.toList.head? ≠ some '$') :
    (lowerAscii text).toList.head? ≠ some '$' := by
  unfold lowerAscii
  rw [String.toList_ofList, List.head?_map]
  intro starts
  obtain ⟨char, first, lowered⟩ := Option.map_eq_some_iff.mp starts
  exact plain (by rw [first, toLower_eq_dollar lowered])

theorem string_sortKey_inj {first second : String} :
    (Bson.string first).sortKey = (Bson.string second).sortKey ↔ first = second := by
  constructor
  · intro same
    simpa [Bson.sortKey, Token.ofText] using same
  · rintro rfl
    rfl

theorem any_sortKey (texts : List String) (text : String) :
    ((texts.map Bson.string).any fun other => Bson.keyOf (some (.string text)) = other.sortKey) = texts.contains text := by
  induction texts with
  | nil => rfl
  | cons first rest ih =>
    have head : decide (Bson.keyOf (some (.string text)) = (Bson.string first).sortKey) = (text == first) := by
      rw [Bool.eq_iff_iff, decide_eq_true_iff, beq_iff_eq]
      exact string_sortKey_inj
    rw [List.map_cons, List.any_cons, ih, head, List.contains_cons]

section Evaluation

variable {server : Server} {toLowercase : String → String} {config : CatalogXmatchConfig}

theorem evalItems_strings (scope : List (String × Value)) (texts : List String) :
    Expr.evalItems server scope (texts.map fun text => .literal (.string text)) = some (texts.map .string) := by
  induction texts with
  | nil => simp [Expr.evalItems]
  | cons text rest ih => simp [Expr.evalItems, Expr.eval, ih]

theorem eval_column {scope : List (String × Value)} {input : Expr} {value : Value}
    (column : input.eval server scope = some value) :
    (Expr.toLower (.trim (.convertToString input (.literal (.string "")) (.literal (.string ""))))).eval server scope =
      some (some (.string (lowerAscii (trimBlank (columnText server value))))) := by
  have converted : (Expr.convertToString input (.literal (.string "")) (.literal (.string ""))).eval server scope =
      some (some (.string (columnText server value))) := by
    unfold Expr.eval
    rw [column]
    cases value with
    | none => simp [Expr.eval, columnText]
    | some value =>
      cases value with
      | null => simp [Expr.eval, columnText]
      | string text => simp [columnText]
      | _ =>
        simp only [Option.bind_eq_bind, Option.bind_some, columnText]
        split <;> simp_all [Expr.eval]
  unfold Expr.eval
  unfold Expr.eval
  rw [converted]
  rfl

theorem eval_stellarExpr (plain : Plain toLowercase config) :
    ∃ stellar, stellarExpr toLowercase config = some stellar ∧
      ∀ (doc : Match) (scope : List (String × Value)), scope.lookup "this" = some (some (.document doc)) →
        stellar.eval server scope = some (some (.bool (storeStellar server config doc))) := by
  unfold stellarExpr storeStellar
  split
  · next key first rest hasKey types =>
    obtain ⟨valid, undotted⟩ := plain.column key hasKey (by rw [types]; exact List.cons_ne_nil _ _)
    have each : ∀ text ∈ config.stellarTypes.map toLowercase,
        Expr.ofString text = some (.literal (.string text)) := by
      intro text listed
      obtain ⟨type_, configured, rfl⟩ := List.mem_map.mp listed
      obtain ⟨lowered, literal⟩ := plain.types (by rw [hasKey]; exact Option.some_ne_none _) type_ configured
      rw [lowered]
      exact ofString_of_plain (head_lowerAscii literal)
    rw [mapM_some each, ofString_this valid undotted, hasKey]
    refine ⟨_, rfl, fun doc scope this => ?_⟩
    have column : (Expr.path "this" [key]).eval server scope = some (doc.lookup key) := by
      unfold Expr.eval
      rw [this]
      rfl
    have listed : (Expr.array ((config.stellarTypes.map toLowercase).map fun text => .literal (.string text))).eval
        server scope = some (some (.array ((config.stellarTypes.map toLowercase).map .string))) := by
      unfold Expr.eval
      rw [evalItems_strings]
      rfl
    have same : (config.stellarTypes.map toLowercase).contains (lowerAscii (trimBlank (columnText server (doc.lookup key)))) =
        config.stellarTypes.any fun type_ => eqIgnoreAsciiCase type_ (trimBlank (columnText server (doc.lookup key))) := by
      rw [Bool.eq_iff_iff, List.contains_iff_mem, List.mem_map, List.any_eq_true]
      refine exists_congr fun type_ => and_congr_right fun configured => ?_
      rw [(plain.types (by rw [hasKey]; exact Option.some_ne_none _) type_ configured).1, lowerAscii_eq_iff]
    unfold Expr.eval
    rw [eval_column column, listed]
    simp only [Option.bind_eq_bind, Option.bind_some, any_sortKey, same]
    rfl
  · next unknown =>
    refine ⟨_, rfl, fun doc scope _ => ?_⟩
    unfold Expr.eval
    cases hasKey : config.typeKey with
    | none => rfl
    | some key =>
      cases types : config.stellarTypes with
      | nil => rfl
      | cons first rest => exact absurd types (unknown key first rest hasKey)

end Evaluation

/-! ## Sort keys -/

def given (doc : Match) (key : String) : Bson :=
  match doc.lookup key with
  | none | some .null => .double F64.largest
  | some value => value

section Keyed

variable (server : Server) (config : CatalogXmatchConfig) (doc : Match)

def storeRank : Nat :=
  if (given doc "distance_arcsec").sortKey < (Bson.double coincidentArcsec).sortKey then 0
  else if storeStellar server config doc then 3
  else if (given doc "distance_kpc").sortKey = (Bson.double noProjectedDistance).sortKey then 1
  else 2

def storeKpc : Bson :=
  if storeRank server config doc = 2 then given doc "distance_kpc" else .double F64.zero

def keyed : Bson :=
  .document [("r", .int32 (storeRank server config doc)), ("k", storeKpc server config doc),
    ("a", given doc "distance_arcsec"), ("doc", .document doc)]

end Keyed

section Evaluation

variable {server : Server} {config : CatalogXmatchConfig} {doc : Match} {stellar : Expr}

theorem eval_given {scope : List (String × Value)} (this : scope.lookup "this" = some (some (.document doc)))
    (key : String) :
    (Expr.ifNull (.path "this" [key]) (.literal (.double F64.largest))).eval server scope = some (some (given doc key)) := by
  have read : (Expr.path "this" [key]).eval server scope = some (doc.lookup key) := by
    unfold Expr.eval
    rw [this]
    rfl
  unfold Expr.eval
  rw [read]
  unfold given
  cases doc.lookup key with
  | none => simp [Value.isNull, Expr.eval]
  | some value => cases value <;> simp [Value.isNull, Expr.eval]

theorem eval_rankExpr {scope : List (String × Value)}
    (arcsec : scope.lookup "a" = some (some (given doc "distance_arcsec")))
    (kpc : scope.lookup "k" = some (some (given doc "distance_kpc")))
    (star : stellar.eval server scope = some (some (.bool (storeStellar server config doc)))) :
    (rankExpr stellar).eval server scope = some (some (.int32 (storeRank server config doc))) := by
  unfold rankExpr storeRank
  simp only [Expr.eval, Expr.evalBranches, arcsec, kpc, star, readPath, Option.bind_eq_bind, Option.bind_some,
    Option.map_some, Value.truthy, Bson.keyOf, Option.pure_def]
  by_cases near : (given doc "distance_arcsec").sortKey < (Bson.double coincidentArcsec).sortKey
  · simp only [near, decide_true, if_true, Option.bind_some]
    rfl
  · simp only [near, decide_false, if_false, Bool.false_eq_true]
    cases storeStellar server config doc
    · simp only [if_false, Bool.false_eq_true]
      by_cases nearby : (given doc "distance_kpc").sortKey = (Bson.double noProjectedDistance).sortKey
      · simp only [nearby, decide_true, if_true, Option.bind_some]
        rfl
      · simp only [nearby, decide_false, if_false, Bool.false_eq_true, Option.bind_some]
        rfl
    · simp only [if_true, Option.bind_some]
      rfl

theorem eval_wrapper {scope : List (String × Value)}
    (rank : scope.lookup "r" = some (some (.int32 (storeRank server config doc))))
    (kpc : scope.lookup "k" = some (some (given doc "distance_kpc")))
    (arcsec : scope.lookup "a" = some (some (given doc "distance_arcsec")))
    (this : scope.lookup "this" = some (some (.document doc))) : (Expr.object [("r", .path "r" []),
        ("k", .cond (.eq (.path "r" []) (.literal (.int32 2))) (.path "k" []) (.literal (.double F64.zero))),
        ("a", .path "a" []), ("doc", .path "this" [])]).eval server scope = some (some (keyed server config doc)) := by
  have two : (Bson.int32 (storeRank server config doc)).sortKey = (Bson.int32 2).sortKey ↔
      storeRank server config doc = 2 := by
    simp only [Bson.sortKey, Token.ofExact, Exact.finite, List.cons.injEq, toLex_inj, Prod.mk.injEq, and_true, true_and]
    norm_cast
  unfold keyed storeKpc
  simp only [Expr.eval, Expr.evalFields, rank, kpc, arcsec, this, readPath, Option.bind_eq_bind, Option.bind_some,
    Option.map_some, Option.pure_def, Bson.keyOf, two, Value.truthy]
  by_cases others : storeRank server config doc = 2
  · simp only [others, decide_true, if_true, Option.bind_some, Option.map_some]
  · simp only [others, decide_false, if_false, Bool.false_eq_true, Option.bind_some, Option.map_some]

theorem eval_keyedExpr {scope : List (String × Value)}
    (star : ∀ scope : List (String × Value), scope.lookup "this" = some (some (.document doc)) →
      stellar.eval server scope = some (some (.bool (storeStellar server config doc)))) :
    (keyedExpr stellar).eval server (("this", some (.document doc)) :: scope) = some (some (keyed server config doc)) := by
  have arcsec := @eval_given server doc (("this", some (.document doc)) :: scope) rfl "distance_arcsec"
  have kpc := @eval_given server doc (("this", some (.document doc)) :: scope) rfl "distance_kpc"
  have rank := @eval_rankExpr server config doc stellar
    ([("a", some (given doc "distance_arcsec")), ("k", some (given doc "distance_kpc"))] ++
      ("this", some (.document doc)) :: scope) rfl rfl (star _ rfl)
  unfold keyedExpr
  rw [Expr.eval, Expr.evalBindings, Expr.evalBindings, Expr.evalBindings, arcsec, kpc]
  dsimp only [Option.bind_eq_bind, Option.bind_some, Option.pure_def]
  rw [Expr.eval, Expr.evalBindings, Expr.evalBindings, rank]
  exact eval_wrapper rfl rfl rfl rfl

end Evaluation

end Boom.Tasks
