import Boom.Tasks.MirroredKeys

/-! # The two orders of catalog matches

Ingestion and the store's expression sort the matches of an alert by keys of their own.
`Mirrored` says which matches have the same place in both; on those the two orders agree up
to equal keys (`storeSorted_mirrors`). -/

namespace Boom.Tasks

open Boom.Foundations Boom.Utils

/-! ## Mirrored matches -/

def ArcsecMirrored : Option Bson → Prop
  | some (.double value) => (value.isFinite = true ∧ value ≠ F64.largest) ∨ value = F64.infinity
  | some (.int32 value) | some (.int64 value) => F64.InRange value
  | some (.decimal value) => F64.largest.exact ≤ value.exact
  | none | some .null | some (.string _) | some (.document _) | some (.array _) | some (.bool _) => True

def KpcMirrored : Option Bson → Prop
  | some (.double value) => value.isFinite = true ∧ value ≠ F64.largest
  | some (.int32 value) | some (.int64 value) => F64.InRange value ∧ (F64.ofInt value).toRat = value
  | none | some .null => True
  | some (.string _) | some (.document _) | some (.array _) | some (.bool _) | some (.decimal _) => False

def TypeMirrored (server : Server) (stellar : List String) : Option Bson → Prop
  | some (.string text) =>
    stellar.any (fun type_ => eqIgnoreAsciiCase type_ (trimBlank text)) =
      stellar.any fun type_ => eqIgnoreAsciiCase type_ (Filter.trim text)
  | other => stellar.any (fun type_ => eqIgnoreAsciiCase type_ (trimBlank (columnText server other))) = false

def coincident (doc : Match) : Bool :=
  ((getF64FromDoc doc "distance_arcsec").getD F64.infinity).lt coincidentArcsec

structure Mirrored (server : Server) (config : CatalogXmatchConfig) (doc : Match) : Prop where
  arcsec : ArcsecMirrored (doc.lookup "distance_arcsec")
  type_ : coincident doc = false → ∀ key, config.typeKey = some key →
    TypeMirrored server config.stellarTypes (doc.lookup key)
  kpc : coincident doc = false → isStellar doc config.typeKey config.stellarTypes = false →
    KpcMirrored (doc.lookup "distance_kpc")

/-! ## Keys of numbers -/

def numberKey (value : Exact) : List Token := [Token.ofType 10, Token.ofExact value]

theorem numberKey_le_iff {first second : Exact} : numberKey first ≤ numberKey second ↔ first ≤ second := by
  unfold numberKey
  rw [cons_le_iff, cons_le_iff]
  simp only [lt_self_iff_false, false_or, true_and, le_refl, and_true]
  rw [← le_iff_lt_or_eq, Token.ofExact_le_iff]

theorem numberKey_le_of_type {value : Exact} {type_ : Nat} {rest : List Token} (later : 10 < type_) :
    numberKey value ≤ Token.ofType type_ :: rest :=
  cons_le_iff.mpr (.inl (Token.ofType_lt later))

theorem sortKey_double (value : F64) : (Bson.double value).sortKey = numberKey value.exact := by
  simp [Bson.sortKey, numberKey]

theorem exact_largest : F64.largest.exact = Exact.finite F64.largest.toRat := F64.exact_of_isFinite (by decide)

section Distances

variable {doc other : Match} {key : String}

theorem arcsec_cases (mirrored : ArcsecMirrored (doc.lookup key)) :
    (getF64FromDoc doc key = none ∧ numberKey F64.largest.exact ≤ (given doc key).sortKey) ∨
      ∃ number value, getF64FromDoc doc key = some value ∧ F64.Reads number value ∧ number < F64.largest.toRat ∧
        (given doc key).sortKey = numberKey (Exact.finite number) := by
  unfold getF64FromDoc bsonF64 given
  cases stored : doc.lookup key with
  | none => exact .inl ⟨rfl, (sortKey_double _).ge⟩
  | some value =>
    rw [stored] at mirrored
    cases value with
    | null => exact .inl ⟨rfl, (sortKey_double _).ge⟩
    | double value =>
      rcases mirrored with ⟨finite, smaller⟩ | rfl
      · refine .inr ⟨value.toRat, value, ?_, F64.reads_double finite, ?_, ?_⟩
        · simp [finite]
        · rw [← not_le, F64.toRat_le_iff, not_le]
          exact F64.rank_lt_largest finite smaller
        · rw [sortKey_double, F64.exact_of_isFinite finite]
      · refine .inl ⟨by decide, ?_⟩
        dsimp only
        rw [sortKey_double, numberKey_le_iff]
        decide +kernel
    | int32 value =>
      exact .inr ⟨value, F64.ofInt value, by simp [F64.isFinite_ofInt mirrored], F64.reads_int mirrored,
        F64.intCast_lt_toRat_largest mirrored, by simp [Bson.sortKey, numberKey]⟩
    | int64 value =>
      exact .inr ⟨value, F64.ofInt value, by simp [F64.isFinite_ofInt mirrored], F64.reads_int mirrored,
        F64.intCast_lt_toRat_largest mirrored, by simp [Bson.sortKey, numberKey]⟩
    | decimal value =>
      refine .inl ⟨rfl, ?_⟩
      dsimp only
      rw [Bson.sortKey]
      exact numberKey_le_iff.mpr mirrored
    | string text =>
      refine .inl ⟨rfl, ?_⟩
      dsimp only
      rw [Bson.sortKey]
      exact numberKey_le_of_type (by decide)
    | document fields =>
      refine .inl ⟨rfl, ?_⟩
      dsimp only
      rw [Bson.sortKey]
      exact numberKey_le_of_type (by decide)
    | array items =>
      refine .inl ⟨rfl, ?_⟩
      dsimp only
      rw [Bson.sortKey]
      exact numberKey_le_of_type (by decide)
    | bool value =>
      refine .inl ⟨rfl, ?_⟩
      dsimp only
      rw [Bson.sortKey]
      exact numberKey_le_of_type (by decide)

def read (doc : Match) (key : String) : F64 := (getF64FromDoc doc key).getD F64.infinity

theorem arcsec_mono (mirrored : ArcsecMirrored (doc.lookup key)) (mirrored' : ArcsecMirrored (other.lookup key))
    (less : (given doc key).sortKey ≤ (given other key).sortKey) : (read doc key).rank ≤ (read other key).rank := by
  unfold read
  rcases arcsec_cases mirrored with ⟨unread, last⟩ | ⟨number, value, reading, reads, below, sorts⟩ <;>
    rcases arcsec_cases mirrored' with ⟨unread', last'⟩ | ⟨number', value', reading', reads', below', sorts'⟩
  · rw [unread, unread']
  · -- A separation that is read sorts before the one that is not.
    have above := last.trans less
    rw [sorts', numberKey_le_iff, exact_largest, Exact.finite_le_iff] at above
    exact absurd below' (not_lt.mpr above)
  · rw [reading, unread']
    exact (F64.rank_lt_infinity reads.1).le
  · rw [reading, reading']
    rw [sorts, sorts', numberKey_le_iff, Exact.finite_le_iff] at less
    exact reads.mono reads' less

theorem arcsec_lt_iff (mirrored : ArcsecMirrored (doc.lookup key)) :
    (given doc key).sortKey < (Bson.double coincidentArcsec).sortKey ↔ (read doc key).lt coincidentArcsec = true := by
  have one : coincidentArcsec.exact = Exact.finite 1 := by
    rw [F64.exact_of_isFinite (by decide), coincidentArcsec, F64.toRat_one]
  unfold read
  rw [sortKey_double, one]
  rcases arcsec_cases mirrored with ⟨unread, last⟩ | ⟨number, value, reading, reads, below, sorts⟩
  · have above : Exact.finite 1 ≤ F64.largest.exact := by decide +kernel
    rw [unread, ← not_le, iff_false_intro (not_not_intro ((numberKey_le_iff.mpr above).trans last)), false_iff]
    decide
  · rw [reading, Option.getD_some, F64.lt_iff reads.1 (by decide), coincidentArcsec, reads.lt_one_iff, sorts, ← not_le,
      numberKey_le_iff, Exact.finite_le_iff, not_le]

section

variable (mirrored : KpcMirrored (doc.lookup key))
include mirrored

theorem kpc_cases : (getF64FromDoc doc key = none ∧ (given doc key).sortKey = numberKey F64.largest.exact) ∨
      ∃ value, getF64FromDoc doc key = some value ∧ value.isFinite = true ∧ value.rank < F64.largest.rank ∧
        (given doc key).sortKey = numberKey value.exact := by
  unfold getF64FromDoc bsonF64 given
  have integer {value : Int} (inRange : F64.InRange value) (whole : (F64.ofInt value).toRat = value) :
      (F64.ofInt value).rank < F64.largest.rank ∧ numberKey (Exact.finite value) = numberKey (F64.ofInt value).exact := by
    rw [F64.exact_of_isFinite (F64.isFinite_ofInt inRange), whole]
    refine ⟨?_, rfl⟩
    rw [← not_le, ← F64.toRat_le_iff, whole, not_le]
    exact F64.intCast_lt_toRat_largest inRange
  cases stored : doc.lookup key with
  | none => exact .inl ⟨rfl, sortKey_double _⟩
  | some value =>
    rw [stored] at mirrored
    cases value with
    | null => exact .inl ⟨rfl, sortKey_double _⟩
    | double value =>
      exact .inr ⟨value, by simp [mirrored.1], mirrored.1, F64.rank_lt_largest mirrored.1 mirrored.2, sortKey_double _⟩
    | int32 value =>
      obtain ⟨below, sorts⟩ := integer mirrored.1 mirrored.2
      exact .inr ⟨F64.ofInt value, by simp [F64.isFinite_ofInt mirrored.1], F64.isFinite_ofInt mirrored.1, below,
        by simpa [Bson.sortKey, numberKey] using sorts⟩
    | int64 value =>
      obtain ⟨below, sorts⟩ := integer mirrored.1 mirrored.2
      exact .inr ⟨F64.ofInt value, by simp [F64.isFinite_ofInt mirrored.1], F64.isFinite_ofInt mirrored.1, below,
        by simpa [Bson.sortKey, numberKey] using sorts⟩
    | _ => exact mirrored.elim

theorem kpc_le_iff (mirrored' : KpcMirrored (other.lookup key)) :
    (given doc key).sortKey ≤ (given other key).sortKey ↔ (read doc key).rank ≤ (read other key).rank := by
  have top : F64.largest.isFinite = true := by decide
  unfold read
  rcases kpc_cases mirrored with ⟨unread, sorts⟩ | ⟨value, reading, finite, below, sorts⟩ <;>
    rcases kpc_cases mirrored' with ⟨unread', sorts'⟩ | ⟨value', reading', finite', below', sorts'⟩
  · rw [unread, unread', sorts, sorts']
    exact iff_of_true le_rfl le_rfl
  · rw [unread, reading', sorts, sorts', numberKey_le_iff, F64.exact_le_iff top finite']
    exact iff_of_false (not_le.mpr below') (not_le.mpr (F64.rank_lt_infinity finite'))
  · rw [reading, unread', sorts, sorts', numberKey_le_iff, F64.exact_le_iff finite top]
    exact iff_of_true below.le (F64.rank_lt_infinity finite).le
  · rw [reading, reading', sorts, sorts', numberKey_le_iff, F64.exact_le_iff finite finite']
    rfl

theorem kpc_eq_iff :
    (given doc key).sortKey = (Bson.double noProjectedDistance).sortKey ↔ (read doc key).eq noProjectedDistance = true := by
  have known : noProjectedDistance.isFinite = true := by decide
  unfold read
  rw [sortKey_double]
  rcases kpc_cases mirrored with ⟨unread, sorts⟩ | ⟨value, reading, finite, below, sorts⟩
  · rw [unread, sorts]
    exact iff_of_false (by decide +kernel) (by decide)
  · rw [reading, sorts, Option.getD_some, F64.eq_iff finite known, le_antisymm_iff, le_antisymm_iff, numberKey_le_iff,
      numberKey_le_iff, F64.exact_le_iff finite known, F64.exact_le_iff known finite]

end

end Distances

/-! ## The two orders -/

section Orders

variable {server : Server} {config : CatalogXmatchConfig} {doc other : Match}

theorem storeStellar_eq (mirrored : Mirrored server config doc) (far : coincident doc = false) :
    storeStellar server config doc = isStellar doc config.typeKey config.stellarTypes := by
  have type_ := mirrored.type_ far
  unfold storeStellar isStellar
  cases known : config.typeKey with
  | none => rfl
  | some key =>
    have column := type_ key known
    dsimp only
    generalize doc.lookup key = stored at column ⊢
    unfold TypeMirrored at column
    cases stored with
    | none => exact column
    | some value => cases value <;> exact column

theorem hostRank_eq : hostRank config.typeKey config.stellarTypes doc =
    if coincident doc then 0
    else if isStellar doc config.typeKey config.stellarTypes then 3
    else if (read doc "distance_kpc").eq noProjectedDistance then 1
    else 2 := rfl

theorem near_iff (mirrored : Mirrored server config doc) :
    (given doc "distance_arcsec").sortKey < (Bson.double coincidentArcsec).sortKey ↔ coincident doc = true :=
  arcsec_lt_iff mirrored.arcsec

theorem storeRank_eq (mirrored : Mirrored server config doc) :
    storeRank server config doc = hostRank config.typeKey config.stellarTypes doc := by
  rw [hostRank_eq, storeRank]
  simp only [near_iff mirrored]
  split
  · rfl
  · next near =>
    have far := Bool.eq_false_iff.mpr near
    rw [storeStellar_eq mirrored far]
    split
    · rfl
    · next noStar =>
      have kpc := mirrored.kpc far (Bool.eq_false_iff.mpr noStar)
      simp only [kpc_eq_iff kpc]

theorem hostRank_eq_two (ranked : hostRank config.typeKey config.stellarTypes doc = 2) :
    coincident doc = false ∧ isStellar doc config.typeKey config.stellarTypes = false := by
  rw [hostRank_eq] at ranked
  split at ranked
  · exact absurd ranked (by decide)
  · next far =>
    split at ranked
    · exact absurd ranked (by decide)
    · next noStar => exact ⟨Bool.eq_false_iff.mpr far, Bool.eq_false_iff.mpr noStar⟩

theorem storeKpc_le_iff (mirrored : Mirrored server config doc) (mirrored' : Mirrored server config other)
    (same : storeRank server config doc = storeRank server config other) :
    (storeKpc server config doc).sortKey ≤ (storeKpc server config other).sortKey ↔
      (hostSortKey config.typeKey config.stellarTypes doc).2.1.rank ≤
        (hostSortKey config.typeKey config.stellarTypes other).2.1.rank := by
  have ranked := storeRank_eq mirrored
  have ranked' := storeRank_eq mirrored'
  unfold storeKpc hostSortKey
  dsimp only
  rw [← ranked, ← ranked', ← same]
  split
  · next two =>
    obtain ⟨far, noStar⟩ := hostRank_eq_two (ranked.symm.trans two)
    obtain ⟨far', noStar'⟩ := hostRank_eq_two (ranked'.symm.trans (same.symm.trans two))
    exact kpc_le_iff (mirrored.kpc far noStar) (mirrored'.kpc far' noStar')
  · exact iff_of_true le_rfl le_rfl

theorem elementKey_keyed : elementKey ["r", "k", "a"] (keyed server config doc) =
    [(Bson.int32 (storeRank server config doc)).sortKey, (storeKpc server config doc).sortKey,
      (given doc "distance_arcsec").sortKey] := rfl

theorem rankKey_lt_iff {rank rank' : Nat} :
    (Bson.int32 rank).sortKey ≤ (Bson.int32 rank').sortKey ↔ rank ≤ rank' := by
  have keys (rank : Nat) : (Bson.int32 rank).sortKey = numberKey (Exact.finite ((rank : Int) : ℚ)) := by
    simp [Bson.sortKey, numberKey]
  rw [keys, keys, numberKey_le_iff, Exact.finite_le_iff, Int.cast_le, Nat.cast_le]

theorem hostPlace_le_of_elementLe (mirrored : Mirrored server config doc) (mirrored' : Mirrored server config other)
    (ordered : elementLe ["r", "k", "a"] (keyed server config doc) (keyed server config other) = true) :
    hostPlace config doc ≤ hostPlace config other := by
  have first : (hostSortKey config.typeKey config.stellarTypes doc).1 = storeRank server config doc :=
    (storeRank_eq mirrored).symm
  have first' : (hostSortKey config.typeKey config.stellarTypes other).1 = storeRank server config other :=
    (storeRank_eq mirrored').symm
  have lists := of_decide_eq_true ordered
  rw [elementKey_keyed, elementKey_keyed, cons_le_iff, cons_le_iff, cons_le_iff] at lists
  unfold hostPlace
  rw [Prod.Lex.toLex_le_toLex, Prod.Lex.toLex_le_toLex, first, first']
  rcases lists with rank | ⟨sameRank, kpc | ⟨sameKpc, arcsec⟩⟩
  · rw [lt_iff_not_ge, rankKey_lt_iff, not_le] at rank
    exact .inl rank
  · have ranks : storeRank server config doc = storeRank server config other :=
      le_antisymm (rankKey_lt_iff.mp sameRank.le) (rankKey_lt_iff.mp sameRank.ge)
    rw [lt_iff_not_ge, storeKpc_le_iff mirrored' mirrored ranks.symm, not_le] at kpc
    exact .inr ⟨ranks, .inl kpc⟩
  · have ranks : storeRank server config doc = storeRank server config other :=
      le_antisymm (rankKey_lt_iff.mp sameRank.le) (rankKey_lt_iff.mp sameRank.ge)
    have kpcs := le_antisymm ((storeKpc_le_iff mirrored mirrored' ranks).mp sameKpc.le)
      ((storeKpc_le_iff mirrored' mirrored ranks.symm).mp sameKpc.ge)
    have less : (given doc "distance_arcsec").sortKey ≤ (given other "distance_arcsec").sortKey := by
      rcases arcsec with less | ⟨same, -⟩
      · exact less.le
      · exact same.le
    exact .inr ⟨ranks, .inr ⟨kpcs, arcsec_mono mirrored.arcsec mirrored'.arcsec less⟩⟩

end Orders

/-! ## The sorted lists -/

def matchOf : Bson → Match
  | .document fields =>
    match fields.lookup "doc" with
    | some (.document doc) => doc
    | _ => []
  | _ => []

section Lists

variable {server : Server} {toLowercase : String → String} {config : CatalogXmatchConfig}

def arrange (server : Server) (config : CatalogXmatchConfig) (matches_ : List Match) : List Match :=
  (server.sort (elementLe ["r", "k", "a"]) (matches_.map (keyed server config))).map matchOf

theorem keyed_arrange (matches_ : List Match) :
    server.sort (elementLe ["r", "k", "a"]) (matches_.map (keyed server config)) =
      (arrange server config matches_).map (keyed server config) := by
  unfold arrange
  rw [List.map_map]
  have each : ∀ element ∈ server.sort (elementLe ["r", "k", "a"]) (matches_.map (keyed server config)),
      (keyed server config ∘ matchOf) element = id element := by
    intro element sorted
    obtain ⟨doc, -, rfl⟩ := List.mem_map.mp ((server.sort_perm _ _).mem_iff.mp sorted)
    rfl
  rw [List.map_congr_left each, List.map_id]

theorem arrange_perm (matches_ : List Match) : (arrange server config matches_).Perm matches_ := by
  have same := (server.sort_perm (elementLe ["r", "k", "a"]) (matches_.map (keyed server config))).map matchOf
  have unwrapped : (matches_.map (keyed server config)).map matchOf = matches_ := by
    rw [List.map_map]
    exact List.map_id _
  rwa [unwrapped] at same

theorem storeSorted_eq (plain : Plain toLowercase config) (id : Bson) (matches_ : List Match) :
    storeSorted toLowercase server config id matches_ =
      some (some (.array (((arrange server config matches_).take (config.maxResults.getD matches_.length)).map .document))) := by
  obtain ⟨stellar, read, star⟩ := @eval_stellarExpr server toLowercase config plain
  have input : Expr.ofString "$m" = some (.path Expr.current ["m"]) := by rfl
  generalize group : [(Expr.current, some (Bson.document [("_id", id), ("m", .array (matches_.map .document))]))] = scope
  have grouped : (Expr.ifNull (.path Expr.current ["m"]) (.array [])).eval server scope =
      some (some (.array (matches_.map .document))) := by
    rw [Expr.eval, Expr.eval, ← group]
    rfl
  -- Each match gets its sort keys, the list is sorted by them, and they are taken off again.
  have keys : (Expr.map (.ifNull (.path Expr.current ["m"]) (.array [])) (keyedExpr stellar)).eval server scope =
      some (some (.array (matches_.map (keyed server config)))) := by
    have each : ∀ element ∈ matches_.map Bson.document,
        (keyedExpr stellar).eval server (("this", some element) :: scope) =
          some ((fun element => match element with
            | .document doc => some (keyed server config doc)
            | _ => none) element) := by
      intro element listed
      obtain ⟨doc, -, rfl⟩ := List.mem_map.mp listed
      exact eval_keyedExpr (star doc)
    rw [Expr.eval, grouped]
    dsimp only [Option.bind_eq_bind, Option.bind_some]
    rw [mapM_some each, List.map_map]
    dsimp only [Option.bind_some, Option.pure_def]
    rw [List.map_map]
    rfl
  have sorted : (Expr.sortArray (.map (.ifNull (.path Expr.current ["m"]) (.array [])) (keyedExpr stellar))
      ["r", "k", "a"]).eval server scope = some (some (.array ((arrange server config matches_).map (keyed server config)))) := by
    rw [Expr.eval, keys, ← keyed_arrange]
    rfl
  have unwrapped : (Expr.map (.sortArray (.map (.ifNull (.path Expr.current ["m"]) (.array [])) (keyedExpr stellar))
      ["r", "k", "a"]) (.path "this" ["doc"])).eval server scope =
        some (some (.array ((arrange server config matches_).map .document))) := by
    have each : ∀ element ∈ (arrange server config matches_).map (keyed server config),
        (Expr.path "this" ["doc"]).eval server (("this", some element) :: scope) =
          some (some (.document (matchOf element))) := by
      intro element listed
      obtain ⟨doc, -, rfl⟩ := List.mem_map.mp listed
      rw [Expr.eval]
      rfl
    rw [Expr.eval, sorted]
    dsimp only [Option.bind_eq_bind, Option.bind_some]
    rw [mapM_some each, List.map_map]
    dsimp only [Option.bind_some, Option.pure_def]
    rw [List.map_map]
    rfl
  unfold storeSorted sortedMatches
  rw [read, input, group]
  dsimp only [Option.bind_eq_bind, Option.bind_some, Option.pure_def]
  cases limited : config.maxResults with
  | none =>
    rw [Option.getD_none, ← (arrange_perm matches_).length_eq, List.take_length]
    exact unwrapped
  | some max =>
    have bounded := plain.limit max limited
    have whole : asI64 max = (max : Int) := Int.bmod_eq_of_le (by omega) (by omega)
    -- The limit is one the database takes.
    have fits : -2147483648 ≤ (max : Int) ∧ (max : Int) ≤ 2147483647 := by omega
    have count : sliceCount (some (.int64 max)) = some (max : Int) := if_pos fits
    dsimp only
    rw [Expr.eval, unwrapped, Expr.eval, whole]
    dsimp only [Option.bind_eq_bind, Option.bind_some]
    rw [count]
    dsimp only [Option.bind_some, Option.pure_def]
    rw [sliceOf, if_pos (Int.natCast_nonneg max), Int.toNat_natCast, ← List.map_take]
    rfl

end Lists

def SameOrder (toLowercase : String → String) (server : Server) (config : CatalogXmatchConfig) (id : Bson)
    (matches_ : List Match) : Prop :=
  ∃ arranged, arranged.Perm matches_ ∧
    List.Forall₂ (fun one other => compareMatches config one other = .eq) arranged (hostSorted config matches_) ∧
    storeSorted toLowercase server config id matches_ =
      some (some (.array ((arranged.take (config.maxResults.getD matches_.length)).map .document)))

/-- On mirrored matches the store's order is that of ingestion, up to equal keys. -/
theorem storeSorted_mirrors (server : Server) (toLowercase : String → String) (config : CatalogXmatchConfig) (id : Bson)
    (matches_ : List Match) (plain : Plain toLowercase config) (mirrored : ∀ doc ∈ matches_, Mirrored server config doc) :
    SameOrder toLowercase server config id matches_ := by
  have same := @arrange_perm server config matches_
  refine ⟨arrange server config matches_, same, ?_, storeSorted_eq plain id matches_⟩
  have sorted := server.sort_sorted (elementLe ["r", "k", "a"]) (elementLe_total _) (elementLe_trans _)
    (matches_.map (keyed server config))
  rw [keyed_arrange, List.pairwise_map] at sorted
  refine same_up_to_ties config (same.trans (hostSorted_perm config matches_).symm) ?_ (hostSorted_sorted config matches_)
  refine sorted.imp_of_mem fun {first second} listed listed' ordered => ?_
  exact hostPlace_le_of_elementLe (mirrored first (same.mem_iff.mp listed)) (mirrored second (same.mem_iff.mp listed'))
    ordered

/-! ## A store to run it on -/

def typedCatalog (star : String) : CatalogXmatchConfig :=
  { catalog := "catalog", collection := none, typeKey := some "type", stellarTypes := [star], maxResults := some 2 }

theorem typedCatalog_plain {star : String} (literal : star.toList.head? ≠ some '$') :
    Plain lowerAscii (typedCatalog star) where
  limit max limited := by
    obtain rfl : 2 = max := Option.some.inj limited
    decide
  column key known _ := by
    obtain rfl : "type" = key := Option.some.inj known
    decide
  types _ type_ listed := by
    obtain rfl : type_ = star := List.mem_singleton.mp listed
    exact ⟨rfl, literal⟩

/-- A star, and a galaxy with no distance, farther away. -/
theorem storeSorted_mirrors_star :
    let star : Match := [("type", .string " star"), ("distance_arcsec", .int32 2)]
    let galaxy : Match := [("type", .null), ("distance_kpc", .null), ("distance_arcsec", .double (F64.ofInt 5))]
    SameOrder lowerAscii decimalServer (typedCatalog "STAR") (.int64 1) [star, galaxy] := by
  refine storeSorted_mirrors decimalServer lowerAscii (typedCatalog "STAR") (.int64 1) _ (typedCatalog_plain (by decide)) ?_
  rw [List.forall_mem_cons, List.forall_mem_singleton]
  constructor
  · have near : F64.InRange 2 := by decide +kernel
    refine ⟨near, fun _ key known => ?_, fun _ noStar => absurd noStar (by decide +kernel)⟩
    obtain rfl : "type" = key := Option.some.inj known
    change (_ : Bool) = _
    decide +kernel
  · have far : (F64.ofInt 5).isFinite = true ∧ F64.ofInt 5 ≠ F64.largest := by decide +kernel
    refine ⟨.inl far, fun _ key known => ?_, fun _ _ => trivial⟩
    obtain rfl : "type" = key := Option.some.inj known
    change (_ : Bool) = _
    decide +kernel

/-- A type column of numbers: ingestion takes no number for a star. -/
theorem storeSorted_misreads_numbers :
    let star : Match := [("type", .int32 6), ("distance_kpc", .int32 5), ("distance_arcsec", .int32 2)]
    let galaxy : Match := [("type", .int32 3), ("distance_kpc", .int32 9), ("distance_arcsec", .int32 3)]
    ¬ SameOrder lowerAscii decimalServer (typedCatalog "6") (.int64 1) [star, galaxy] := by
  intro star galaxy
  rintro ⟨arranged, same, ordered, stored⟩
  rw [storeSorted_eq (typedCatalog_plain (by decide))] at stored
  have after : elementLe ["r", "k", "a"] (keyed decimalServer (typedCatalog "6") star)
      (keyed decimalServer (typedCatalog "6") galaxy) = false := by decide +kernel
  have swapped : arrange decimalServer (typedCatalog "6") [star, galaxy] = [galaxy, star] := by
    unfold arrange
    rw [List.map_cons, List.map_cons, List.map_nil, decimalServer_swaps after]
    rfl
  rw [swapped] at stored
  simp only [Option.some.injEq, Bson.array.injEq] at stored
  have wrapped := List.map_injective_iff.mpr (fun _ _ same => Bson.document.inj same) stored
  have short : arranged.length ≤ (typedCatalog "6").maxResults.getD [star, galaxy].length := same.length_eq.le
  have short' : [galaxy, star].length ≤ (typedCatalog "6").maxResults.getD [star, galaxy].length := le_rfl
  rw [List.take_of_length_le short, List.take_of_length_le short'] at wrapped
  rw [← wrapped] at ordered
  -- The galaxy would have the place of the first match at ingestion.
  have sorted := hostSorted_sorted (typedCatalog "6") [star, galaxy]
  generalize hostSorted (typedCatalog "6") [star, galaxy] = hosts at ordered sorted
  obtain ⟨first, rest, firstSame, restOrdered, rfl⟩ := List.forall₂_cons_left_iff.mp ordered
  obtain ⟨second, rest, secondSame, -, rfl⟩ := List.forall₂_cons_left_iff.mp restOrdered
  rw [compareMatches_eq_iff] at firstSame secondSame
  have placed := (List.pairwise_cons.mp sorted).1 second (List.mem_cons_self ..)
  rw [← firstSame, ← secondSame] at placed
  exact absurd placed (by decide +kernel)

example : hostRank (some "type") ["6"] [("type", .int32 6), ("distance_arcsec", .int32 2)] = 2 := by decide +kernel

end Boom.Tasks
