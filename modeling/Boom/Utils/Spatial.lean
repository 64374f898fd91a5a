import Boom.Filter.Base
import Boom.Foundations.Bson
import Boom.Utils.Conf
import Mathlib.Data.List.Forall2
import Mathlib.Data.Prod.Lex

/-! # The order of catalog matches

At ingestion the matches of an alert in one catalog are sorted, the most likely host
first, and cut at the catalog's limit.  Distances that are missing, not numbers or not
finite sort last. -/

namespace Boom.Utils

open Boom.Foundations

abbrev Match := List (String × Bson)

/-! ## Reading a row -/

def bsonF64 (doc : Match) (key : String) : Option F64 :=
  match doc.lookup key with
  | some (.double value) => some value
  | some (.int32 value) => some (F64.ofInt value)
  | some (.int64 value) => some (F64.ofInt value)
  | _ => none

def getF64FromDoc (doc : Match) (key : String) : Option F64 :=
  (bsonF64 doc key).filter F64.isFinite

def eqIgnoreAsciiCase (first second : String) : Bool :=
  first.toList.map Char.toLower == second.toList.map Char.toLower

def isStellar (doc : Match) (typeKey : Option String) (stellar : List String) : Bool :=
  match typeKey with
  | none => false
  | some key =>
    match doc.lookup key with
    | some (.string value) => stellar.any fun type_ => eqIgnoreAsciiCase type_ (Filter.trim value)
    | _ => false

/-! ## Ranks -/

def coincidentArcsec : F64 := F64.one

def noProjectedDistance : F64 := F64.negOne

section Keys

variable (typeKey : Option String) (stellar : List String)

def hostRank (doc : Match) : Nat :=
  let arcsec := (getF64FromDoc doc "distance_arcsec").getD F64.infinity
  if arcsec.lt coincidentArcsec then 0
  else if isStellar doc typeKey stellar then 3
  else
    let kpc := (getF64FromDoc doc "distance_kpc").getD F64.infinity
    if kpc.eq noProjectedDistance then 1 else 2

def hostSortKey (doc : Match) : Nat × F64 × F64 :=
  let rank := hostRank typeKey stellar doc
  let kpc :=
    if rank = 2 then (getF64FromDoc doc "distance_kpc").getD F64.infinity else F64.zero
  (rank, kpc, (getF64FromDoc doc "distance_arcsec").getD F64.infinity)

end Keys

def partialCmp (first second : F64) : Option Ordering :=
  if first.lt second then some .lt
  else if first.eq second then some .eq
  else if second.lt first then some .gt
  else none

def compareMatches (config : CatalogXmatchConfig) (first second : Match) : Ordering :=
  let a := hostSortKey config.typeKey config.stellarTypes first
  let b := hostSortKey config.typeKey config.stellarTypes second
  ((compare a.1 b.1).then ((partialCmp a.2.1 b.2.1).getD .eq)).then ((partialCmp a.2.2 b.2.2).getD .eq)

def hostSorted (config : CatalogXmatchConfig) (matches_ : List Match) : List Match :=
  matches_.mergeSort fun first second => compareMatches config first second != .gt

/-! ## The order of sort keys -/

theorem not_isNan_getD {reading : Option F64} {otherwise : F64} (known : otherwise.isNan = false) :
    ((reading.filter F64.isFinite).getD otherwise).isNan = false := by
  cases kept : reading.filter F64.isFinite with
  | none => exact known
  | some value => exact F64.not_isNan_of_isFinite (Option.filter_eq_some_iff.mp kept).2

theorem not_isNan_arcsec (doc : Match) (key : String) :
    ((getF64FromDoc doc key).getD F64.infinity).isNan = false := not_isNan_getD rfl

theorem partialCmp_of_not_isNan {first second : F64} (known : first.isNan = false) (known' : second.isNan = false) :
    partialCmp first second = some (compare first.rank second.rank) := by
  unfold partialCmp F64.lt F64.eq
  rw [known, known']
  rcases lt_trichotomy first.rank second.rank with less | same | greater
  · simp [less, compare_lt_iff_lt.mpr less]
  · simp [same]
  · simp [greater, greater.not_gt, greater.ne', compare_gt_iff_gt.mpr greater]

section Places

variable (config : CatalogXmatchConfig)

def hostPlace (doc : Match) : ℕ ×ₗ (ℤ ×ₗ ℤ) :=
  let key := hostSortKey config.typeKey config.stellarTypes doc
  toLex (key.1, toLex (key.2.1.rank, key.2.2.rank))

theorem compareMatches_eq (first second : Match) :
    compareMatches config first second = compare (hostPlace config first) (hostPlace config second) := by
  have kpc (doc : Match) : (hostSortKey config.typeKey config.stellarTypes doc).2.1.isNan = false := by
    unfold hostSortKey
    dsimp only
    split
    · exact not_isNan_arcsec doc _
    · rfl
  have arcsec (doc : Match) : (hostSortKey config.typeKey config.stellarTypes doc).2.2.isNan = false :=
    not_isNan_arcsec doc _
  unfold compareMatches
  dsimp only
  rw [partialCmp_of_not_isNan (kpc first) (kpc second), partialCmp_of_not_isNan (arcsec first) (arcsec second),
    Prod.Lex.compare_def]
  simp only [Option.getD_some, compareLex, compareOn, Ordering.then_assoc, Prod.Lex.compare_def]
  rfl

theorem compareMatches_eq_iff (first second : Match) :
    compareMatches config first second = .eq ↔ hostPlace config first = hostPlace config second := by
  rw [compareMatches_eq, compare_eq_iff_eq]

theorem compareMatches_ne_gt_iff (first second : Match) :
    (compareMatches config first second != .gt) = true ↔ hostPlace config first ≤ hostPlace config second := by
  rw [compareMatches_eq, bne_iff_ne, compare_le_iff_le]

theorem hostSorted_perm (matches_ : List Match) : (hostSorted config matches_).Perm matches_ :=
  List.mergeSort_perm _ _

theorem hostSorted_sorted (matches_ : List Match) :
    (hostSorted config matches_).Pairwise fun first second => hostPlace config first ≤ hostPlace config second := by
  refine (List.pairwise_mergeSort ?_ ?_ matches_).imp fun {first second} ordered =>
    (compareMatches_ne_gt_iff config first second).mp ordered
  · intro first second third before after
    rw [compareMatches_ne_gt_iff] at *
    exact before.trans after
  · intro first second
    rw [Bool.or_eq_true, compareMatches_ne_gt_iff, compareMatches_ne_gt_iff]
    exact le_total _ _

theorem same_up_to_ties {first second : List Match} (same : first.Perm second)
    (sorted : first.Pairwise fun one other => hostPlace config one ≤ hostPlace config other)
    (sorted' : second.Pairwise fun one other => hostPlace config one ≤ hostPlace config other) :
    List.Forall₂ (fun one other => compareMatches config one other = .eq) first second := by
  have places : first.map (hostPlace config) = second.map (hostPlace config) :=
    (same.map _).eq_of_pairwise (fun _ _ _ _ less greater => le_antisymm less greater)
      (List.pairwise_map.mpr sorted) (List.pairwise_map.mpr sorted')
  rw [← List.forall₂_eq_eq_eq, List.forall₂_map_left_iff, List.forall₂_map_right_iff] at places
  exact places.imp fun one other same => (compareMatches_eq_iff config one other).mpr same

end Places

end Boom.Utils
