import Boom.Foundations.Queries
import Boom.Utils.Shards

/-! # The queries of a sharded pass

`shardFilters` of the ranges, as the queries the passes send.  Every document of a base
query passes exactly one shard's query when each cut divides what it holds in the field
(`Divides`): a `NaN` is in no range, and null as a cut leaves a missing field in two. -/

namespace Boom.Utils

open Boom.Foundations Boom.Foundations.Queried

variable {V : Type}

def shardQueries (field : String) : List V → List (Query V)
  | [] => [[]]
  | first :: rest =>
    [.any [[.field field [.lt first]], [.field field [.exists_ false]]]] ::
      (((first :: rest).zip rest).map fun pair => [.field field [.gte pair.1, .lt pair.2]]) ++
      [[.field field [.gte (rest.getLastD first)]]]

def mergeFilters (base shard : Query V) : Query V :=
  if shard.isEmpty then base
  else if base.isEmpty then shard
  else [.all [base, shard]]

def ShardFilter.query (field : String) : ShardFilter V → Query V
  | .all => []
  | .below cut => [.any [[.field field [.lt cut]], [.field field [.exists_ false]]]]
  | .between low high => [.field field [.gte low, .lt high]]
  | .from_ cut => [.field field [.gte cut]]

theorem shardQueries_eq (field : String) (cuts : List V) :
    shardQueries field cuts = (shardFilters cuts).map (·.query field) := by
  cases cuts with
  | nil => rfl
  | cons first rest => simp [shardQueries, shardFilters, rangesFrom, ShardFilter.query, Function.comp_def]

theorem divides_number {cut : Bson} (number : cut.kind = .number) (notNan : cut.isNan = false) {value : Option Bson}
    (alike : ∀ held, value = some held → held.kind = .number ∧ held.isNan = false) : Divides cut value where
  accepted := by
    change cut.kind ≠ .regex
    simp [number]
  number := notNan
  alike held holds := (alike held holds).imp_left fun same => same.trans number.symm
  outside held holds item member := by
    have flat : items held = [] := items_eq_nil (by change held.kind ≠ .array; simp [(alike held holds).1])
    cases flat ▸ member
  present _ := by
    change cut.kind ≠ .null ∧ cut.kind ≠ .minKey
    simp [number]

section Passes

variable {K : Type} [LinearOrder K] [Queried V K]

theorem passes_mergeFilters (base shard : Query V) (doc : List (String × V)) :
    (mergeFilters base shard).passes doc = (base.passes doc && shard.passes doc) := by
  unfold mergeFilters
  split
  next empty => simp [List.isEmpty_iff.mp empty]
  next =>
    split
    next empty => simp [List.isEmpty_iff.mp empty]
    next => simp

def rankComparison (K : Type) [LinearOrder K] : Comparison K where
  kind _ := some 0
  lt value cut := value.any fun held => decide (held < cut)
  gte value cut := value.any fun held => decide (cut ≤ held)
  lt_value _ _ := rfl
  gte_value _ _ := rfl
  lt_missing _ := rfl
  gte_missing _ := rfl

def ShardFilter.map {W : Type} (f : V → W) : ShardFilter V → ShardFilter W
  | .all => .all
  | .below cut => .below (f cut)
  | .between low high => .between (f low) (f high)
  | .from_ cut => .from_ (f cut)

def ShardFilter.bounds : ShardFilter V → List V
  | .all => []
  | .below cut => [cut]
  | .between low high => [low, high]
  | .from_ cut => [cut]

omit [LinearOrder K] [Queried V K] in
theorem shardFilters_map (f : V → K) (cuts : List V) :
    shardFilters (cuts.map f) = (shardFilters cuts).map (·.map f) := by
  cases cuts with
  | nil => rfl
  | cons first rest =>
    simp only [List.map_cons, shardFilters, ShardFilter.map, List.cons.injEq, true_and]
    induction rest generalizing first with
    | nil => rfl
    | cons next rest ih =>
      rw [List.map_cons, rangesFrom_cons, rangesFrom_cons, ih next]
      rfl

theorem rangesFrom_bounds {first : V} {rest : List V} {filter : ShardFilter V} (member : filter ∈ rangesFrom first rest) :
    ∀ cut ∈ filter.bounds, cut ∈ first :: rest := by
  induction rest generalizing first with
  | nil =>
    rw [List.mem_singleton.mp member]
    simp [ShardFilter.bounds]
  | cons next rest ih =>
    rw [rangesFrom_cons] at member
    rcases List.mem_cons.mp member with rfl | later
    · simp [ShardFilter.bounds]
    · exact fun cut bound => List.mem_cons_of_mem first (ih later cut bound)

theorem shardFilters_bounds {cuts : List V} {filter : ShardFilter V} (member : filter ∈ shardFilters cuts) :
    ∀ cut ∈ filter.bounds, cut ∈ cuts := by
  cases cuts with
  | nil =>
    rw [List.mem_singleton.mp member]
    simp [ShardFilter.bounds]
  | cons first rest =>
    rcases List.mem_cons.mp member with rfl | later
    · simp [ShardFilter.bounds]
    · exact rangesFrom_bounds later

theorem passes_query {field : String} {filter : ShardFilter V} {doc : List (String × V)}
    (divided : ∀ cut ∈ filter.bounds, Divides cut (doc.lookup field)) : (filter.query field).passes doc =
      (filter.map rank).matches_ (rankComparison K) ((doc.lookup field).map rank) := by
  generalize held_ : doc.lookup field = held at divided
  cases held with
  | none =>
    cases filter with
    | all => rfl
    | below cut => simp [ShardFilter.query, ShardFilter.map, ShardFilter.matches_, held_]
    | between low high =>
      have low_ := (divided low (by simp [ShardFilter.bounds])).gte_missing
      simp [ShardFilter.query, ShardFilter.map, ShardFilter.matches_, held_, rankComparison, low_]
    | from_ cut =>
      have cut_ := (divided cut (by simp [ShardFilter.bounds])).gte_missing
      simp [ShardFilter.query, ShardFilter.map, ShardFilter.matches_, held_, rankComparison, cut_]
  | some value =>
    cases filter with
    | all => rfl
    | below cut =>
      have cut_ := (divided cut (by simp [ShardFilter.bounds])).lt_iff
      simp [ShardFilter.query, ShardFilter.map, ShardFilter.matches_, held_, rankComparison, cut_]
    | between low high =>
      have low_ := (divided low (by simp [ShardFilter.bounds])).gte_iff
      have high_ := (divided high (by simp [ShardFilter.bounds])).lt_iff
      simp [ShardFilter.query, ShardFilter.map, ShardFilter.matches_, held_, rankComparison, low_, high_]
    | from_ cut =>
      have cut_ := (divided cut (by simp [ShardFilter.bounds])).gte_iff
      simp [ShardFilter.query, ShardFilter.map, ShardFilter.matches_, held_, rankComparison, cut_]

theorem countP_shardQueries {field : String} {cuts : List V} (sorted : cuts.Pairwise (rank · ≤ rank ·))
    {doc : List (String × V)} (divided : ∀ cut ∈ cuts, Divides cut (doc.lookup field)) :
    (shardQueries field cuts).countP (·.passes doc) = 1 := by
  have ordered : (cuts.map rank).Pairwise (· ≤ ·) := List.pairwise_map.mpr sorted
  have once := @countP_shardFilters K _ (rankComparison K) 0 _ (fun _ _ => rfl) ordered ((doc.lookup field).map rank)
    fun _ _ => rfl
  rw [shardFilters_map, List.countP_map] at once
  rw [shardQueries_eq, List.countP_map, ← once]
  refine List.countP_congr fun filter member => ?_
  rw [Function.comp_apply, Function.comp_apply,
    passes_query fun cut bound => divided cut (shardFilters_bounds member cut bound)]

theorem countP_mergeFilters {field : String} {cuts : List V} (sorted : cuts.Pairwise (rank · ≤ rank ·))
    {base : Query V} {doc : List (String × V)} (selected : base.passes doc = true)
    (divided : ∀ cut ∈ cuts, Divides cut (doc.lookup field)) :
    ((shardQueries field cuts).map (mergeFilters base)).countP (·.passes doc) = 1 := by
  rw [List.countP_map, ← countP_shardQueries sorted divided]
  refine List.countP_congr fun shard _ => ?_
  rw [Function.comp_apply, passes_mergeFilters, selected, Bool.true_and]

/-- A sharded pass visits each document of the base query once. -/
theorem mergeFilters_visit_once {field : String} {cuts : List V} (sorted : cuts.Pairwise (rank · ≤ rank ·))
    (base : Query V) :
    (∀ doc : List (String × V), base.passes doc = true → (∀ cut ∈ cuts, Divides cut (doc.lookup field)) →
      ((shardQueries field cuts).map (mergeFilters base)).countP (·.passes doc) = 1) ∧
    ∀ docs : List (List (String × V)),
      (∀ doc ∈ docs, base.passes doc = true → ∀ cut ∈ cuts, Divides cut (doc.lookup field)) →
      (((shardQueries field cuts).map (mergeFilters base)).flatMap fun shard => docs.filter shard.passes).Perm
        (docs.filter base.passes) := by
  refine ⟨fun doc selected divided => countP_mergeFilters sorted selected divided, fun docs divided => ?_⟩
  -- a shard selects nothing outside the base query
  have within (shard : Query V) : docs.filter (mergeFilters base shard).passes =
      (docs.filter base.passes).filter (mergeFilters base shard).passes := by
    rw [List.filter_filter]
    refine List.filter_congr fun doc _ => ?_
    rw [passes_mergeFilters]
    cases base.passes doc <;> simp
  rw [List.flatMap_map, funext within]
  refine @pieces_perm _ _ (fun shard => (mergeFilters base shard).passes) _ _ fun doc member => ?_
  obtain ⟨held, selected⟩ := List.mem_filter.mp member
  have once := countP_mergeFilters sorted selected (divided doc held selected)
  rwa [List.countP_map] at once

end Passes

/-- A number that is `NaN` is in no range, null in a cut makes a missing field pass twice, and
    so do the items of an array of arrays. -/
theorem mergeFilters_misses_nan :
    let shards (field : String) (cuts : List Bson) := (shardQueries field cuts).map (mergeFilters [])
    let nan : Bson := .double ⟨0x7ff8000000000000⟩
    let nested : Bson := .array [.array [.int32 1], .array [.int32 5]]
    (shards "created_at" [.int32 5]).countP (·.passes [("created_at", nan)]) = 0 ∧
      (shards "created_at" [.null]).countP (·.passes [("_id", .int32 1)]) = 2 ∧
      (shards "_id" [.array [.int32 3]]).countP (·.passes [("_id", nested)]) = 2 := by
  decide +kernel

theorem mergeFilters_visit_once_numbers :
    let cuts : List Bson := [.int32 3, .double (F64.ofInt 5), .int64 5]
    let base : Query Bson := [.field "_id" [.gte (.int32 2)]]
    let docs : List (List (String × Bson)) := [[("_id", .int64 3)], [("_id", .int32 1)], [("_id", .double (F64.ofInt 9))]]
    ((shardQueries "_id" cuts).map (mergeFilters base)).countP (·.passes [("_id", .int64 3)]) = 1 ∧
      (((shardQueries "_id" cuts).map (mergeFilters base)).flatMap fun shard => docs.filter shard.passes).Perm
        (docs.filter base.passes) := by
  intro cuts base docs
  have visits := @mergeFilters_visit_once Bson _ _ _ "_id" cuts (by decide +kernel) base
  have divided : ∀ doc ∈ docs, ∀ cut ∈ cuts, Divides cut (doc.lookup "_id") := by
    intro doc member cut bound
    have number : ∀ cut ∈ cuts, cut.kind = .number ∧ cut.isNan = false := by decide +kernel
    have alike : ∀ doc ∈ docs, ∀ held ∈ doc.lookup "_id", held.kind = .number ∧ held.isNan = false := by decide +kernel
    exact divides_number (number cut bound).1 (number cut bound).2 (alike doc member)
  exact ⟨visits.1 _ (by decide +kernel) (divided _ (by simp [docs])),
    visits.2 docs fun doc member _ => divided doc member⟩

end Boom.Utils
