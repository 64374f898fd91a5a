import Mathlib.Data.List.Nodup
import Mathlib.Data.List.Perm.Basic
import Mathlib.Data.Option.Basic

/-! # Keyed document collections

A collection holds documents under unique keys, in the order they were inserted.
Its operations are the single-document and filtered updates of a document store,
each atomic.  A document carries the filter's view of it; `get` is the extensional
view every proof uses. -/

namespace Boom.Foundations

structure Collection (κ δ : Type) where
  entries : List (κ × δ)
  unique : (entries.map Prod.fst).Nodup

namespace Collection

variable {κ δ : Type} [DecidableEq κ]

instance [DecidableEq δ] : DecidableEq (Collection κ δ) := fun first second =>
  decidable_of_iff (first.entries = second.entries) (by cases first; cases second; simp)

def empty : Collection κ δ := ⟨[], List.nodup_nil⟩

def get (collection : Collection κ δ) (key : κ) : Option δ :=
  collection.entries.lookup key

def updateMany (collection : Collection κ δ) (filter : κ → δ → Bool) (change : δ → δ) :
    Collection κ δ where
  entries := collection.entries.map fun entry =>
    (entry.1, if filter entry.1 entry.2 then change entry.2 else entry.2)
  unique := by simpa [List.map_map, Function.comp_def] using collection.unique

def updateOne (collection : Collection κ δ) (key : κ) (filter : δ → Bool) (change : δ → δ) :
    Collection κ δ :=
  collection.updateMany (fun other document => other == key && filter document) change

def matches? (collection : Collection κ δ) (key : κ) (filter : δ → Bool) : Bool :=
  (collection.get key).any filter

def deleteMany (collection : Collection κ δ) (filter : κ → δ → Bool) : Collection κ δ where
  entries := collection.entries.filter fun entry => !filter entry.1 entry.2
  unique := collection.unique.sublist (List.filter_sublist.map _)

def insertFresh (collection : Collection κ δ) (key : κ) (document : δ)
    (fresh : key ∉ collection.entries.map Prod.fst) : Collection κ δ where
  entries := collection.entries ++ [(key, document)]
  unique := by
    rw [List.map_append, List.nodup_append]
    refine ⟨collection.unique, by simp, ?_⟩
    rintro used member other single rfl
    simp only [List.map_cons, List.map_nil, List.mem_singleton] at single
    exact fresh (single ▸ member)

def insertOne (collection : Collection κ δ) (key : κ) (document : δ) : Option (Collection κ δ) :=
  if fresh : key ∉ collection.entries.map Prod.fst then
    some (collection.insertFresh key document fresh)
  else none

def replaceOne (collection : Collection κ δ) (key : κ) (document : δ) : Collection κ δ :=
  (collection.insertOne key document).getD
    (collection.updateOne key (fun _ => true) (fun _ => document))

def find (collection : Collection κ δ) (filter : κ → δ → Bool) : List (κ × δ) :=
  collection.entries.filter fun entry => filter entry.1 entry.2

/-! ## The extensional view -/

theorem lookup_map (entries : List (κ × δ)) (change : κ → δ → δ) (key : κ) :
    (entries.map fun entry => (entry.1, change entry.1 entry.2)).lookup key =
      (entries.lookup key).map (change key) := by
  induction entries with
  | nil => rfl
  | cons entry rest ih =>
    obtain ⟨other, document⟩ := entry
    by_cases same : key = other
    · subst same; simp
    · have differs : (key == other) = false := by simpa using same
      simp [List.lookup_cons, differs, ih]

theorem mem_of_lookup {α β : Type} [BEq α] [LawfulBEq α] {entries : List (α × β)} {key : α} {value : β}
    (found : entries.lookup key = some value) : (key, value) ∈ entries := by
  obtain ⟨before, after, rfl, _⟩ := List.lookup_eq_some_iff.mp found
  simp

omit [DecidableEq κ] in
theorem mem_iff_lookup {α β : Type} [BEq α] [LawfulBEq α] {entries : List (α × β)}
    (unique : (entries.map Prod.fst).Nodup) {key : α} {value : β} :
    (key, value) ∈ entries ↔ entries.lookup key = some value := by
  induction entries with
  | nil => simp
  | cons entry rest ih =>
    obtain ⟨other, held⟩ := entry
    rw [List.map_cons, List.nodup_cons] at unique
    by_cases same : key = other
    · subst same
      have absent : (key, value) ∉ rest := fun member =>
        unique.1 (List.mem_map.mpr ⟨_, member, rfl⟩)
      simp [absent, eq_comm]
    · have differs : (key == other) = false := by simpa using same
      simp [List.lookup_cons, differs, same, ih unique.2]

variable {collection : Collection κ δ} {key : κ} {document : δ}

theorem mem_entries_iff : (key, document) ∈ collection.entries ↔ collection.get key = some document :=
  mem_iff_lookup collection.unique

theorem get_eq_none_iff :
    collection.get key = none ↔ key ∉ collection.entries.map Prod.fst := by
  simp only [get, List.lookup_eq_none_iff, List.mem_map, not_exists, not_and]
  constructor
  · rintro distinct entry member rfl
    simpa using distinct entry member
  · intro absent entry member
    simpa using fun same : key = entry.1 => absent entry member same.symm

@[simp] theorem get_empty (key : κ) : (empty : Collection κ δ).get key = none := rfl

@[simp] theorem get_updateMany (collection : Collection κ δ) (filter : κ → δ → Bool) (change : δ → δ) (key : κ) :
    (collection.updateMany filter change).get key =
      (collection.get key).map fun document =>
        if filter key document then change document else document :=
  lookup_map collection.entries (fun key document =>
    if filter key document then change document else document) key

theorem get_updateOne (collection : Collection κ δ) (key other : κ) (filter : δ → Bool) (change : δ → δ) :
    (collection.updateOne key filter change).get other =
      if other = key then (collection.get key).map fun document =>
        if filter document then change document else document
      else collection.get other := by
  rw [updateOne, get_updateMany]
  by_cases same : other = key
  · subst same; simp
  · simp [same]

theorem cases_updateOne {collection : Collection κ δ} {key other : κ} {filter : δ → Bool} {change : δ → δ} {later : δ}
    (stored : (collection.updateOne key filter change).get other = some later) :
    (other = key ∧ ∃ document, collection.get key = some document ∧
      later = if filter document then change document else document) ∨
      (other ≠ key ∧ collection.get other = some later) := by
  rw [get_updateOne] at stored
  split at stored
  next same =>
    obtain ⟨document, known, rfl⟩ := Option.map_eq_some_iff.mp stored
    exact .inl ⟨same, document, known, rfl⟩
  next differs => exact .inr ⟨differs, stored⟩

@[simp] theorem get_updateOne_self (collection : Collection κ δ) (key : κ) (filter : δ → Bool) (change : δ → δ) :
    (collection.updateOne key filter change).get key =
      (collection.get key).map fun document =>
        if filter document then change document else document := by
  simp [get_updateOne]

theorem get_updateOne_ne (collection : Collection κ δ) {key other : κ} (different : other ≠ key)
    (filter : δ → Bool) (change : δ → δ) :
    (collection.updateOne key filter change).get other = collection.get other := by
  simp [get_updateOne, different]

@[simp] theorem get_deleteMany (collection : Collection κ δ) (filter : κ → δ → Bool) (key : κ) :
    (collection.deleteMany filter).get key =
      (collection.get key).filter fun document => !filter key document := by
  apply Option.ext
  intro document
  rw [← mem_entries_iff, Option.filter_eq_some_iff, ← mem_entries_iff]
  simp [deleteMany]

theorem get_insertFresh (collection : Collection κ δ) (key other : κ) (document : δ)
    (fresh : key ∉ collection.entries.map Prod.fst) : (collection.insertFresh key document fresh).get other =
      if other = key then some document else collection.get other := by
  apply Option.ext
  intro held
  rw [← mem_entries_iff]
  by_cases same : other = key
  · subst same
    have absent : (other, held) ∉ collection.entries := fun member =>
      fresh (List.mem_map.mpr ⟨_, member, rfl⟩)
    simp [insertFresh, absent, eq_comm]
  · simp [insertFresh, same, mem_entries_iff]

theorem insertOne_of_get_none (absent : collection.get key = none) (document : δ) :
    collection.insertOne key document =
      some (collection.insertFresh key document (get_eq_none_iff.mp absent)) :=
  dif_pos (get_eq_none_iff.mp absent)

theorem insertOne_of_get_some {held : δ} (present : collection.get key = some held) (document : δ) :
    collection.insertOne key document = none := by
  refine dif_neg (not_not.mpr ?_)
  exact List.mem_map.mpr ⟨_, mem_entries_iff.mpr present, rfl⟩

variable {collection after : Collection κ δ}

theorem insertOne_eq_some_iff :
    collection.insertOne key document = some after ↔
      ∃ fresh, after = collection.insertFresh key document fresh := by
  unfold insertOne
  split
  next fresh =>
    constructor
    · intro same
      exact ⟨fresh, (Option.some.inj same).symm⟩
    · rintro ⟨_, rfl⟩
      rfl
  next used =>
    constructor
    · intro impossible
      cases impossible
    · rintro ⟨fresh, _⟩
      exact absurd fresh used

theorem get_insertOne (inserted : collection.insertOne key document = some after) (other : κ) :
    after.get other = if other = key then some document else collection.get other := by
  obtain ⟨fresh, rfl⟩ := insertOne_eq_some_iff.mp inserted
  exact get_insertFresh collection key other document fresh

theorem absent_of_insertOne (inserted : collection.insertOne key document = some after) : collection.get key = none :=
  get_eq_none_iff.mpr (insertOne_eq_some_iff.mp inserted).1

theorem get_replaceOne (collection : Collection κ δ) (key other : κ) (document : δ) :
    (collection.replaceOne key document).get other =
      if other = key then some document else collection.get other := by
  unfold replaceOne
  cases held : collection.get key with
  | none =>
    rw [insertOne_of_get_none held, Option.getD_some]
    exact get_insertFresh collection key other document _
  | some present =>
    rw [insertOne_of_get_some held, Option.getD_none]
    by_cases same : other = key
    · subst same; simp [held]
    · simp [same, get_updateOne]

variable {filter : κ → δ → Bool}

@[simp] theorem mem_find
    : (key, document) ∈ collection.find filter ↔
      collection.get key = some document ∧ filter key document := by
  simp [find, mem_entries_iff]

end Collection

end Boom.Foundations
