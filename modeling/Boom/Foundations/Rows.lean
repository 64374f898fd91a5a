import Mathlib.Data.List.Sort

/-! # Working on a batch row by row

A batch goes through a function that works row by row in pieces of one fixed size, the
last one padded.  Some rows cannot be prepared and are left out, so that a row's place
among those kept is not its place in the batch.  The rules below say that all of this
bookkeeping comes to applying the function to each row. -/

namespace Boom.Foundations

variable {α β γ : Type}

/-! ## Rows that can be prepared -/

def indexed (prepare : α → Option β) (items : List α) : List Nat × List β :=
  (items.zipIdx.filterMap fun entry => (prepare entry.1).map fun made => (entry.2, made)).unzip

def positionIndex (indices : List Nat) (index : Nat) : Option Nat := indices.idxOf? index

theorem lookup_of_positions (entries : List (Nat × β)) (index : Nat) :
    ((positionIndex (entries.map Prod.fst) index).bind fun position => (entries.map Prod.snd)[position]?) =
      entries.lookup index := by
  induction entries with
  | nil => rfl
  | cons entry rest ih =>
    obtain ⟨kept, made⟩ := entry
    by_cases same : kept = index
    · subst same
      simp [positionIndex, List.idxOf?_cons]
    · have differs : (index == kept) = false := by simpa using Ne.symm same
      rw [List.lookup_cons, differs, ← ih]
      simp [positionIndex, List.idxOf?_cons, same, Option.bind_map]

variable (prepare : α → Option β)

theorem lookup_kept (items : List α) (start place : Nat) :
    ((items.zipIdx start).filterMap fun entry => (prepare entry.1).map fun made => (entry.2, made)).lookup
      (start + place) = items[place]?.bind prepare := by
  induction items generalizing start place with
  | nil => simp
  | cons item rest ih =>
    rw [List.zipIdx_cons]
    cases place with
    | zero =>
      cases prepared : prepare item with
      | some made => simp [prepared]
      | none =>
        -- every later place is past `start`
        have later : ∀ entry ∈ (rest.zipIdx (start + 1)).filterMap fun entry =>
            (prepare entry.1).map fun made => (entry.2, made), (start == entry.1) = false := by
          intro entry member
          obtain ⟨⟨other, position⟩, stands, made⟩ := List.mem_filterMap.mp member
          obtain ⟨result, _, rfl⟩ := Option.map_eq_some_iff.mp made
          have past := (List.mem_zipIdx stands).1
          simp only [beq_eq_false_iff_ne]
          omega
        simpa [prepared, List.lookup_eq_none_iff] using later
    | succ place =>
      have next := ih (start + 1) place
      have shifted : start + (place + 1) = start + 1 + place := by omega
      rw [shifted]
      cases prepared : prepare item with
      | some made =>
        have differs : (start + 1 + place == start) = false := by simp; omega
        simpa [prepared, List.lookup_cons, differs] using next
      | none => simpa [prepared] using next

theorem indexed_cases {items : List α} {index : Nat} {item : α} (stands : items[index]? = some item) :
    (positionIndex (indexed prepare items).1 index = none ∧ prepare item = none) ∨
      ∃ position made, positionIndex (indexed prepare items).1 index = some position ∧
        (indexed prepare items).2[position]? = some made ∧ prepare item = some made := by
  have kept := lookup_kept prepare items 0 index
  rw [stands, Option.bind_some, Nat.zero_add] at kept
  rw [indexed, List.unzip_fst, List.unzip_snd]
  generalize items.zipIdx.filterMap (fun entry => (prepare entry.1).map fun made => (entry.2, made)) =
    entries at kept
  rw [← lookup_of_positions] at kept
  cases found : positionIndex (entries.map Prod.fst) index with
  | none => exact .inl ⟨rfl, by simpa [found] using kept.symm⟩
  | some position =>
    obtain ⟨within, _⟩ := List.idxOf?_eq_some_iff.mp found
    rw [List.length_map] at within
    refine .inr ⟨position, entries[position].2, rfl, by simp [within], ?_⟩
    simpa [found, within] using kept.symm

/-! ## Pieces of one size -/

def chunksWithin (size : Nat) : Nat → List α → List (List α)
  | 0, _ => []
  | _ + 1, [] => []
  | fuel + 1, item :: rest =>
    (item :: rest).take size :: chunksWithin size fuel ((item :: rest).drop size)

def chunks (size : Nat) (items : List α) : List (List α) := chunksWithin size items.length items

variable {size : Nat}

theorem flatten_chunksWithin (positive : 0 < size) (fuel : Nat) (items : List α)
    (enough : items.length ≤ fuel) : (chunksWithin size fuel items).flatten = items := by
  induction fuel generalizing items with
  | zero =>
    obtain rfl : items = [] := List.eq_nil_of_length_eq_zero (by omega)
    rfl
  | succ fuel ih =>
    cases items with
    | nil => rfl
    | cons item rest =>
      have shorter : ((item :: rest).drop size).length ≤ fuel := by
        simp only [List.length_drop, List.length_cons] at enough ⊢
        omega
      rw [chunksWithin, List.flatten_cons, ih _ shorter, List.take_append_drop]

theorem flatten_chunks (positive : 0 < size) (items : List α) : (chunks size items).flatten = items :=
  flatten_chunksWithin positive items.length items (Nat.le_refl _)

theorem of_mem_chunksWithin (positive : 0 < size) (fuel : Nat) (items : List α)
    {chunk : List α} (member : chunk ∈ chunksWithin size fuel items) :
    chunk ≠ [] ∧ chunk.length ≤ size := by
  induction fuel generalizing items with
  | zero => cases member
  | succ fuel ih =>
    cases items with
    | nil => cases member
    | cons item rest =>
      rcases List.mem_cons.mp member with rfl | later
      · refine ⟨?_, List.length_take_le _ _⟩
        obtain ⟨smaller, rfl⟩ := Nat.exists_eq_succ_of_ne_zero (Nat.pos_iff_ne_zero.mp positive)
        simp
      · exact ih _ later

theorem of_mem_chunks (positive : 0 < size) {items chunk : List α}
    (member : chunk ∈ chunks size items) : chunk ≠ [] ∧ chunk.length ≤ size :=
  of_mem_chunksWithin positive items.length items member

def padded (size : Nat) (pad : α) (rows : List α) : List α :=
  rows ++ List.replicate (size - rows.length) pad

@[simp] theorem length_padded {rows : List α} (fits : rows.length ≤ size) (pad : α) :
    (padded size pad rows).length = size := by
  simp only [padded, List.length_append, List.length_replicate]
  omega

theorem take_map_padded (f : α → β) (size : Nat) (pad : α) (rows : List α) :
    ((padded size pad rows).map f).take rows.length = rows.map f := by
  simp [padded]

theorem zipWith_padded {δ : Type} (f : β → γ → δ) (size : Nat) (pad : β) (pad' : γ) (rows : List α)
    (first : α → β) (second : α → γ) :
    List.zipWith f (padded size pad (rows.map first)) (padded size pad' (rows.map second)) =
      padded size (f pad pad') (rows.map fun row => f (first row) (second row)) := by
  have sameLength : (rows.map first).length = (rows.map second).length := by simp
  simp only [padded, List.zipWith_append sameLength, List.zipWith_map, List.zipWith_self, List.length_map]
  simp

theorem getElem?_padded {size index : Nat} {pad : α} {rows : List α} (within : index < rows.length) :
    (padded size pad rows)[index]? = rows[index]? := by
  simp [padded, List.getElem?_append_left within]

/-! ## Results in their places -/

def scatter (writes : List (Nat × β)) (base : List β) : List β :=
  writes.foldl (fun results write => results.set write.1 write.2) base

theorem getElem?_scatter {writes : List (Nat × β)} (distinct : (writes.map Prod.fst).Nodup)
    (base : List β) (index : Nat) : (scatter writes base)[index]? =
      if index < base.length then (writes.lookup index).or base[index]? else none := by
  induction writes generalizing base with
  | nil =>
    by_cases within : index < base.length
    · simp [scatter, within]
    · simp [scatter, within]
  | cons write rest ih =>
    obtain ⟨place, result⟩ := write
    rw [List.map_cons, List.nodup_cons] at distinct
    have next := ih distinct.2 (base.set place result)
    rw [List.length_set] at next
    rw [scatter, List.foldl_cons, ← scatter, next]
    by_cases within : index < base.length
    · rw [if_pos within, if_pos within]
      by_cases same : index = place
      · subst same
        -- no later write goes to the same place
        have last : rest.lookup index = none := by
          rw [List.lookup_eq_none_iff]
          intro other member
          have apart : index ≠ other.1 := fun equal =>
            distinct.1 (List.mem_map.mpr ⟨other, member, equal.symm⟩)
          simpa using apart
        simp [last, within]
      · have differs : (index == place) = false := by simpa using same
        rw [List.lookup_cons, differs, List.getElem?_set_ne (Ne.symm same)]
    · rw [if_neg within, if_neg within]

/-! ## All or nothing -/

def gather (prepare : α → Option β) : List α → Option (List β)
  | [] => some []
  | item :: rest => do
    let made ← prepare item
    let others ← gather prepare rest
    return made :: others

theorem getElem?_filterMap {prepare : α → Option β} {items : List α}
    (each : ∀ item ∈ items, (prepare item).isSome) (index : Nat) :
    (items.filterMap prepare)[index]? = items[index]?.bind prepare := by
  induction items generalizing index with
  | nil => rfl
  | cons item rest ih =>
    obtain ⟨made, prepared⟩ := Option.isSome_iff_exists.mp (each item List.mem_cons_self)
    have later := ih fun other member => each other (List.mem_cons_of_mem item member)
    rw [List.filterMap_cons_some prepared]
    cases index with
    | zero => simp [prepared]
    | succ index => simpa using later index

theorem gather_eq {prepare : α → Option β} {result : α → β} {items : List α}
    (each : ∀ item ∈ items, prepare item = some (result item)) :
    gather prepare items = some (items.map result) := by
  induction items with
  | nil => rfl
  | cons item rest ih =>
    simp only [List.mem_cons, forall_eq_or_imp] at each
    simp [gather, each.1, ih each.2]

theorem filter_made {read : α → Option β} {keep : α → Bool} {keepMade : β → Bool}
    (same : ∀ item made, read item = some made → keepMade made = keep item) (items : List α) :
    (items.filterMap read).filter keepMade = (items.filter keep).filterMap read := by
  rw [List.filter_filterMap, List.filterMap_filter]
  refine List.filterMap_congr fun item _ => ?_
  cases made : read item with
  | none => simp
  | some result =>
    rw [Option.filter, same item result made]

theorem gather_spec (items : List α) :
    gather prepare items =
      if ∀ item ∈ items, (prepare item).isSome then some (items.filterMap prepare) else none := by
  induction items with
  | nil => rfl
  | cons item rest ih =>
    cases prepared : prepare item with
    | none => simp [gather, prepared]
    | some made =>
      by_cases all : ∀ item ∈ rest, (prepare item).isSome
      · rw [if_pos all] at ih
        rw [if_pos (by simpa [prepared] using all)]
        simp [gather, prepared, ih]
      · rw [if_neg all] at ih
        rw [if_neg (by simpa [prepared] using all)]
        simp [gather, prepared, ih]

theorem gather_congr {prepare prepare' : α → Option β} {items : List α}
    (same : ∀ item ∈ items, prepare item = prepare' item) : gather prepare items = gather prepare' items := by
  induction items with
  | nil => rfl
  | cons item rest ih =>
    simp only [List.mem_cons, forall_eq_or_imp] at same
    rw [gather, gather, same.1, ih same.2]

theorem gather_map (finish : β → γ) (items : List α) :
    gather (fun item => (prepare item).map finish) items = (gather prepare items).map (List.map finish) := by
  induction items with
  | nil => rfl
  | cons item rest ih =>
    cases prepared : prepare item <;> cases others : gather prepare rest <;>
      simp [gather, prepared, others, ih]

theorem gather_bind (finish : β → Option γ) (items : List α) :
    gather (fun item => (prepare item).bind finish) items = (gather prepare items).bind (gather finish) := by
  induction items with
  | nil => rfl
  | cons item rest ih =>
    cases prepared : prepare item with
    | none => simp [gather, prepared]
    | some made =>
      cases others : gather prepare rest <;> cases finished : finish made <;>
        simp [gather, prepared, others, finished, ih]

theorem gather_zip (first : α → Option β) (second : α → Option γ) (items : List α) :
    gather (fun item => (first item).bind fun made => (second item).map fun other => (made, other)) items =
      (gather first items).bind fun mades => (gather second items).map fun others => mades.zip others := by
  induction items with
  | nil => rfl
  | cons item rest ih =>
    cases prepared : first item <;> cases prepared' : second item <;> cases others : gather first rest <;>
      cases others' : gather second rest <;>
      simp [gather, prepared, prepared', others, others', ih]

theorem gather_labelled {label : α → γ} (items : List α) :
    gather (fun item => (prepare item).map fun made => (made, label item)) items =
      (gather prepare items).map fun mades => mades.zip (items.map label) := by
  induction items with
  | nil => rfl
  | cons item rest ih =>
    cases prepared : prepare item <;> cases others : gather prepare rest <;>
      simp [gather, prepared, others, ih]

theorem gather_comp (prepare : β → Option γ) (place : α → β) (items : List α) :
    gather (fun item => prepare (place item)) items = gather prepare (items.map place) := by
  induction items with
  | nil => rfl
  | cons item rest ih => simp [gather, ih]

theorem gather_append (items others : List α) :
    gather prepare (items ++ others) =
      (gather prepare items).bind fun mades => (gather prepare others).map fun later => mades ++ later := by
  induction items with
  | nil => cases made : gather prepare others <;> simp [gather, made]
  | cons item rest ih =>
    cases prepared : prepare item <;> cases first : gather prepare rest <;>
      cases later : gather prepare others <;>
      simp [gather, prepared, first, later, ih]

theorem gather_flatten (pieces : List (List α)) :
    (gather (gather prepare) pieces).map List.flatten = gather prepare pieces.flatten := by
  induction pieces with
  | nil => rfl
  | cons piece rest ih =>
    rw [List.flatten_cons, gather_append, ← ih]
    cases first : gather prepare piece <;> cases later : gather (gather prepare) rest <;>
      simp [gather, first, later]

theorem length_of_gather {prepare : α → Option β} {items : List α} {mades : List β}
    (gathered : gather prepare items = some mades) : mades.length = items.length := by
  rw [gather_spec] at gathered
  split at gathered
  next each =>
    obtain rfl := Option.some.inj gathered
    clear gathered
    induction items with
    | nil => rfl
    | cons item rest ih =>
      simp only [List.mem_cons, forall_eq_or_imp] at each
      obtain ⟨made, prepared⟩ := Option.isSome_iff_exists.mp each.1
      simp [prepared, ih each.2]
  next => cases gathered

/-! ## A piece filled up with its first row -/

def padFirst (size : Nat) : List α → List α
  | [] => []
  | first :: rest => padded size first (first :: rest)

@[simp] theorem map_padFirst (f : α → β) (size : Nat) (rows : List α) :
    (padFirst size rows).map f = padFirst size (rows.map f) := by
  cases rows <;> simp [padFirst, padded]

theorem gather_padFirst (size : Nat) (rows : List α) :
    gather prepare (padFirst size rows) = (gather prepare rows).map (padFirst size) := by
  cases rows with
  | nil => rfl
  | cons first rest =>
    rw [padFirst, padded, gather_append]
    cases prepared : prepare first with
    | none => simp [gather, prepared]
    | some made =>
      have copies (count : Nat) : gather prepare (List.replicate count first) = some (List.replicate count made) := by
        rw [@gather_eq _ _ prepare (fun _ => made) _ fun row member => by rw [List.eq_of_mem_replicate member, prepared]]
        simp
      cases later : gather prepare rest with
      | none => simp [gather, prepared, later]
      | some others => simp [gather, prepared, later, copies, padFirst, padded, length_of_gather later]

theorem length_padFirst {rows : List α} (nonempty : rows ≠ []) (fits : rows.length ≤ size) :
    (padFirst size rows).length = size := by
  obtain ⟨first, rest, rfl⟩ := List.exists_cons_of_ne_nil nonempty
  exact length_padded fits first

theorem take_padFirst (size : Nat) (rows : List α) : (padFirst size rows).take rows.length = rows := by
  cases rows with
  | nil => rfl
  | cons first rest => simp [padFirst, padded]

/-! ## Rows in one buffer -/

section Buffers

variable {width : Nat} {cells : α → List β}

section

variable (wide : ∀ row, (cells row).length = width)
include wide

theorem length_flatMap_width (rows : List α) : (rows.flatMap cells).length = rows.length * width := by
  induction rows with
  | nil => simp
  | cons row rest ih =>
    rw [List.flatMap_cons, List.length_append, wide, ih, List.length_cons, Nat.succ_mul,
      Nat.add_comm]

theorem take_flatMap_width (rows : List α) (count : Nat) :
    (rows.flatMap cells).take (count * width) = (rows.take count).flatMap cells := by
  induction rows generalizing count with
  | nil => simp
  | cons row rest ih =>
    cases count with
    | zero => simp
    | succ count =>
      rw [List.flatMap_cons, List.take_succ_cons, List.flatMap_cons, Nat.succ_mul, Nat.add_comm, ← wide row,
        List.take_length_add_append, wide row, ih]

theorem drop_flatMap_width (rows : List α) (count : Nat) :
    (rows.flatMap cells).drop (count * width) = (rows.drop count).flatMap cells := by
  induction rows generalizing count with
  | nil => simp
  | cons row rest ih =>
    cases count with
    | zero => simp
    | succ count =>
      rw [List.flatMap_cons, List.drop_succ_cons, Nat.succ_mul, Nat.add_comm, ← wide row,
        List.drop_length_add_append, wide row, ih]

theorem cells_of_place {rows : List α} {place : Nat} {row : α} (stands : rows[place]? = some row) :
    ((rows.flatMap cells).drop (place * width)).take width = cells row := by
  obtain ⟨inside, rfl⟩ := List.getElem?_eq_some_iff.mp stands
  rw [drop_flatMap_width wide, List.drop_eq_getElem_cons inside, List.flatMap_cons, ← wide rows[place],
    List.take_left]

theorem chunks_flatMap_width (positive : 0 < width) (rows : List α) :
    chunks width (rows.flatMap cells) = rows.map cells := by
  have cut (fuel : Nat) (enough : (rows.flatMap cells).length ≤ fuel) :
      chunksWithin width fuel (rows.flatMap cells) = rows.map cells := by
    induction rows generalizing fuel with
    | nil => cases fuel <;> rfl
    | cons row rest ih =>
      rw [List.flatMap_cons, List.length_append, wide] at enough
      obtain ⟨fuel, rfl⟩ := Nat.exists_eq_succ_of_ne_zero (show fuel ≠ 0 by omega)
      cases first : cells row with
      | nil => exact absurd (wide row) (by simp [first]; omega)
      | cons cell others =>
        have whole : cell :: others = cells row := first.symm
        rw [List.flatMap_cons, first, List.cons_append, chunksWithin, List.map_cons, ← List.cons_append, whole]
        have firstCells : (cells row ++ rest.flatMap cells).take width = cells row := by
          rw [← wide row, List.take_left]
        have laterCells : (cells row ++ rest.flatMap cells).drop width = rest.flatMap cells := by
          rw [← wide row, List.drop_left]
        rw [firstCells, laterCells, ih fuel (by omega)]
  exact cut _ (Nat.le_refl _)

end

end Buffers

/-! ## Maps and sorted lists -/

section Lookups

variable {κ δ β : Type} [BEq κ] [LawfulBEq κ] {entries : List (κ × δ)}

section

variable (unique : (entries.map Prod.fst).Nodup)
include unique

theorem lookup_read (selected : κ → Bool) (read : δ → Option β) (key : κ) :
    ((entries.filter fun entry => selected entry.1).filterMap fun entry =>
      (read entry.2).map fun value => (entry.1, value)).lookup key =
      if selected key then (entries.lookup key).bind read else none := by
  induction entries with
  | nil => simp
  | cons entry rest ih =>
    obtain ⟨other, held⟩ := entry
    obtain ⟨fresh, unique⟩ := List.nodup_cons.mp unique
    have later := ih unique
    by_cases same : key = other
    · subst same
      -- no later entry has this key
      have absent : rest.lookup key = none := by
        rw [List.lookup_eq_none_iff]
        intro entry member
        have differs : key ≠ entry.1 := fun equal => fresh (List.mem_map.mpr ⟨entry, member, equal.symm⟩)
        simpa using differs
      rw [absent, Option.bind_none, ite_self] at later
      cases chosen : selected key with
      | false => simpa [chosen] using later
      | true => cases value : read held <;> simp [chosen, value, later]
    · have differs : (key == other) = false := by simpa using same
      cases chosen : selected other with
      | false => simpa [chosen, List.lookup_cons, differs] using later
      | true => cases value : read held <;> simpa [chosen, value, List.lookup_cons, differs] using later

theorem lookup_mapValues (read : δ → Option β) (key : κ) :
    (entries.filterMap fun entry => (read entry.2).map fun value => (entry.1, value)).lookup key =
      (entries.lookup key).bind read := by
  simpa using lookup_read unique (fun _ => true) read key

omit [BEq κ] [LawfulBEq κ] in
theorem nodup_read {γ : Type} {read : κ × δ → Option γ} {key : γ → κ}
    (kept : ∀ entry made, read entry = some made → key made = entry.1) :
    ((entries.filterMap read).map key).Nodup := by
  refine unique.sublist ?_
  clear unique
  induction entries with
  | nil => exact .slnil
  | cons entry rest ih =>
    cases held : read entry with
    | none => simpa [held] using ih.cons entry.1
    | some made => simpa [held, kept entry made held] using ih

end

theorem lookup_filter_ne {key other : κ} (differs : other ≠ key) :
    (entries.filter fun entry => entry.1 != key).lookup other = entries.lookup other := by
  induction entries with
  | nil => rfl
  | cons entry rest ih =>
    obtain ⟨held, value⟩ := entry
    by_cases same : held = key
    · subst same
      have apart : (other == held) = false := by simpa using differs
      simpa [List.lookup_cons, apart] using ih
    · by_cases found : other = held
      · subst found
        simp [same]
      · have apart : (other == held) = false := by simpa using found
        simpa [same, List.lookup_cons, apart] using ih

theorem nodup_keyed {names : List String} (unique : names.Nodup) (read : String → Option β) :
    ((names.filterMap fun name => (read name).map fun value => (name, value)).map Prod.fst).Nodup := by
  refine unique.sublist ?_
  induction names with
  | nil => exact .slnil
  | cons name rest ih =>
    have later := ih (List.nodup_cons.mp unique).2
    cases held : read name with
    | none => simpa [held] using later.cons name
    | some value => simpa [held] using later

end Lookups

section Sorting

variable {β : Type} (r : β → β → Prop) [DecidableRel r] [IsTrans β r]

theorem filter_orderedInsert (keep : β → Bool) (item : β) {items : List β} (sorted : items.Pairwise r) :
    (items.orderedInsert r item).filter keep =
      if keep item then (items.filter keep).orderedInsert r item else items.filter keep := by
  induction items with
  | nil => cases kept : keep item <;> simp [kept]
  | cons first rest ih =>
    obtain ⟨least, sorted⟩ := List.pairwise_cons.mp sorted
    have later := ih sorted
    by_cases before : r item first
    · rw [List.orderedInsert_cons_of_le r rest before]
      cases kept : keep item with
      | false => simp [kept]
      | true =>
        -- what is kept of a sorted list comes after its first element
        have smallest : ∀ other ∈ (first :: rest).filter keep, r item other := by
          intro other member
          rcases List.mem_cons.mp (List.mem_filter.mp member).1 with rfl | inRest
          · exact before
          · exact IsTrans.trans _ _ _ before (least other inRest)
        rw [if_pos rfl, List.filter_cons_of_pos kept]
        cases held : (first :: rest).filter keep with
        | nil => rfl
        | cons other others =>
          rw [List.orderedInsert_cons_of_le r others (smallest other (held ▸ List.mem_cons_self))]
    · rw [List.orderedInsert_of_not_le r rest before]
      cases keptFirst : keep first with
      | false => simpa [keptFirst] using later
      | true =>
        rw [List.filter_cons_of_pos keptFirst, List.filter_cons_of_pos keptFirst, later]
        split
        · rw [List.orderedInsert_of_not_le r _ before]
        · rfl

theorem filter_insertionSort [Std.Total r] (keep : β → Bool) (items : List β) :
    (items.insertionSort r).filter keep = (items.filter keep).insertionSort r := by
  induction items with
  | nil => rfl
  | cons item rest ih =>
    rw [List.insertionSort_cons, filter_orderedInsert r keep item (List.pairwise_insertionSort r rest),
      ih]
    cases kept : keep item <;> simp [kept]

end Sorting

end Boom.Foundations
