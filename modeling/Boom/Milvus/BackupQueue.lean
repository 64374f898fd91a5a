import Boom.Foundations.TopKept
import Boom.Milvus.Sink
import Mathlib.Data.List.Induction

/-! # The backup queue in Valkey

The queue that all workers share is two keys of a store: a hash of the encoded rows by object,
and a sorted set of the objects by julian date.  Two scripts change them, each in one step.
Here they are shown to stay in step, and to hold what a queue of rows does. -/

namespace Boom.Milvus

open Boom.Foundations

/-- How rows are stored. -/
structure RowCodec (β : Type) where
  encodeToVec : EmbeddingRow → β
  decode : β → Option EmbeddingRow
  decode_encode : ∀ row, decode (encodeToVec row) = some row

structure ScriptLimits where
  /-- The most values `unpack` returns. -/
  unpackMost : Nat
  /-- The largest whole number that is still one as an argument of a command. -/
  numberMost : Nat
  /-- The chunks of the eviction are small enough. -/
  chunk : 1000 ≤ unpackMost

/-- The two keys. -/
structure Backup (β : Type) where
  hash : String → Option β
  /-- The members of the sorted set with their scores, in any order. -/
  index : List (String × F64)

namespace BackupQueue

variable {β : Type}

def empty : Backup β where
  hash := fun _ => none
  index := []

/-! ## Commands -/

def entry (row : EmbeddingRow) : String × F64 :=
  (row.objectId, row.jd)

def beforeEntry (first second : String × F64) : Prop :=
  first.2.rank < second.2.rank ∨ (first.2.rank = second.2.rank ∧ first.1 ≤ second.1)

instance : DecidableRel beforeEntry := fun _ _ => inferInstanceAs (Decidable (_ ∨ _))

def greater (item held : String × F64) : Bool :=
  decide (held.2.rank < item.2.rank)

def zaddGtCh (index : List (String × F64)) (score : F64) (member : String) : List (String × F64) × Bool :=
  (putNewest Prod.fst greater index (member, score), (index.find? (·.1 == member)).all (greater (member, score)))

def upTo (count : Nat) (stop : Int) : Nat :=
  (if stop < 0 then stop + count + 1 else stop + 1).toNat

def zrange (index : List (String × F64)) (stop : Int) : List (String × F64) :=
  (index.insertionSort beforeEntry).take (upTo index.length stop)

def zremrangebyrank (index : List (String × F64)) (stop : Int) : List (String × F64) :=
  (index.insertionSort beforeEntry).drop (upTo index.length stop)

def hset (hash : String → Option β) (field : String) (value : β) : String → Option β :=
  Function.update hash field (some value)

def hdel (hash : String → Option β) (fields : List String) : String → Option β :=
  fun field => if field ∈ fields then none else hash field

def hmget (hash : String → Option β) (fields : List String) : List (Option β) :=
  fields.map hash

/-! ## Scripts

A script that fails keeps what it has done so far. -/

section

variable (limits : ScriptLimits) (codec : RowCodec β)

def unpack {α : Type} (values : List α) : Option (List α) :=
  if values.length ≤ limits.unpackMost then some values else none

def pushRow (queue : Backup β) (row : EmbeddingRow) : Backup β :=
  let added := zaddGtCh queue.index row.jd row.objectId
  { hash := if added.2 then hset queue.hash row.objectId (codec.encodeToVec row) else queue.hash
    index := added.1 }

def hdelChunks (stale : List String) : List Nat → Backup β → Option Unit × Backup β
  | [], queue => (some (), queue)
  | j :: rest, queue =>
    match unpack limits ((stale.drop j).take 1000) with
    | none => (none, queue)
    | some fields => hdelChunks stale rest { queue with hash := hdel queue.hash fields }

def chunkStarts (count : Nat) : List Nat :=
  (List.range ((count + 999) / 1000)).map (1000 * ·)

/-- `PUSH`, with the number of members left. -/
def pushScript (maxRows : Nat) (rows : List EmbeddingRow) (queue : Backup β) : Option Nat × Backup β :=
  let put := rows.foldl (pushRow codec) queue
  let surplus : Int := put.index.length - maxRows
  if 0 < surplus then
    let stale := (zrange put.index (surplus - 1)).map Prod.fst
    let left := hdelChunks limits stale (chunkStarts stale.length) { put with index := zremrangebyrank put.index (surplus - 1) }
    (left.1.map fun _ => left.2.index.length, left.2)
  else (some put.index.length, put)

/-- `TAKE` -/
def takeScript (count : Nat) (queue : Backup β) : Option (List (Option β)) × Backup β :=
  if limits.numberMost < count then (none, queue)
  else
    let members := (zrange queue.index (count - 1)).map Prod.fst
    if members.isEmpty then (some [], queue)
    else
      match unpack limits members with
      | none => (none, queue)
      | some fields =>
        (some (hmget queue.hash fields),
          { hash := hdel queue.hash fields, index := zremrangebyrank queue.index (members.length - 1) })

/-! ## Calls -/

def pending (queue : Backup β) : Nat :=
  queue.index.length

def push (maxRows : Nat) (rows : List EmbeddingRow) (queue : Backup β) : Option Nat × Backup β :=
  let queued := rows.filter fun row => !row.jd.isNan
  if queued.isEmpty then (some (pending queue), queue) else pushScript limits codec maxRows queued queue

def decode (bytes : β) : Option EmbeddingRow :=
  (codec.decode bytes).bind Milvus.decode

def take (max : Nat) (queue : Backup β) : Option (List EmbeddingRow) × Backup β :=
  if max = 0 then (some [], queue)
  else
    let taken := takeScript limits max queue
    (taken.1.map fun raw => raw.filterMap fun bytes => bytes.bind (decode codec), taken.2)

end

/-! ## A queue of rows

Each row is one field of the hash and one member of the set. -/

structure Represents (codec : RowCodec β) (queue : Backup β) (rows : List EmbeddingRow) : Prop where
  index : queue.index = rows.map entry
  fields : ∀ objectId, queue.hash objectId = (rows.find? (EmbeddingRow.objectId · = objectId)).map codec.encodeToVec
  apart : (rows.map EmbeddingRow.objectId).Nodup

section

variable {limits : ScriptLimits} {codec : RowCodec β} {queue : Backup β} {rows : List EmbeddingRow}

theorem represents_empty : Represents codec empty [] where
  index := rfl
  fields := fun _ => rfl
  apart := List.nodup_nil

section

variable (represents : Represents codec queue rows)
include represents

theorem length_index : queue.index.length = rows.length := by
  rw [represents.index, List.length_map]

theorem sorted_index :
    queue.index.insertionSort beforeEntry = (rows.insertionSort before).map entry := by
  rw [represents.index]
  exact (List.map_insertionSort before beforeEntry entry rows fun _ _ _ _ => Iff.rfl).symm

theorem zrange_eq (stop : Int) :
    zrange queue.index stop = ((rows.insertionSort before).take (upTo rows.length stop)).map entry := by
  rw [zrange, sorted_index represents, length_index represents, List.map_take]

theorem zremrangebyrank_eq (stop : Int) :
    zremrangebyrank queue.index stop = ((rows.insertionSort before).drop (upTo rows.length stop)).map entry := by
  rw [zremrangebyrank, sorted_index represents, length_index represents, List.map_drop]

theorem hash_of_mem {row : EmbeddingRow} (there : row ∈ rows) :
    queue.hash row.objectId = some (codec.encodeToVec row) := by
  rw [represents.fields, find?_of_mem represents.apart there, Option.map_some]

theorem represents_drop (count : Nat) :
    Represents codec
      { hash := hdel queue.hash (((rows.insertionSort before).take count).map EmbeddingRow.objectId)
        index := ((rows.insertionSort before).drop count).map entry }
      ((rows.insertionSort before).drop count) := by
  have perm : (rows.insertionSort before).Perm rows := List.perm_insertionSort before rows
  have apart : ((rows.insertionSort before).map EmbeddingRow.objectId).Nodup := (perm.map _).nodup_iff.mpr represents.apart
  have parts : (rows.insertionSort before).take count ++ (rows.insertionSort before).drop count = rows.insertionSort before :=
    List.take_append_drop _ _
  rw [← parts, List.map_append] at apart
  obtain ⟨-, apartLeft, disjoint⟩ := List.nodup_append'.mp apart
  refine ⟨rfl, fun objectId => ?_, apartLeft⟩
  simp only [hdel]
  split
  next deleted =>
    have gone : ((rows.insertionSort before).drop count).find? (EmbeddingRow.objectId · = objectId) = none := by
      rw [List.find?_eq_none]
      intro row left same
      exact disjoint deleted (List.mem_map.mpr ⟨row, left, by simpa using same⟩)
    rw [gone, Option.map_none]
  next stays =>
    by_cases left : ∃ row ∈ (rows.insertionSort before).drop count, row.objectId = objectId
    · obtain ⟨row, left, rfl⟩ := left
      rw [find?_of_mem apartLeft left, hash_of_mem represents (perm.mem_iff.mp (List.mem_of_mem_drop left)), Option.map_some]
    · have absent : ∀ row ∈ rows, row.objectId ≠ objectId := by
        rintro row there rfl
        rw [← perm.mem_iff, ← parts, List.mem_append] at there
        exact there.elim (fun deleted => stays (List.mem_map_of_mem deleted)) fun there => left ⟨row, there, rfl⟩
      rw [represents.fields, List.find?_eq_none.mpr fun row there => by simpa using absent row there,
        List.find?_eq_none.mpr fun row there => by
          simpa using absent row (perm.mem_iff.mp (List.mem_of_mem_drop there))]

theorem represents_pushRow (row : EmbeddingRow) :
    Represents codec (pushRow codec queue row) (putNewest EmbeddingRow.objectId raisesScore rows row) where
  index := by
    rw [pushRow, zaddGtCh, represents.index]
    exact (map_putNewest (fun _ => rfl) fun _ _ => rfl).symm
  apart := nodup_putNewest represents.apart
  fields := by
    intro objectId
    have held : queue.index.find? (·.1 == row.objectId) = (rows.find? (EmbeddingRow.objectId · = row.objectId)).map entry := by
      rw [represents.index, List.find?_map]
      rfl
    have changed : (zaddGtCh queue.index row.jd row.objectId).2 =
        (rows.find? (EmbeddingRow.objectId · = row.objectId)).all (raisesScore row) := by
      rw [zaddGtCh, held, Option.all_map]
      rfl
    rw [find?_putNewest, pushRow, changed]
    by_cases same : row.objectId = objectId
    · subst same
      by_cases raised : (rows.find? (EmbeddingRow.objectId · = row.objectId)).all (raisesScore row) = true
      · simp [raised, hset]
      · simp only [raised, if_false, and_false, Bool.false_eq_true]
        exact represents.fields _
    · simp only [same, false_and, if_false]
      rw [← represents.fields objectId]
      split
      · exact Function.update_of_ne (Ne.symm same) _ _
      · rfl

theorem represents_putAll (batch : List EmbeddingRow) :
    Represents codec (batch.foldl (pushRow codec) queue) (batch.foldl (putNewest EmbeddingRow.objectId raisesScore) rows) := by
  induction batch generalizing queue rows with
  | nil => exact represents
  | cons row rest ih => exact ih (represents_pushRow represents row)

end

theorem hdel_hdel (hash : String → Option β) (first second : List String) :
    hdel (hdel hash first) second = hdel hash (first ++ second) := by
  funext field
  simp only [hdel, List.mem_append]
  by_cases inFirst : field ∈ first <;> simp [inFirst]

theorem hdelChunks_eq (stale : List String) (starts : List Nat) (queue : Backup β) :
    hdelChunks limits stale starts queue =
      (some (), { queue with hash := hdel queue.hash (starts.flatMap fun j => (stale.drop j).take 1000) }) := by
  induction starts generalizing queue with
  | nil =>
    have same : hdel queue.hash [] = queue.hash := funext fun _ => if_neg List.not_mem_nil
    rw [hdelChunks, List.flatMap_nil, same]
  | cons j rest ih =>
    have small : ((stale.drop j).take 1000).length ≤ limits.unpackMost := (List.length_take_le _ _).trans limits.chunk
    rw [hdelChunks, unpack, if_pos small, List.flatMap_cons]
    simp only [ih, hdel_hdel]

theorem hdel_chunks (hash : String → Option β) (stale : List String) :
    hdel hash ((chunkStarts stale.length).flatMap fun j => (stale.drop j).take 1000) = hdel hash stale := by
  have same (field : String) : field ∈ (chunkStarts stale.length).flatMap (fun j => (stale.drop j).take 1000) ↔ field ∈ stale := by
    simp only [List.mem_flatMap, chunkStarts, List.mem_map, List.mem_range]
    constructor
    · rintro ⟨_, -, there⟩
      exact List.mem_of_mem_drop (List.mem_of_mem_take there)
    · intro there
      obtain ⟨place, inside, rfl⟩ := List.getElem_of_mem there
      refine ⟨1000 * (place / 1000), ⟨place / 1000, by omega, rfl⟩, ?_⟩
      refine List.mem_iff_getElem.mpr ⟨place % 1000, ?_, ?_⟩
      · rw [List.length_take, List.length_drop]
        omega
      · rw [List.getElem_take, List.getElem_drop]
        congr 1
        omega
  funext field
  simp only [hdel, same]

theorem upTo_of_pos (held : Nat) {count : Nat} (positive : 0 < count) : upTo held ((count : Int) - 1) = count := by
  rw [upTo, if_neg (by omega)]
  omega

section

variable (represents : Represents codec queue rows)
include represents

theorem represents_push {maxRows : Nat} (few : rows.length ≤ maxRows) (batch : List EmbeddingRow) :
    (push limits codec maxRows batch queue).1 = some (Milvus.push maxRows rows batch).length ∧
      Represents codec (push limits codec maxRows batch queue).2 (Milvus.push maxRows rows batch) := by
  unfold push
  dsimp only
  split
  next none_ =>
    have same : Milvus.push maxRows rows batch = rows := by
      rw [Milvus.push, putAll, List.isEmpty_iff.mp none_, List.foldl_nil, if_pos few]
    rw [same]
    exact ⟨congrArg some (length_index represents), represents⟩
  next =>
    have put := represents_putAll represents (batch.filter fun row => !row.jd.isNan)
    have length := length_index put
    unfold pushScript Milvus.push
    rw [← putAll] at put length
    dsimp only
    rw [length]
    by_cases surplus : (putAll rows batch).length ≤ maxRows
    · rw [if_neg (by omega), if_pos surplus]
      exact ⟨rfl, put⟩
    · have count : ((putAll rows batch).length : Int) - maxRows - 1 = (((putAll rows batch).length - maxRows : Nat) : Int) - 1 := by
        omega
      rw [if_pos (by omega), if_neg surplus, hdelChunks_eq, hdel_chunks, zrange_eq put, zremrangebyrank_eq put, count,
        upTo_of_pos _ (by omega), List.map_map]
      have left := represents_drop put ((putAll rows batch).length - maxRows)
      exact ⟨congrArg some (length_index left), left⟩

theorem represents_take {max : Nat} (isNumber : max ≤ limits.numberMost)
    (unpacks : min max rows.length ≤ limits.unpackMost) :
    (take limits codec max queue).1 = some (Milvus.take max rows).1 ∧
      ∃ left, left.Perm (Milvus.take max rows).2 ∧ Represents codec (take limits codec max queue).2 left := by
  have perm : (rows.insertionSort before).Perm rows := List.perm_insertionSort before rows
  unfold take
  split
  next none_ =>
    subst none_
    exact ⟨by simp [Milvus.take], rows, perm.symm, represents⟩
  next some_ =>
    have members : zrange queue.index ((max : Int) - 1) = ((rows.insertionSort before).take max).map entry := by
      rw [zrange_eq represents, upTo_of_pos _ (Nat.pos_of_ne_zero some_)]
    unfold takeScript
    rw [if_neg (by omega), members]
    dsimp only
    by_cases nothing : rows = []
    · subst nothing
      exact ⟨by simp [Milvus.take], [], by simp [Milvus.take], by simpa using represents⟩
    · have positive : 0 < rows.length := List.length_pos_iff.mpr nothing
      have length : ((rows.insertionSort before).take max).length = min max rows.length := by
        rw [List.length_take, perm.length_eq]
      have nonempty : ((((rows.insertionSort before).take max).map entry).map Prod.fst).isEmpty = false := by
        rw [← Bool.not_eq_true, List.isEmpty_iff_length_eq_zero, List.length_map, List.length_map, length]
        omega
      have unpacked : ((((rows.insertionSort before).take max).map entry).map Prod.fst).length ≤ limits.unpackMost := by
        rwa [List.length_map, List.length_map, length]
      have ranks : (((((rows.insertionSort before).take max).map entry).map Prod.fst).length : Int) - 1 =
          ((min max rows.length : Nat) : Int) - 1 := by
        rw [List.length_map, List.length_map, length]
      rw [nonempty, if_neg Bool.false_ne_true, unpack, if_pos unpacked]
      dsimp only
      rw [ranks, zremrangebyrank_eq represents, upTo_of_pos _ (by omega), List.map_map]
      have whole : (rows.insertionSort before).take max = (rows.insertionSort before).take (min max rows.length) := by
        rw [← perm.length_eq]
        exact List.take_eq_take_min
      have rest : (rows.insertionSort before).drop max = (rows.insertionSort before).drop (min max rows.length) := by
        rw [← perm.length_eq]
        exact List.drop_eq_drop_min
      refine ⟨?_, (rows.insertionSort before).drop (min max rows.length), by rw [Milvus.take, rest], ?_⟩
      · rw [Option.map_some, Milvus.take, hmget, List.map_map, List.filterMap_map]
        refine congrArg some (List.filterMap_congr fun row there => ?_)
        simp only [Function.comp, entry, hash_of_mem represents (perm.mem_iff.mp (List.mem_of_mem_take there)),
          Option.bind_some, decode, codec.decode_encode]
      · rw [whole]
        exact represents_drop represents _

theorem exists_represents_take (max : Nat) :
    ∃ left, left.Subperm rows ∧ Represents codec (take limits codec max queue).2 left := by
  by_cases can : max ≤ limits.numberMost ∧ min max rows.length ≤ limits.unpackMost
  · obtain ⟨-, left, same, leaves⟩ := represents_take represents can.1 can.2
    refine ⟨left, ?_, leaves⟩
    exact same.subperm.trans ((List.drop_sublist _ _).subperm.trans (List.perm_insertionSort before rows).subperm)
  · refine ⟨rows, .refl rows, ?_⟩
    unfold take
    split
    next => exact represents
    next some_ =>
      unfold takeScript
      dsimp only
      split
      next => exact represents
      next isNumber =>
        have fails : ¬ ((zrange queue.index ((max : Int) - 1)).map Prod.fst).length ≤ limits.unpackMost := by
          rw [zrange_eq represents, upTo_of_pos _ (Nat.pos_of_ne_zero some_), List.length_map, List.length_map,
            List.length_take, List.length_insertionSort]
          exact fun unpacks => can ⟨Nat.not_lt.mp isNumber, unpacks⟩
        split
        next => exact represents
        next =>
          rw [unpack, if_neg fails]
          exact represents

end

end

/-! ## Runs -/

def heldRows (codec : RowCodec β) (queue : Backup β) : List EmbeddingRow :=
  (zrange queue.index (-1)).filterMap fun member => (queue.hash member.1).bind codec.decode

def jdRank (row : EmbeddingRow) : Int :=
  row.jd.rank

inductive QueueCall where
  | push (rows : List EmbeddingRow)
  | take (max : Nat)

def QueueCall.pushed : QueueCall → List EmbeddingRow
  | .push rows => rows
  | .take _ => []

def QueueCall.isPush : QueueCall → Bool
  | .push _ => true
  | .take _ => false

def pushedRows (calls : List QueueCall) : List EmbeddingRow :=
  calls.flatMap QueueCall.pushed

def answer (limits : ScriptLimits) (codec : RowCodec β) (maxRows : Nat) (queue : Backup β) : QueueCall → Backup β
  | .push rows => (push limits codec maxRows rows queue).2
  | .take max => (take limits codec max queue).2

def run (limits : ScriptLimits) (codec : RowCodec β) (maxRows : Nat) (calls : List QueueCall) : Backup β :=
  calls.foldl (answer limits codec maxRows) empty

structure DistinctJds (pushed : List EmbeddingRow) : Prop where
  known : ∀ row ∈ pushed, row.jd.isNan = false
  distinct : (pushed.map jdRank).Nodup

structure InStep (codec : RowCodec β) (maxRows : Nat) (queue : Backup β) : Prop where
  apart : (queue.index.map Prod.fst).Nodup
  sameKeys : ∀ objectId, (queue.hash objectId).isSome = true ↔ objectId ∈ queue.index.map Prod.fst
  few : queue.index.length ≤ maxRows
  scored : (heldRows codec queue).map entry = zrange queue.index (-1)

structure TakesLowest (limits : ScriptLimits) (codec : RowCodec β) (max : Nat) (queue : Backup β) : Prop where
  ascending : (heldRows codec queue).Pairwise fun first second => jdRank first < jdRank second
  returned : (take limits codec max queue).1 = some (((heldRows codec queue).take max).filterMap Milvus.decode)
  removed : heldRows codec (take limits codec max queue).2 = (heldRows codec queue).drop max

section

variable {limits : ScriptLimits} {codec : RowCodec β} {queue : Backup β} {held : List EmbeddingRow} {maxRows : Nat}

instance : Std.Total before where
  total first second := by
    rcases lt_trichotomy first.jd.rank second.jd.rank with lower | same | higher
    · exact .inl (.inl lower)
    · exact (String.le_total first.objectId second.objectId).imp (fun le => .inr ⟨same, le⟩) fun le => .inr ⟨same.symm, le⟩
    · exact .inr (.inl higher)

instance : IsTrans EmbeddingRow before where
  trans first second third := by
    rintro (lower | ⟨same, le⟩) (lower' | ⟨same', le'⟩)
    · exact .inl (lower.trans lower')
    · exact .inl (same' ▸ lower)
    · exact .inl (same ▸ lower')
    · exact .inr ⟨same.trans same', String.le_trans le le'⟩

theorem heldRows_eq (represents : Represents codec queue held) : heldRows codec queue = held.insertionSort before := by
  have all : upTo held.length (-1) = held.length := by
    rw [upTo, if_pos (by omega)]
    omega
  rw [heldRows, zrange_eq represents, all, List.take_of_length_le (List.length_insertionSort _ _).le, List.filterMap_map]
  calc (held.insertionSort before).filterMap _ = (held.insertionSort before).filterMap some := by
        refine List.filterMap_congr fun row there => ?_
        simp only [Function.comp, entry, hash_of_mem represents ((List.mem_insertionSort before).mp there), Option.bind_some,
          codec.decode_encode]
    _ = held.insertionSort before := List.filterMap_some

theorem inStep_of_represents (represents : Represents codec queue held) (few : held.length ≤ maxRows) :
    InStep codec maxRows queue where
  apart := by
    rw [represents.index, List.map_map]
    exact represents.apart
  sameKeys := by
    intro objectId
    rw [represents.fields, Option.isSome_map, List.find?_isSome, represents.index, List.map_map, List.mem_map]
    simp only [decide_eq_true_eq]
    rfl
  few := by rwa [length_index represents]
  scored := by
    have all : upTo held.length (-1) = held.length := by
      rw [upTo, if_pos (by omega)]
      omega
    rw [heldRows_eq represents, zrange_eq represents, all, List.take_of_length_le (List.length_insertionSort _ _).le]

theorem length_push_le (queue batch : List EmbeddingRow) : (Milvus.push maxRows queue batch).length ≤ maxRows := by
  unfold Milvus.push
  split
  next few => exact few
  next => rw [List.length_drop, List.length_insertionSort]; omega

theorem exists_represents (calls : List QueueCall) : ∃ held, Represents codec (run limits codec maxRows calls) held ∧
    held.length ≤ maxRows ∧ ∀ row ∈ held, row ∈ pushedRows calls := by
  induction calls using List.reverseRecOn with
  | nil => exact ⟨[], represents_empty, Nat.zero_le _, fun _ none_ => absurd none_ List.not_mem_nil⟩
  | append_singleton calls call ih =>
    obtain ⟨held, represents, few, among⟩ := ih
    have already : ∀ row ∈ held, row ∈ pushedRows (calls ++ [call]) := fun row there => by
      rw [pushedRows, List.flatMap_append]
      exact List.mem_append_left _ (among row there)
    rw [run, List.foldl_append, List.foldl_cons, List.foldl_nil]
    cases call with
    | push batch =>
      refine ⟨_, (represents_push represents few batch).2, length_push_le held batch, fun row there => ?_⟩
      have put : row ∈ putAll held batch := by
        unfold Milvus.push at there
        split at there
        next => exact there
        next => exact (List.mem_insertionSort before).mp (List.mem_of_mem_drop there)
      rcases mem_of_mem_foldl_putNewest put with before | now
      · exact already row before
      · rw [pushedRows, List.flatMap_append]
        exact List.mem_append_right _ (by simpa [QueueCall.pushed] using (List.mem_filter.mp now).1)
    | take max =>
      obtain ⟨left, sub, leaves⟩ := exists_represents_take represents max
      exact ⟨left, leaves, sub.length_le.trans few, fun row there => already row (sub.subset there)⟩

theorem ascending_of_distinct {pushed : List EmbeddingRow} (distinct : DistinctJds pushed)
    (apart : (held.map EmbeddingRow.objectId).Nodup) (among : ∀ row ∈ held, row ∈ pushed) :
    (held.insertionSort before).Pairwise fun first second => jdRank first < jdRank second := by
  have perm := List.perm_insertionSort before held
  have nodup : (held.insertionSort before).Nodup := perm.nodup_iff.mpr (List.Nodup.of_map _ apart)
  refine List.Pairwise.imp_of_mem (fun {first second} there there' low => ?_)
    (List.Pairwise.and (List.pairwise_insertionSort before held) nodup)
  refine low.1.resolve_right fun same => low.2 ?_
  exact List.inj_on_of_nodup_map distinct.distinct (among first (perm.mem_iff.mp there)) (among second (perm.mem_iff.mp there'))
    same.1

theorem exists_tops {calls : List QueueCall} (distinct : DistinctJds (pushedRows calls))
    (pushes : ∀ call ∈ calls, call.isPush = true) : ∃ held, Represents codec (run limits codec maxRows calls) held ∧
    held.length ≤ maxRows ∧ Tops EmbeddingRow.objectId jdRank maxRows (pushedRows calls) held := by
  induction calls using List.reverseRecOn with
  | nil => exact ⟨[], represents_empty, Nat.zero_le _, tops_nil⟩
  | append_singleton calls call ih =>
    have pushedAll : pushedRows (calls ++ [call]) = pushedRows calls ++ call.pushed := by
      rw [pushedRows, List.flatMap_append, List.flatMap_singleton, pushedRows]
    rw [pushedAll] at distinct ⊢
    have earlier : DistinctJds (pushedRows calls) := ⟨fun row there => distinct.known row (List.mem_append_left _ there),
      distinct.distinct.sublist ((List.sublist_append_left _ _).map _)⟩
    obtain ⟨held, represents, few, tops⟩ := ih earlier fun call there => pushes call (List.mem_append_left _ there)
    rw [run, List.foldl_append, List.foldl_cons, List.foldl_nil]
    cases call with
    | take max => cases pushes (.take max) (by simp)
    | push batch =>
      refine ⟨_, (represents_push represents few batch).2, length_push_le held batch, ?_⟩
      have known : (batch.filter fun row => !row.jd.isNan) = batch :=
        List.filter_eq_self.mpr fun row there => by
          rw [distinct.known row (List.mem_append_right _ there)]
          rfl
      have put : Tops EmbeddingRow.objectId jdRank maxRows (pushedRows calls ++ batch) (putAll held batch) := by
        rw [putAll, known]
        exact tops_putAll tops batch
      rw [Milvus.push, QueueCall.pushed]
      split
      next => exact put
      next =>
        have perm := List.perm_insertionSort before (putAll held batch)
        have dropped := tops_drop (put.perm perm.symm) (ascending_of_distinct distinct put.apart put.among)
        rwa [perm.length_eq] at dropped

/-- The two keys stay in step and within the capacity, a take removes the rows of the lowest julian
    dates, and what pushes alone leave are the objects with the highest, each with its newest row. -/
theorem holds_topmost (limits : ScriptLimits) (codec : RowCodec β) (maxRows : Nat) {calls : List QueueCall}
    (distinct : DistinctJds (pushedRows calls)) :
    InStep codec maxRows (run limits codec maxRows calls) ∧
      (∀ max, max ≤ limits.numberMost → min max (run limits codec maxRows calls).index.length ≤ limits.unpackMost →
        TakesLowest limits codec max (run limits codec maxRows calls)) ∧
      ((∀ call ∈ calls, call.isPush = true) → (heldRows codec (run limits codec maxRows calls)).Perm
        (topmost EmbeddingRow.objectId jdRank maxRows (pushedRows calls))) := by
  obtain ⟨held, represents, few, among⟩ := @exists_represents _ limits codec maxRows calls
  have sorted := ascending_of_distinct distinct represents.apart among
  refine ⟨inStep_of_represents represents few, fun max isNumber unpacks => ?_, fun pushes => ?_⟩
  · rw [length_index represents] at unpacks
    obtain ⟨returned, left, same, leaves⟩ := represents_take represents isNumber unpacks
    constructor
    case ascending => rwa [heldRows_eq represents]
    case returned => rw [returned, heldRows_eq represents, Milvus.take]
    case removed =>
      rw [heldRows_eq leaves, heldRows_eq represents]
      -- What is left is in the order already.
      have leftAmong : ∀ row ∈ left, row ∈ pushedRows calls := fun row there =>
        among row ((List.mem_insertionSort before).mp (List.mem_of_mem_drop (same.mem_iff.mp there)))
      refine List.Perm.eq_of_pairwise (fun first second _ _ low high => absurd (low.trans high) (lt_irrefl _))
        (ascending_of_distinct distinct leaves.apart leftAmong) (sorted.sublist (List.drop_sublist _ _)) ?_
      exact (List.perm_insertionSort before left).trans same
  · obtain ⟨held, represents, few, tops⟩ := @exists_tops _ limits codec maxRows calls distinct pushes
    rw [heldRows_eq represents]
    refine (List.perm_insertionSort before held).trans ((List.perm_ext_iff_of_nodup ?_ ?_).mpr ?_)
    · exact List.Nodup.of_map _ represents.apart
    · exact ((List.Nodup.of_map _ distinct.distinct).filter _).filter _
    · exact mem_held_iff tops few distinct.distinct

end

def asTheyAre : RowCodec EmbeddingRow where
  encodeToVec := id
  decode := some
  decode_encode := fun _ => rfl

def someLimits : ScriptLimits where
  unpackMost := 7999
  numberMost := 10 ^ 17 - 1
  chunk := by omega

def firstNight : EmbeddingRow := ⟨"ZTF1", [1], 1, ⟨0x3ff0000000000000⟩⟩

def secondNight : EmbeddingRow := ⟨"ZTF1", [2], 2, ⟨0x4000000000000000⟩⟩

def otherObject : EmbeddingRow := ⟨"ZTF2", [3], 3, ⟨0x4008000000000000⟩⟩

/-- Two objects for one place: the one that is seen again later stays behind. -/
theorem holds_topmost_one : (heldRows asTheyAre (run someLimits asTheyAre 1 [.push [otherObject, firstNight], .push [secondNight]])).Perm
    (topmost EmbeddingRow.objectId jdRank 1 [otherObject, firstNight, secondNight]) :=
  (holds_topmost someLimits asTheyAre 1 ⟨by decide, by decide⟩).2.2 (by decide)

/-- A row without an embedding is held, and not returned by the take that removes it. -/
theorem take_leaves_out_malformed :
    (heldRows asTheyAre (run someLimits asTheyAre 1 [.push [{ firstNight with embedding := [] }]])).length = 1 ∧
      (take someLimits asTheyAre 1 (run someLimits asTheyAre 1 [.push [{ firstNight with embedding := [] }]])).1 = some [] := by
  decide

end BackupQueue

end Boom.Milvus
