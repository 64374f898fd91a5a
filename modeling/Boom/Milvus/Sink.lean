import Boom.Foundations.Double
import Boom.Foundations.Newest
import Boom.Foundations.Transition
import Mathlib.Data.List.Sort

/-! # Storing embeddings

Enrichment workers hand batches of embeddings to their sink.  A batch is reduced to the
newest row of each object, the stored julian dates of these objects are read, and the rows
that are newer are written.  What cannot be written waits in a queue that all workers share,
one row for each object, until some worker replays it.

The queue's hash and its sorted set are written by one script: an entry is a row, its member
the object and its score the julian date. -/

namespace Boom.Milvus

open Boom.Foundations

structure EmbeddingRow where
  objectId : String
  embedding : List (BitVec 32)
  candid : Int
  jd : F64
deriving DecidableEq

structure MilvusConfig where
  dim : Nat
  drainRows : Nat
  maxRows : Nat

/-! ## One upsert -/

def isNewerJd (jd storedJd : F64) : Bool :=
  decide (storedJd.totalRank < jd.totalRank)

def latestPerObject (rows : List EmbeddingRow) : List EmbeddingRow :=
  rows.foldl (putNewest EmbeddingRow.objectId fun row held => isNewerJd row.jd held.jd) []

def dropStale (rows : List EmbeddingRow) (stored : String → Option F64) : List EmbeddingRow :=
  rows.filter fun row =>
    match stored row.objectId with
    | some storedJd => isNewerJd row.jd storedJd
    | none => true

def upsertRows (collection : String → Option EmbeddingRow) (rows : List EmbeddingRow) :
    String → Option EmbeddingRow :=
  rows.foldl (fun held row => Function.update held row.objectId (some row)) collection

/-! ## The backup queue -/

def raisesScore (row held : EmbeddingRow) : Bool :=
  decide (held.jd.rank < row.jd.rank)

def before (first second : EmbeddingRow) : Prop :=
  first.jd.rank < second.jd.rank ∨ (first.jd.rank = second.jd.rank ∧ first.objectId ≤ second.objectId)

instance : DecidableRel before := fun _ _ => inferInstanceAs (Decidable (_ ∨ _))

def putAll (queue rows : List EmbeddingRow) : List EmbeddingRow :=
  (rows.filter fun row => !row.jd.isNan).foldl (putNewest EmbeddingRow.objectId raisesScore) queue

def push (maxRows : Nat) (queue rows : List EmbeddingRow) : List EmbeddingRow :=
  if (putAll queue rows).length ≤ maxRows then putAll queue rows
  else ((putAll queue rows).insertionSort before).drop ((putAll queue rows).length - maxRows)

def decode (row : EmbeddingRow) : Option EmbeddingRow :=
  if row.objectId = "" ∨ row.embedding = [] then none else some row

def take (max : Nat) (queue : List EmbeddingRow) : List EmbeddingRow × List EmbeddingRow :=
  (((queue.insertionSort before).take max).filterMap decode, (queue.insertionSort before).drop max)

/-! ## Workers -/

inductive Stage where
  | idle
  | reading (rows : List EmbeddingRow) (live : Bool)
  | upserting (rows fresh : List EmbeddingRow) (read : String → Option F64) (live : Bool)
  | buffering (rows : List EmbeddingRow)
  | draining

def Stage.succeed (live : Bool) : Stage :=
  if live then .draining else .idle

structure Sinks where
  collection : String → Option EmbeddingRow
  queue : List EmbeddingRow
  workers : List Stage
  handed : List EmbeddingRow

namespace Sinks

def storedJd (state : Sinks) (objectId : String) : Option F64 :=
  (state.collection objectId).map (·.jd)

def setStage (state : Sinks) (index : Nat) (stage : Stage) : Sinks :=
  { state with workers := state.workers.set index stage }

def afterRead (config : MilvusConfig) (state : Sinks) (rows : List EmbeddingRow) (live : Bool) : Stage :=
  let fresh := dropStale (latestPerObject rows) state.storedJd
  if fresh = [] then .succeed live
  else if fresh.all (·.embedding.length = config.dim) then .upserting rows fresh state.storedJd live
  else .buffering rows

inductive Step (config : MilvusConfig) : Sinks → Sinks → Prop where
  | upsert {state : Sinks} {index : Nat} {rows : List EmbeddingRow} :
      state.workers[index]? = some .idle → rows ≠ [] →
      Step config state { state.setStage index (.reading rows true) with handed := state.handed ++ rows }
  -- the breaker is open, or the connection cannot be rebuilt
  | turnAway {state : Sinks} {index : Nat} {rows : List EmbeddingRow} :
      state.workers[index]? = some .idle → rows ≠ [] →
      Step config state { state.setStage index (.buffering rows) with handed := state.handed ++ rows }
  | drainWhenIdle {state : Sinks} {index : Nat} : state.workers[index]? = some .idle →
      Step config state (state.setStage index .draining)
  | take {state : Sinks} {index : Nat} : state.workers[index]? = some .draining →
      Step config state { state.setStage index
          (if (take config.drainRows state.queue).1 = [] then .idle
            else .reading (take config.drainRows state.queue).1 false) with
        queue := (take config.drainRows state.queue).2 }
  | read {state : Sinks} {index : Nat} {rows : List EmbeddingRow} {live : Bool} :
      state.workers[index]? = some (.reading rows live) →
      Step config state (state.setStage index (state.afterRead config rows live))
  | readFails {state : Sinks} {index : Nat} {rows : List EmbeddingRow} {live : Bool} :
      state.workers[index]? = some (.reading rows live) →
      Step config state (state.setStage index (.buffering rows))
  | write {state : Sinks} {index : Nat} {rows fresh : List EmbeddingRow} {read : String → Option F64}
      {live : Bool} : state.workers[index]? = some (.upserting rows fresh read live) →
      Step config state { state.setStage index (.succeed live) with
        collection := upsertRows state.collection fresh }
  | writeFails {state : Sinks} {index : Nat} {rows fresh : List EmbeddingRow} {read : String → Option F64}
      {live : Bool} : state.workers[index]? = some (.upserting rows fresh read live) →
      Step config state (state.setStage index (.buffering rows))
  -- the rows are stored, and the answer is lost
  | writeUnanswered {state : Sinks} {index : Nat} {rows fresh : List EmbeddingRow}
      {read : String → Option F64} {live : Bool} :
      state.workers[index]? = some (.upserting rows fresh read live) →
      Step config state { state.setStage index (.buffering rows) with
        collection := upsertRows state.collection fresh }
  | buffer {state : Sinks} {index : Nat} {rows : List EmbeddingRow} :
      state.workers[index]? = some (.buffering rows) →
      (putAll state.queue rows).length ≤ config.maxRows →
      Step config state { state.setStage index .idle with queue := push config.maxRows state.queue rows }

def AtRest (state : Sinks) : Prop :=
  (∀ stage ∈ state.workers, stage = .idle) ∧ state.queue = []

def Newest (state : Sinks) : Prop :=
  ∀ row ∈ state.handed, ∃ held ∈ state.handed, state.collection row.objectId = some held ∧
    held.objectId = row.objectId ∧ ∀ other ∈ state.handed, other.objectId = row.objectId → other.jd.le held.jd = true

def NoneLower (state later : Sinks) : Prop :=
  ∀ objectId held, state.collection objectId = some held → ∃ now, later.collection objectId = some now ∧
    held.jd.le now.jd = true

def Undisturbed (state : Sinks) : Prop :=
  ∀ rows fresh read live, Stage.upserting rows fresh read live ∈ state.workers →
    ∀ row ∈ fresh, state.storedJd row.objectId = read row.objectId

end Sinks

def EmbeddingRow.Storable (row : EmbeddingRow) : Prop :=
  row.objectId ≠ "" ∧ row.embedding ≠ [] ∧ row.jd.isNan = false

/-- Nothing was handed over yet. -/
structure Starts (state : Sinks) : Prop where
  collection : ∀ objectId, state.collection objectId = none
  queue : state.queue = []
  workers : ∀ stage ∈ state.workers, stage = .idle
  handed : state.handed = []

def SerialStep (config : MilvusConfig) (state after : Sinks) : Prop :=
  Sinks.Step config state after ∧ state.Undisturbed ∧ ∀ row ∈ after.handed, row.Storable

end Boom.Milvus
