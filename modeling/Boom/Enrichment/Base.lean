import Boom.Alert.Worker
import Boom.Foundations.Requests

/-! # Between the alert collection and the filters

Enrichment workers take candids from one list, process them, and push what they return onto
the list of the filter workers.  Every call on a list goes through the same retry helper.

An element of a list has a serial number: a ghost, which tells apart two elements with one
value.  The other ghosts keep what was ever pushed, processed, returned and acknowledged. -/

namespace Boom.Enrichment

open Boom.Foundations
open Boom.Alert (defaultMaxRetries)

/-! ## Lists -/

structure Item (α : Type) where
  serial : Nat
  value : α
deriving DecidableEq

section Lists

variable {α : Type}

def number (start : Nat) (values : List α) : List (Item α) :=
  (values.zipIdx start).map fun entry => ⟨entry.2, entry.1⟩

def lpush (values list : List α) : List α := values.reverse ++ list

def rpop (count : Nat) (list : List α) : List α × List α :=
  ((list.drop (list.length - count)).reverse, list.take (list.length - count))

@[simp] theorem mem_lpush {item : α} {values list : List α} : item ∈ lpush values list ↔ item ∈ values ∨ item ∈ list := by
  simp [lpush]

theorem mem_rpop {count : Nat} {list : List α} {item : α} :
    item ∈ list ↔ item ∈ (rpop count list).1 ∨ item ∈ (rpop count list).2 := by
  unfold rpop
  rw [List.mem_reverse, or_comm, ← List.mem_append, List.take_append_drop]

end Lists

/-! ## The pipeline -/

/-- The list of candids, the list for the filters and the topic, for alerts of any type. -/
structure Pipeline (α : Type) where
  candids : List (Item Int)
  strings : List (Item String)
  topic : List (Item α)
  /-- Candids ever pushed. -/
  pushed : List (Item Int)
  /-- Candids given to a call of `process_alerts` that completed. -/
  enriched : List (Item Int)
  /-- What the enrichment workers' calls returned, and in which slot. -/
  returned : List (Nat × Item String)
  /-- Strings ever pushed. -/
  queued : List (Item String)
  /-- What the filter workers' calls returned. -/
  matched : List (Nat × Item α)
  acknowledged : List (Item α)

structure Turn (α : Type) where
  delivery : Delivery
  transient : Bool
  strings : Option (List String)
  alerts : Option (List α)

def retryTransient {ω : Type} (again : Nat → ω) (giveUp : ω) (retries : Nat) (transient : Bool) : ω :=
  match retries with
  | retries + 1 => if transient then again retries else giveUp
  | 0 => giveUp

theorem retryTransient_of_left {ω : Type} {again : Nat → ω} {giveUp : ω} {retries : Nat} (left : 0 < retries) :
    retryTransient again giveUp retries true = again (retries - 1) := by
  cases retries with
  | zero => omega
  | succ retries => rfl

/-! ## The loop -/

inductive EnrichmentWorker where
  | polling (retries : Nat)
  | enriching (batch : List (Item Int))
  | pushing (items : List (Item String)) (retries : Nat)
  | stopped
deriving DecidableEq

namespace EnrichmentWorker

variable {α : Type}

def next : EnrichmentWorker := .polling defaultMaxRetries

def act (batchSize : Nat) (turn : Turn α) (slot : Nat) (pipeline : Pipeline α) : EnrichmentWorker → Pipeline α × EnrichmentWorker
  | .polling retries =>
    let popped := rpop batchSize pipeline.candids
    match turn.delivery with
    | .answered =>
      ({ pipeline with candids := popped.2 }, if popped.1.isEmpty then next else .enriching popped.1)
    | .lost => ({ pipeline with candids := popped.2 }, retryTransient .polling .stopped retries turn.transient)
    | .refused => (pipeline, retryTransient .polling .stopped retries turn.transient)
  | .enriching batch =>
    match turn.strings with
    | none => (pipeline, .stopped)
    | some strings =>
      let items := number pipeline.returned.length strings
      ({ pipeline with
          enriched := pipeline.enriched ++ batch
          returned := pipeline.returned ++ items.map (slot, ·) },
        if items.isEmpty then next else .pushing items defaultMaxRetries)
  | .pushing items retries =>
    let pushed := { pipeline with strings := lpush items pipeline.strings, queued := pipeline.queued ++ items }
    match turn.delivery with
    | .answered => (pushed, next)
    | .lost => (pushed, retryTransient (.pushing items) .stopped retries turn.transient)
    | .refused => (pipeline, retryTransient (.pushing items) .stopped retries turn.transient)
  | .stopped => (pipeline, .stopped)

def candids : EnrichmentWorker → List (Item Int)
  | .enriching batch => batch
  | _ => []

def strings : EnrichmentWorker → List (Item String)
  | .pushing items _ => items
  | _ => []

end EnrichmentWorker

end Boom.Enrichment
