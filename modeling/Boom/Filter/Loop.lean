import Boom.Enrichment.Base

/-! # The filter workers' loop

A filter worker takes strings from its list, and sends the alerts that match to the topic.
Sending puts an alert into the producer's queue; how it went is known from a report, which
the worker awaits once all alerts of a batch are sent.  A report of a failure is logged. -/

namespace Boom.Filter

open Boom.Foundations Boom.Enrichment
open Boom.Alert (defaultMaxRetries)

inductive FilterWorker (α : Type) where
  | polling (retries : Nat)
  | filtering (batch : List (Item String))
  | sending (unsent : List (Item α)) (retries : Nat) (inFlight : List (Item α))
  | awaiting (inFlight : List (Item α)) (failed : Bool)
  | stopped
deriving DecidableEq

namespace FilterWorker

variable {α : Type}

def batchSize : Nat := 1000

def next : FilterWorker α := .polling defaultMaxRetries

def act (turn : Turn α) (slot : Nat) (pipeline : Pipeline α) : FilterWorker α → Pipeline α × FilterWorker α
  | .polling retries =>
    let popped := rpop batchSize pipeline.strings
    match turn.delivery with
    | .answered => ({ pipeline with strings := popped.2 }, if popped.1.isEmpty then next else .filtering popped.1)
    | .lost => ({ pipeline with strings := popped.2 }, retryTransient .polling .stopped retries turn.transient)
    | .refused => (pipeline, retryTransient .polling .stopped retries turn.transient)
  | .filtering _ =>
    match turn.alerts with
    | none => (pipeline, .stopped)
    | some alerts =>
      let items := number pipeline.matched.length alerts
      ({ pipeline with matched := pipeline.matched ++ items.map (slot, ·) }, .sending items defaultMaxRetries [])
  | .sending [] _ inFlight => (pipeline, .awaiting inFlight false)
  | .sending (alert :: unsent) retries inFlight =>
    let again (retries : Nat) : FilterWorker α := .sending (alert :: unsent) retries inFlight
    match turn.delivery with
    | .answered => (pipeline, .sending unsent defaultMaxRetries (inFlight ++ [alert]))
    | .lost => ({ pipeline with topic := pipeline.topic ++ [alert] }, retryTransient again (.awaiting inFlight true) retries turn.transient)
    -- also an alert that cannot be encoded, which is no transient error
    | .refused => (pipeline, retryTransient again (.awaiting inFlight true) retries turn.transient)
  | .awaiting [] failed => (pipeline, if failed then .stopped else next)
  | .awaiting (alert :: rest) failed =>
    match turn.delivery with
    | .answered =>
      ({ pipeline with topic := pipeline.topic ++ [alert], acknowledged := pipeline.acknowledged ++ [alert] }, .awaiting rest failed)
    | .lost => ({ pipeline with topic := pipeline.topic ++ [alert] }, .awaiting rest failed)
    | .refused => (pipeline, .awaiting rest failed)
  | .stopped => (pipeline, .stopped)

def alerts : FilterWorker α → List (Item α)
  | .sending unsent _ inFlight => unsent ++ inFlight
  | .awaiting inFlight _ => inFlight
  | _ => []

end FilterWorker

/-! ## Workers of both kinds -/

inductive Worker (α : Type) where
  | enrichment (worker : EnrichmentWorker)
  | filter (worker : FilterWorker α)
deriving DecidableEq

namespace Worker

variable {α : Type}

def act (batchSize : Nat) (turn : Turn α) (slot : Nat) (pipeline : Pipeline α) : Worker α → Pipeline α × Worker α
  | .enrichment worker =>
    let (after, worker) := worker.act batchSize turn slot pipeline
    (after, .enrichment worker)
  | .filter worker =>
    let (after, worker) := worker.act turn slot pipeline
    (after, .filter worker)

def candids : Worker α → List (Item Int)
  | .enrichment worker => worker.candids
  | .filter _ => []

def strings : Worker α → List (Item String)
  | .enrichment worker => worker.strings
  | .filter _ => []

def alerts : Worker α → List (Item α)
  | .enrichment _ => []
  | .filter worker => worker.alerts

def Suffers (turn : Turn α) : Worker α → Prop
  | .enrichment (.polling retries) | .enrichment (.pushing _ retries) | .filter (.polling retries)
  | .filter (.sending (_ :: _) retries _) => turn.delivery = .answered ∨ turn.transient = true ∧ 0 < retries
  | .enrichment (.enriching _) => turn.strings ≠ none
  | .filter (.filtering _) => turn.alerts ≠ none
  | _ => True

def terminates : Worker α → Option (Worker α)
  | .enrichment (.polling _) => some (.enrichment .stopped)
  | .filter (.polling _) => some (.filter .stopped)
  | _ => none

end Worker

inductive PipelineActs {α : Type} (batchSize : Nat) (may : Turn α → Pipeline α → Worker α → Prop) (slot : Nat)
    (pipeline : Pipeline α) (worker : Worker α) : Pipeline α → Worker α → Prop where
  | turn (turn : Turn α) : worker.Suffers turn → may turn pipeline worker →
      PipelineActs batchSize may slot pipeline worker (worker.act batchSize turn slot pipeline).1
        (worker.act batchSize turn slot pipeline).2
  | terminate {after : Worker α} : worker.terminates = some after → PipelineActs batchSize may slot pipeline worker pipeline after

/-- An alert worker pushes a candid. -/
inductive CandidPushed {α : Type} (pipeline : Pipeline α) : Pipeline α → Prop where
  | push (candid : Int) : CandidPushed pipeline { pipeline with
      candids := lpush [⟨pipeline.pushed.length, candid⟩] pipeline.candids
      pushed := pipeline.pushed ++ [⟨pipeline.pushed.length, candid⟩] }

def pipelineRules {α : Type} (batchSize : Nat) (may : Turn α → Pipeline α → Worker α → Prop) :
    Requests.Rules (Pipeline α) (Worker α) where
  starts _ _ worker := worker = .enrichment .next ∨ worker = .filter .next
  acts := PipelineActs batchSize may
  outside := CandidPushed

end Boom.Filter
