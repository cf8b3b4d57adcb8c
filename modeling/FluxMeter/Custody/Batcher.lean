import FluxMeter.Collections.Grouping
import FluxMeter.Transition.Runs
import Mathlib.Data.List.Range

/-! `TokenEventCustodyBatcher` as a step relation: concurrent `accept` calls, one `close` call and
the worker task, which suspends in `get` and while `accept_many` runs in its thread. -/
namespace FluxMeter.Custody
open Collections

/-- The limits that `__init__` accepts. -/
structure BatcherLimits where
  maxBatchSize : ℕ
  maxQueueSize : ℕ
  batch_pos : 1 ≤ maxBatchSize
  batch_le_queue : maxBatchSize ≤ maxQueueSize

namespace Batcher

/-- `_QueuedCustodyRequest`; the number stands for the identity of its future. -/
structure Request (ε κ : Type*) where
  number : ℕ
  event : ε
  context : κ
  deriving DecidableEq

/-- An entry of the queue: a request or the `_stop` object. -/
inductive Item (ε κ : Type*)
  | request (r : Request ε κ)
  | stop
  deriving DecidableEq

/-- How `accept_many` ends. -/
inductive Outcome (ρ χ : Type*)
  | returned (results : List ρ)
  | raised (exception : χ)
  deriving DecidableEq

inductive Answer (ρ χ : Type*)
  | result (r : ρ)
  | exception (e : χ)
  /-- `RuntimeError("batch custody returned the wrong number of results")`. -/
  | wrongNumber
  deriving DecidableEq

/-- One call of `accept_many` for the requests of one context. -/
structure Call (ε κ ρ χ : Type*) where
  context : κ
  group : List (Request ε κ)
  outcome : Outcome ρ χ
  deriving DecidableEq

inductive Worker (ε κ : Type*)
  | absent
  | idle
  | collecting (requests : List (Request ε κ))
  | flushing (groups : List (κ × List (Request ε κ)))
  | returned
  deriving DecidableEq

def Worker.isAbsent {ε κ : Type*} : Worker ε κ → Bool
  | .absent => true
  | _ => false

/-- One group of the flush is left. -/
def Worker.onLastGroup {ε κ : Type*} : Worker ε κ → Bool
  | .flushing [_] => true
  | _ => false

structure State (ε κ ρ χ : Type*) where
  closed : Bool := false
  /-- `close` waits for a free place to put the `_stop` object. -/
  stopping : Bool := false
  queue : List (Item ε κ) := []
  worker : Worker ε κ := .absent
  enqueued : List (Request ε κ) := []
  calls : List (Call ε κ ρ χ) := []
  /-- Every `set_result` and `set_exception`, in order. -/
  resolutions : List (Request ε κ × Answer ρ χ) := []
  deriving DecidableEq

inductive Action (ε κ ρ χ : Type*)
  | accept (event : ε) (context : κ)
  | close
  | putStop
  | get
  | timeout
  | finish (outcome : Outcome ρ χ)

variable {ε κ ρ χ : Type*}

/-- What the requests of a call are answered with, in their order. -/
def Call.answers (c : Call ε κ ρ χ) : List (Answer ρ χ) :=
  match c.outcome with
  | .returned results =>
    if results.length = c.group.length then results.map .result
    else c.group.map fun _ => .wrongNumber
  | .raised e => c.group.map fun _ => .exception e

def resolve (done : List (Request ε κ × Answer ρ χ)) (p : Request ε κ × Answer ρ χ) :
    List (Request ε κ × Answer ρ χ) :=
  if ∃ q ∈ done, q.1.number = p.1.number then done else done ++ [p]

variable [DecidableEq κ]

/-- The groups of `_flush`, in the order in which their contexts appear. -/
def groupByContext (requests : List (Request ε κ)) : List (κ × List (Request ε κ)) :=
  groupsOf Request.context requests

/-- The worker goes on collecting until the batch is full. -/
def proceed (L : BatcherLimits) (requests : List (Request ε κ)) : Worker ε κ :=
  if requests.length < L.maxBatchSize then .collecting requests
  else .flushing (groupByContext requests)

/-- `accept`, up to the `await` of its future; when it raises nothing changes. -/
def accept (L : BatcherLimits) (s : State ε κ ρ χ) (event : ε) (context : κ) : State ε κ ρ χ :=
  if s.closed then s
  else if L.maxQueueSize ≤ s.queue.length then s
  else
    let r : Request ε κ := { number := s.enqueued.length, event, context }
    { s with
      queue := s.queue ++ [.request r]
      enqueued := s.enqueued ++ [r]
      worker := if s.worker.isAbsent then .idle else s.worker }

/-- `close`, up to its first suspension. -/
def close (L : BatcherLimits) (s : State ε κ ρ χ) : State ε κ ρ χ :=
  if s.closed then s
  else if s.worker.isAbsent then { s with closed := true }
  else if s.queue.length < L.maxQueueSize then
    { s with closed := true, queue := s.queue ++ [.stop] }
  else { s with closed := true, stopping := true }

/-- The worker takes an entry from the queue, first of a batch or further one. -/
def get (L : BatcherLimits) (s : State ε κ ρ χ) : Option (State ε κ ρ χ) :=
  match s.worker, s.queue with
  | .idle, .stop :: queue => some { s with queue := queue, worker := .returned }
  | .idle, .request r :: queue => some { s with queue := queue, worker := proceed L [r] }
  | .collecting requests, .stop :: queue =>
    some { s with queue := queue, closed := true, worker := .flushing (groupByContext requests) }
  | .collecting requests, .request r :: queue =>
    some { s with queue := queue, worker := proceed L (requests ++ [r]) }
  | _, _ => none

/-- The worker after a group: the next group, or the check of `_closed` at the end of a flush. -/
def afterGroup (closed : Bool) : List (κ × List (Request ε κ)) → Worker ε κ
  | [] => if closed then .returned else .idle
  | groups => .flushing groups

/-- `accept_many` comes back for the group being flushed, and its futures are resolved. -/
def finish (s : State ε κ ρ χ) (outcome : Outcome ρ χ) : Option (State ε κ ρ χ) :=
  match s.worker with
  | .flushing ((context, group) :: rest) =>
    let call : Call ε κ ρ χ := { context, group, outcome }
    some { s with
      calls := s.calls ++ [call]
      resolutions := (group.zip call.answers).foldl resolve s.resolutions
      worker := afterGroup s.closed rest }
  | _ => none

def step (L : BatcherLimits) (s : State ε κ ρ χ) : Action ε κ ρ χ → Option (State ε κ ρ χ)
  | .accept event context => some (accept L s event context)
  | .close => some (close L s)
  | .putStop =>
    if s.stopping ∧ s.queue.length < L.maxQueueSize then
      some { s with stopping := false, queue := s.queue ++ [.stop] }
    else none
  | .get => get L s
  | .timeout =>
    match s.worker with
    | .collecting requests => some { s with worker := .flushing (groupByContext requests) }
    | _ => none
  | .finish outcome => finish s outcome

def requestsOf : List (Item ε κ) → List (Request ε κ)
  | [] => []
  | .request r :: queue => r :: requestsOf queue
  | .stop :: queue => requestsOf queue

/-- The worker is about to return from its last flush with a request still on the queue. -/
def strands (s : State ε κ ρ χ) : Action ε κ ρ χ → Bool
  | .finish _ => s.closed && s.worker.onLastGroup && !(requestsOf s.queue).isEmpty
  | _ => false

/-- Every request that was put on the queue has been answered exactly once, with what a call of
`accept_many` for its own context gave at the place of its own event. -/
def Answered (s : State ε κ ρ χ) : Prop :=
  ∀ r ∈ s.enqueued, ∃ a, (s.resolutions.filter fun p => p.1.number = r.number) = [(r, a)] ∧
    ∃ call ∈ s.calls, call.context = r.context ∧
      ∃ k : ℕ, call.group[k]? = some r ∧ call.answers[k]? = some a

end Batcher

end FluxMeter.Custody
