import FluxMeter.Custody.Identity
import FluxMeter.Transition.Runs
import Mathlib.Logic.Function.Basic

/-! Attempts of `accept` and `accept_many` to take custody of one identity: the request thread, the
delivery callback of its message and the late reconciliation job, each taking its steps at any
time. The dispatcher is `KafkaProducerDispatcher`; no entry expires. -/
namespace FluxMeter.Custody

inductive Kind
  | single
  | batch
  deriving DecidableEq

/-- The errors that `publish_and_wait` raises or `publish_batch_and_wait` returns. -/
inductive PublishError
  | overloaded
  | unavailable
  | uncertain
  deriving DecidableEq

inductive MessageState
  | unsent
  | inFlight
  | delivered
  | failed
  deriving DecidableEq

/-- The next step of `on_delivery`. -/
inductive Callback
  | absent
  | writing
  | setting
  | checking
  | finished
  deriving DecidableEq

/-- The reconciliation job of a late delivery, with the finalize tries it has left. -/
inductive Late
  | absent
  | queued (succeeded : Bool) (tries : ℕ)
  | finished
  deriving DecidableEq

inductive Pc
  | idle
  | answered (claim : Claim)
  | producing
  | waiting
  | testing
  | judging (inRace : Bool)
  | overwriting (inRace lateSucceeded : Bool)
  | reconciling (inRace lateSucceeded : Bool)
  | collecting
  | releasing
  | remembering (tries : ℕ)
  | marking
  | finished
  deriving DecidableEq

structure Attempt where
  kind : Kind := .single
  fingerprint : String := ""
  pc : Pc := .idle
  message : MessageState := .unsent
  /-- `outcomes[index]`, or whether `delivery_error` is set. -/
  outcome : Option PublishError := none
  delivered : Bool := false
  timedOut : Bool := false
  reconciliationDispatched : Bool := false
  callback : Callback := .absent
  late : Late := .absent
  /-- The attempt was told `owner` and none of its releases has run. -/
  holds : Bool := false
  deriving DecidableEq

namespace Attempt

inductive Move
  | claim (kind : Kind) (fingerprint : String)
  | produce (error : Option PublishError)
  | thread
  | timeout
  | report (succeeded : Bool)
  | callback
  /-- A script call may run or not before its connection fails; `others` tells whether the other
  identities of a batch were matched. -/
  | remember (executed raised others : Bool)
  | mark (executed : Bool)
  | release (executed : Bool)
  | lateRemember (executed raised : Bool)
  | lateRelease (executed : Bool)
  deriving DecidableEq

/-- `dispatch_late`, under its lock. -/
def dispatchLate (retries : ℕ) (a : Attempt) (succeeded : Bool) : Attempt :=
  if a.reconciliationDispatched then a
  else { a with reconciliationDispatched := true, late := .queued succeeded retries }

def claim (entry : Option String) (a : Attempt) (kind : Kind) (fingerprint : String) :
    Option String × Attempt :=
  match claimAnswer entry fingerprint with
  | .owner =>
    (claimed entry fingerprint,
      { a with kind := kind, fingerprint := fingerprint, pc := .producing, holds := true })
  | answer => (entry, { a with kind := kind, fingerprint := fingerprint, pc := .answered answer })

/-- `produce`, or the error that keeps the message out of the producer's queue. -/
def produce (a : Attempt) : Option PublishError → Option Attempt
  | none => some { a with message := .inFlight, pc := .waiting }
  | some .uncertain => none
  | some error =>
    match a.kind with
    | .single => some { a with outcome := some error, pc := .releasing }
    | .batch => some { a with outcome := some error, delivered := true, pc := .waiting }

/-- The thread goes on after the wait, inside the timeout branch or after it. -/
def thread (retries : ℕ) (a : Attempt) : Option Attempt :=
  match a.pc, a.kind with
  | .waiting, .single =>
    if !a.delivered then none
    else if a.outcome.isSome then some { a with pc := .releasing }
    else some { a with pc := .remembering retries }
  | .waiting, .batch => if a.delivered then some { a with pc := .collecting } else none
  | .testing, .single => some { a with pc := .reconciling a.delivered a.outcome.isNone }
  | .testing, .batch => some { a with pc := .judging a.delivered }
  | .judging inRace, _ => some { a with pc := .overwriting inRace a.outcome.isNone }
  | .overwriting inRace lateSucceeded, _ =>
    some { a with outcome := some .uncertain, pc := .reconciling inRace lateSucceeded }
  | .reconciling inRace lateSucceeded, kind =>
    let b := if inRace then dispatchLate retries a lateSucceeded else a
    some { b with pc := if kind = .single then .marking else .collecting }
  | .collecting, _ =>
    match a.outcome with
    | none => some { a with pc := .remembering retries }
    | some .uncertain => some { a with pc := .marking }
    | some _ => some { a with pc := .releasing }
  | .remembering 0, _ => some { a with pc := .marking }
  | _, _ => none

/-- `on_delivery`, one statement after another. -/
def onDelivery (retries : ℕ) (a : Attempt) : Option Attempt :=
  match a.callback with
  | .writing =>
    if a.message = .failed then some { a with outcome := some .unavailable, callback := .setting }
    else some { a with callback := .setting }
  | .setting => some { a with delivered := true, callback := .checking }
  | .checking =>
    let b := if a.timedOut then dispatchLate retries a (a.message = .delivered) else a
    some { b with callback := .finished }
  | _ => none

/-- One try of `remember_event_identities` in the request thread. -/
def remember (entry : Option String) (a : Attempt) (executed raised others : Bool) :
    Option (Option String × Attempt) :=
  match a.pc with
  | .remembering (tries + 1) =>
    let entry' := if executed then transitioned .accepted a.fingerprint entry else entry
    if raised then
      some (entry', { a with pc := if tries = 0 then .marking else .remembering tries })
    else if !executed then none
    else if transitionMatched .accepted a.fingerprint entry && (a.kind = .single || others) then
      some (entry', { a with pc := .finished })
    else some (entry', { a with pc := .marking })
  | _ => none

/-- One try of the reconciliation job of a delivered message. -/
def lateRemember (entry : Option String) (a : Attempt) (executed raised : Bool) :
    Option (Option String × Attempt) :=
  match a.late with
  | .queued true 0 => some (entry, { a with late := .finished })
  | .queued true (tries + 1) =>
    let entry' := if executed then transitioned .accepted a.fingerprint entry else entry
    some (entry', { a with
      late := if raised && tries ≠ 0 then .queued true tries else .finished })
  | _ => none

/-- One move of an attempt, with the entry before and after it. -/
def advance (retries : ℕ) (entry : Option String) (a : Attempt) :
    Move → Option (Option String × Attempt)
  | .claim kind fingerprint =>
    if a.pc = .idle then some (claim entry a kind fingerprint) else none
  | .produce error =>
    if a.pc = .producing then (produce a error).map fun b => (entry, b) else none
  | .thread => (thread retries a).map fun b => (entry, b)
  | .timeout =>
    if a.pc = .waiting ∧ (a.kind = .batch ∨ a.delivered = false) then
      some (entry, { a with timedOut := true, pc := .testing })
    else none
  | .report succeeded =>
    if a.message = .inFlight then
      some (entry, { a with
        message := if succeeded then .delivered else .failed, callback := .writing })
    else none
  | .callback => (onDelivery retries a).map fun b => (entry, b)
  | .remember executed raised others => remember entry a executed raised others
  | .mark executed =>
    if a.pc = .marking then
      some (if executed then transitioned .uncertain a.fingerprint entry else entry,
        { a with pc := .finished })
    else none
  | .release executed =>
    if a.pc = .releasing then
      some (if executed then released a.fingerprint entry else entry,
        { a with pc := .finished, holds := a.holds && !executed })
    else none
  | .lateRemember executed raised => lateRemember entry a executed raised
  | .lateRelease executed =>
    match a.late with
    | .queued false _ =>
      some (if executed then released a.fingerprint entry else entry,
        { a with late := .finished, holds := a.holds && !executed })
    | _ => none

/-- The attempt has a Kafka message that is in flight or delivered. -/
def HasMessage (a : Attempt) : Prop := a.message = .inFlight ∨ a.message = .delivered

/-- A release script of the attempt may run next. -/
def MayRelease (a : Attempt) : Prop := a.pc = .releasing ∨ ∃ tries, a.late = .queued false tries

/-- The callback of a batch message is about to write its error over the outcome that the thread
has set to uncertain and that the caller has not read yet. -/
def overwritesTimeout (a : Attempt) : Move → Bool
  | .callback =>
    a.kind = .batch && a.timedOut && a.callback = .writing && a.message = .failed &&
      (match a.pc with
        | .reconciling _ _ => true
        | .collecting => true
        | _ => false)
  | _ => false

end Attempt

/-- The entry of one identity and all attempts on it. -/
structure IdentityState where
  entry : Option String
  attempts : ℕ → Attempt

namespace IdentityState

def init (entry : Option String) : IdentityState := ⟨entry, fun _ => {}⟩

/-- The attempt `i` makes a move. -/
def step (retries : ℕ) (s : IdentityState) (p : ℕ × Attempt.Move) : Option IdentityState :=
  ((s.attempts p.1).advance retries s.entry p.2).map fun r =>
    { entry := r.1, attempts := Function.update s.attempts p.1 r.2 }

end IdentityState

end FluxMeter.Custody
