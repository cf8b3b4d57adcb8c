import FluxMeter.Custody.Attempt

/-! One call of `KafkaProducerDispatcher.publish_and_wait` or `publish_batch_and_wait`: the waiting
thread, and for every produced message the delivery callback, each taking one assignment at a
time. -/
namespace FluxMeter.Custody
open Transition

namespace Dispatcher

/-- The next statement of `on_delivery`. -/
inductive CallbackPc
  | writing
  | setting
  | releasing
  | checking
  | finished
  deriving DecidableEq

inductive Broker
  | unsent
  | inFlight
  | reported (succeeded : Bool) (callback : CallbackPc)
  deriving DecidableEq

inductive Stage
  | acquiring
  | producing
  | refused (error : PublishError)
  | recording (error : PublishError)
  | signalling
  | awaiting
  | testing
  | judging (inRace : Bool)
  | overwriting (inRace lateSucceeded : Bool)
  | reconciling (inRace lateSucceeded : Bool)
  | done
  deriving DecidableEq

structure Delivery where
  /-- A late callback was given for the message. -/
  late : Bool
  stage : Stage := .acquiring
  broker : Broker := .unsent
  /-- `outcomes[index]`, or whether `delivery_error` is set. -/
  outcome : Option PublishError := none
  /-- What `publish_and_wait` raises. -/
  raised : Option PublishError := none
  delivered : Bool := false
  timedOut : Bool := false
  reconciliationDispatched : Bool := false
  /-- The late callbacks submitted to the executor. -/
  dispatched : List Bool := []
  acquired : ℕ := 0
  released : ℕ := 0
  deriving DecidableEq

inductive Move
  | acquire (granted : Bool)
  | produce (error : Option PublishError)
  | thread
  | timeout
  | report (succeeded : Bool)
  | callback
  deriving DecidableEq

namespace Delivery

/-- `dispatch_late`, under its lock. -/
def dispatchLate (m : Delivery) (succeeded : Bool) : Delivery :=
  if m.late = false ∨ m.reconciliationDispatched = true then m
  else { m with reconciliationDispatched := true, dispatched := succeeded :: m.dispatched }

/-- `self._slots.acquire(blocking=False)`. -/
def acquire (kind : Kind) (m : Delivery) : Bool → Delivery
  | true => { m with stage := .producing, acquired := m.acquired + 1 }
  | false =>
    match kind with
    | .single => { m with stage := .done, raised := some .overloaded }
    | .batch => { m with stage := .recording .overloaded }

/-- `produce`, or the error that keeps the message out of the producer's queue. -/
def produce (m : Delivery) : Option PublishError → Option Delivery
  | none => some { m with stage := .awaiting, broker := .inFlight }
  | some .uncertain => none
  | some error => some { m with stage := .refused error }

/-- The thread goes on after the wait, in an `except` branch or in the timeout branch. -/
def thread (kind : Kind) (m : Delivery) : Option Delivery :=
  match m.stage, kind with
  | .refused error, .single =>
    some { m with stage := .done, raised := some error, released := m.released + 1 }
  | .refused error, .batch => some { m with stage := .recording error, released := m.released + 1 }
  | .recording error, _ => some { m with stage := .signalling, outcome := some error }
  | .signalling, _ => some { m with stage := .awaiting, delivered := true }
  | .awaiting, .single =>
    if m.delivered then some { m with stage := .done, raised := m.outcome } else none
  | .awaiting, .batch => if m.delivered then some { m with stage := .done } else none
  | .testing, .single => some { m with stage := .reconciling m.delivered m.outcome.isNone }
  | .testing, .batch => some { m with stage := .judging m.delivered }
  | .judging inRace, _ => some { m with stage := .overwriting inRace m.outcome.isNone }
  | .overwriting inRace lateSucceeded, _ =>
    some { m with stage := .reconciling inRace lateSucceeded, outcome := some .uncertain }
  | .reconciling inRace lateSucceeded, kind =>
    let m' := if inRace then m.dispatchLate lateSucceeded else m
    some { m' with
      stage := .done
      raised := if kind = .single then some .uncertain else m'.raised }
  | _, _ => none

/-- `on_delivery`, one statement after another. -/
def onDelivery (m : Delivery) : Option Delivery :=
  match m.broker with
  | .reported true .writing => some { m with broker := .reported true .setting }
  | .reported false .writing =>
    some { m with outcome := some .unavailable, broker := .reported false .setting }
  | .reported succeeded .setting =>
    some { m with delivered := true, broker := .reported succeeded .releasing }
  | .reported succeeded .releasing =>
    some { m with released := m.released + 1, broker := .reported succeeded .checking }
  | .reported succeeded .checking =>
    let m' := if m.timedOut then m.dispatchLate succeeded else m
    some { m' with broker := .reported succeeded .finished }
  | _ => none

/-- One move for one message. The wait of a batch also times out when no time remains. -/
def advance (kind : Kind) (m : Delivery) : Move → Option Delivery
  | .acquire granted => if m.stage = .acquiring then some (m.acquire kind granted) else none
  | .produce error => if m.stage = .producing then m.produce error else none
  | .thread => m.thread kind
  | .timeout =>
    if m.stage = .awaiting ∧ (kind = .batch ∨ m.delivered = false) then
      some { m with timedOut := true, stage := .testing }
    else none
  | .report succeeded =>
    if m.broker = .inFlight then some { m with broker := .reported succeeded .writing } else none
  | .callback => m.onDelivery

end Delivery

def Move.ofThread : Move → Bool
  | .report _ | .callback => false
  | _ => true

/-- The stages of the loop that produces. -/
@[grind] def Stage.early : Stage → Bool
  | .acquiring | .producing | .refused _ | .recording _ | .signalling => true
  | _ => false

structure Call where
  kind : Kind
  deliveries : List Delivery
  answers : Option (List (Option PublishError)) := none

inductive Event
  | move (index : ℕ) (m : Move)
  | ret

namespace Call

/-- `publish_and_wait`. -/
def single (late : Bool) : Call where
  kind := .single
  deliveries := [{ late }]

/-- `publish_batch_and_wait`; the list tells which messages have a late callback. -/
def batch (lates : List Bool) : Call where
  kind := .batch
  deliveries := lates.map fun late => { late }

/-- What the caller reads of one message. -/
def reading (kind : Kind) (m : Delivery) : Option PublishError :=
  match kind with
  | .single => m.raised
  | .batch => m.outcome

/-- The thread produces the messages in their order, and then waits for them in their order. -/
def threadAt (c : Call) (index : ℕ) (m : Delivery) : Bool :=
  let before := c.deliveries.take index
  if m.stage.early then before.all fun m => !m.stage.early
  else (c.deliveries.all fun m => !m.stage.early) && before.all fun m => m.stage = .done

def step (c : Call) : Event → Option Call
  | .move index mv =>
    match c.deliveries[index]? with
    | none => none
    | some m =>
      if mv.ofThread && !c.threadAt index m then none
      else (m.advance c.kind mv).map fun m' => { c with deliveries := c.deliveries.set index m' }
  | .ret =>
    if c.answers = none ∧ ∀ m ∈ c.deliveries, m.stage = .done then
      some { c with answers := some (c.deliveries.map (reading c.kind)) }
    else none

end Call

/-! ### What the two parties owe each other -/

@[grind] def Broker.succeeded : Broker → Bool
  | .reported succeeded _ => succeeded
  | _ => false

@[grind] def Broker.settled : Broker → Bool
  | .unsent | .reported _ .finished => true
  | _ => false

/-- The callback has set `delivered`. -/
@[grind] def Broker.signalled : Broker → Bool
  | .reported _ .writing | .reported _ .setting => false
  | .reported _ _ => true
  | _ => false

@[grind] def Broker.unwritten : Broker → Bool
  | .inFlight | .reported _ .writing => true
  | _ => false

@[grind] def Broker.holdsSlot : Broker → Bool
  | .inFlight | .reported _ .writing | .reported _ .setting | .reported _ .releasing => true
  | _ => false

/-- The thread has seen the delivery after it declared the timeout. -/
@[grind] def Stage.racing : Stage → Bool
  | .judging true | .overwriting true _ | .reconciling true _ => true
  | _ => false

/-- The stages of the timeout branch. -/
@[grind] def Stage.late : Stage → Bool
  | .testing | .judging _ | .overwriting _ _ | .reconciling _ _ => true
  | _ => false

/-- The stages that only a batch goes through. -/
@[grind] def Stage.ofBatch : Stage → Bool
  | .recording _ | .signalling | .judging _ | .overwriting _ _ => true
  | _ => false

@[grind] def Stage.holdsSlot : Stage → Bool
  | .producing | .refused _ => true
  | _ => false

@[grind] def Delivery.overwritten (kind : Kind) (m : Delivery) : Bool :=
  kind = .batch && m.timedOut &&
    match m.stage with
    | .reconciling _ _ | .done => true
    | _ => false

def Delivery.overwrites (kind : Kind) (m : Delivery) : Move → Bool
  | .callback => m.overwritten kind && m.broker = .reported false .writing
  | _ => false

structure Sound (kind : Kind) (m : Delivery) : Prop where
  early : m.stage.early = true → m.broker = .unsent ∧ m.timedOut = false ∧ m.delivered = false
  batches : m.stage.ofBatch = true → kind = .batch
  definite : ∀ e, m.stage = .refused e ∨ m.stage = .recording e → e ≠ .uncertain
  signalling : m.stage = .signalling → m.outcome ≠ none
  fresh : m.stage = .acquiring → m.acquired = 0
  blank : m.stage = .acquiring ∨ m.stage = .producing → m.outcome = none
  slots : m.released + (if m.stage.holdsSlot || m.broker.holdsSlot then 1 else 0) = m.acquired
  acquired : m.acquired ≤ 1
  signalled : m.broker ≠ .unsent → m.delivered = m.broker.signalled
  unsent : m.broker = .unsent → m.stage.early = false →
    if kind = .batch then m.delivered = true ∧ m.outcome ≠ none
    else m.stage = .done ∧ m.timedOut = false ∧ m.delivered = false
  untouched : m.broker.unwritten = true → m.overwritten kind = false → m.outcome = none
  verdict : m.broker ≠ .unsent → m.broker.unwritten = false → m.overwritten kind = false →
    (m.outcome = none ↔ m.broker.succeeded = true)
  certain : m.overwritten kind = false → m.outcome ≠ some .uncertain
  uncertain : m.overwritten kind = true → m.outcome = some .uncertain
  declared : m.stage.late = true → m.timedOut = true
  undeclared : m.stage = .awaiting → m.timedOut = false
  awaited : m.stage = .done → m.timedOut = false → m.broker ≠ .unsent → m.delivered = true
  raised : kind = .single → m.stage = .done → (m.raised = some .uncertain ↔ m.timedOut = true)
  race : m.stage.racing = true → m.delivered = true
  lateSucceeded : ∀ b, m.stage = .overwriting true b ∨ m.stage = .reconciling true b →
    b = m.broker.succeeded
  dispatched : m.dispatched = [] ∨
    m.dispatched = [m.broker.succeeded] ∧ m.broker ≠ .inFlight ∧ m.timedOut = true ∧ m.late = true
  guarded : m.reconciliationDispatched = false ↔ m.dispatched = []
  owed : m.late = true → m.timedOut = true → m.dispatched = [] →
    m.stage = .testing ∨ m.stage.racing = true ∨ m.broker.settled = false

variable {kind : Kind} {m m' : Delivery}

theorem sound_init (kind : Kind) (late : Bool) : Sound kind { late } := by
  constructor <;> grind

theorem sound_acquire (h : Sound kind m) (hstage : m.stage = .acquiring) (granted : Bool) :
    Sound kind (m.acquire kind granted) := by
  obtain ⟨hbroker, htimedOut, hdelivered⟩ := h.early (by rw [hstage]; rfl)
  have hacquired := h.fresh hstage
  unfold Delivery.acquire
  cases granted with
  | true => constructor <;> grind -ring -linarith [Sound]
  | false =>
    cases kind with
    | single => constructor <;> grind -ring -linarith [Sound]
    | batch => constructor <;> grind -ring -linarith [Sound]

theorem sound_produce {error : Option PublishError} (h : Sound kind m)
    (hstage : m.stage = .producing) (hstep : m.produce error = some m') : Sound kind m' := by
  obtain ⟨hbroker, htimedOut, hdelivered⟩ := h.early (by rw [hstage]; rfl)
  unfold Delivery.produce at hstep
  split at hstep
  next =>
    rw [← Option.some.inj hstep]
    constructor <;> grind -ring -linarith [Sound]
  next => cases hstep
  next error hnot =>
    rw [← Option.some.inj hstep]
    constructor <;> grind -ring -linarith [Sound]

/-- The first dispatch of a late callback reports the delivery. -/
theorem dispatchLate_cases (h : Sound kind m) (succeeded : Bool) :
    (m.dispatchLate succeeded = m ∧ (m.late = false ∨ m.dispatched ≠ [])) ∨
      m.late = true ∧ m.dispatched = [] ∧ m.dispatchLate succeeded =
        { m with reconciliationDispatched := true, dispatched := [succeeded] } := by
  have hguarded := h.guarded
  unfold Delivery.dispatchLate
  by_cases hlate : m.late = false
  · rw [if_pos (.inl hlate)]
    exact .inl ⟨rfl, .inl hlate⟩
  · by_cases hdone : m.reconciliationDispatched = true
    · rw [if_pos (.inr hdone)]
      left
      refine ⟨rfl, .inr fun hnone => ?_⟩
      rw [hguarded.mpr hnone] at hdone
      cases hdone
    · right
      have hnone := hguarded.mp (by simpa using hdone)
      rw [if_neg (not_or.mpr ⟨hlate, hdone⟩), hnone]
      exact ⟨by simpa using hlate, rfl, rfl⟩

theorem sound_reconcile {inRace b : Bool} (h : Sound kind m)
    (hstage : m.stage = .reconciling inRace b) :
    Sound kind { (if inRace then m.dispatchLate b else m) with
      stage := .done
      raised := if kind = .single then some .uncertain
        else (if inRace then m.dispatchLate b else m).raised } := by
  have htimedOut := h.declared (by rw [hstage]; rfl)
  cases inRace with
  | false =>
    constructor <;> grind -ring -linarith [Sound]
  | true =>
    have hdelivered := h.race (by rw [hstage]; rfl)
    have hb := h.lateSucceeded b (.inr hstage)
    rcases dispatchLate_cases h b with ⟨hsame, hdone⟩ | ⟨hlate, hnone, hfirst⟩
    · simp only [if_true, hsame]
      constructor <;> grind -ring -linarith [Sound]
    · simp only [if_true, hfirst]
      constructor <;> grind -ring -linarith [Sound]

theorem Broker.unwritten_of_signalled {b : Broker} (h : b.signalled = true) :
    b.unwritten = false := by
  cases b with
  | unsent => rfl
  | inFlight => cases h
  | reported succeeded callback =>
    cases callback with
    | writing => cases h
    | setting => cases h
    | releasing => rfl
    | checking => rfl
    | finished => rfl

/-- What the thread reads as success, once it has seen the delivery, is the delivery's success. -/
theorem isNone_outcome (h : Sound kind m) (hdelivered : m.delivered = true)
    (hkept : m.overwritten kind = false) : m.outcome.isNone = m.broker.succeeded := by
  have hearly : m.stage.early = false := by
    cases hcase : m.stage.early with
    | false => rfl
    | true =>
      have hnot := (h.early hcase).2.2
      rw [hnot] at hdelivered
      cases hdelivered
  by_cases hbroker : m.broker = .unsent
  · have hunsent := h.unsent hbroker hearly
    have hsome : m.outcome ≠ none := by grind
    rw [hbroker, Option.isNone_eq_false_iff.mpr (Option.isSome_iff_ne_none.mpr hsome)]
    rfl
  · have hsignalled : m.broker.signalled = true := (h.signalled hbroker).symm.trans hdelivered
    have hverdict := h.verdict hbroker (Broker.unwritten_of_signalled hsignalled) hkept
    rw [Bool.eq_iff_iff, Option.isNone_iff_eq_none]
    exact hverdict

theorem Broker.unsettled_of_unsignalled {b : Broker} (hsent : b ≠ .unsent)
    (h : b.signalled = false) : b.settled = false := by
  cases b with
  | unsent => exact absurd rfl hsent
  | inFlight => rfl
  | reported succeeded callback =>
    cases callback with
    | writing => rfl
    | setting => rfl
    | releasing => cases h
    | checking => cases h
    | finished => cases h

private theorem unsettled_of_testing (h : Sound kind m) (hstage : m.stage = .testing)
    (hdelivered : m.delivered = false) : m.broker.settled = false := by
  have hsent : m.broker ≠ .unsent := by
    intro hbroker
    have hunsent := h.unsent hbroker (by rw [hstage]; rfl)
    rw [hstage, hdelivered] at hunsent
    split_ifs at hunsent
    · cases hunsent.1
    · cases hunsent.1
  exact Broker.unsettled_of_unsignalled hsent ((h.signalled hsent).symm.trans hdelivered)

theorem sound_testing (h : Sound kind m) (hstage : m.stage = .testing) :
    Sound kind { m with
      stage := if kind = .batch then .judging m.delivered
        else .reconciling m.delivered m.outcome.isNone } := by
  cases hdelivered : m.delivered with
  | false =>
    have howed := unsettled_of_testing h hstage hdelivered
    cases kind with
    | single => constructor <;> grind -ring -linarith [Sound]
    | batch => constructor <;> grind -ring -linarith [Sound]
  | true =>
    have hverdict := isNone_outcome h hdelivered (by grind)
    cases kind with
    | single => constructor <;> grind -ring -linarith [Sound]
    | batch => constructor <;> grind -ring -linarith [Sound]

theorem sound_judging {inRace : Bool} (h : Sound kind m) (hstage : m.stage = .judging inRace) :
    Sound kind { m with stage := .overwriting inRace m.outcome.isNone } := by
  cases inRace with
  | false => constructor <;> grind -ring -linarith [Sound]
  | true =>
    have hdelivered := h.race (by rw [hstage]; rfl)
    have hverdict := isNone_outcome h hdelivered (by grind)
    constructor <;> grind -ring -linarith [Sound]

theorem sound_overwriting {inRace b : Bool} (h : Sound kind m)
    (hstage : m.stage = .overwriting inRace b) :
    Sound kind { m with stage := .reconciling inRace b, outcome := some .uncertain } := by
  have hbatch := h.batches (by rw [hstage]; rfl)
  cases inRace with
  | false => constructor <;> grind -ring -linarith [Sound]
  | true => constructor <;> grind -ring -linarith [Sound]

theorem sound_refused {error : PublishError} (h : Sound kind m) (hstage : m.stage = .refused error) :
    Sound kind { m with
      stage := if kind = .batch then .recording error else .done
      raised := if kind = .batch then m.raised else some error
      released := m.released + 1 } := by
  obtain ⟨hbroker, htimedOut, hdelivered⟩ := h.early (by rw [hstage]; rfl)
  have hdefinite := h.definite error (.inl hstage)
  cases kind with
  | single => constructor <;> grind -ring -linarith [Sound]
  | batch => constructor <;> grind -ring -linarith [Sound]

theorem sound_recording {error : PublishError} (h : Sound kind m)
    (hstage : m.stage = .recording error) :
    Sound kind { m with stage := .signalling, outcome := some error } := by
  obtain ⟨hbroker, htimedOut, hdelivered⟩ := h.early (by rw [hstage]; rfl)
  constructor <;> grind -ring -linarith [Sound]

private theorem sound_signalling (h : Sound kind m) (hstage : m.stage = .signalling) :
    Sound kind { m with stage := .awaiting, delivered := true } := by
  obtain ⟨hbroker, htimedOut, hdelivered⟩ := h.early (by rw [hstage]; rfl)
  constructor <;> grind -ring -linarith [Sound]

theorem sound_awaiting (h : Sound kind m) (hstage : m.stage = .awaiting)
    (hdelivered : m.delivered = true) :
    Sound kind { m with
      stage := .done
      raised := if kind = .batch then m.raised else m.outcome } := by
  cases kind with
  | single => constructor <;> grind -ring -linarith [Sound]
  | batch => constructor <;> grind -ring -linarith [Sound]

theorem sound_thread (h : Sound kind m) (hstep : m.thread kind = some m') : Sound kind m' := by
  unfold Delivery.thread at hstep
  split at hstep
  next error hstage =>
    rw [← Option.some.inj hstep]
    exact sound_refused h hstage
  next error hstage =>
    rw [← Option.some.inj hstep]
    exact sound_refused h hstage
  next error hstage =>
    rw [← Option.some.inj hstep]
    exact sound_recording h hstage
  next hstage =>
    rw [← Option.some.inj hstep]
    exact sound_signalling h hstage
  next hstage =>
    split_ifs at hstep with hdelivered
    rw [← Option.some.inj hstep]
    exact sound_awaiting h hstage hdelivered
  next hstage =>
    split_ifs at hstep with hdelivered
    rw [← Option.some.inj hstep]
    exact sound_awaiting h hstage hdelivered
  next hstage =>
    rw [← Option.some.inj hstep]
    exact sound_testing h hstage
  next hstage =>
    rw [← Option.some.inj hstep]
    exact sound_testing h hstage
  next inRace hstage =>
    rw [← Option.some.inj hstep]
    exact sound_judging h hstage
  next inRace b hstage =>
    rw [← Option.some.inj hstep]
    exact sound_overwriting h hstage
  next inRace b hstage =>
    rw [← Option.some.inj hstep]
    exact sound_reconcile h hstage
  next => cases hstep

theorem sound_timeout (h : Sound kind m) (hstage : m.stage = .awaiting)
    (hwait : kind = .batch ∨ m.delivered = false) :
    Sound kind { m with timedOut := true, stage := .testing } := by
  constructor <;> grind -ring -linarith [Sound]

theorem sound_report (h : Sound kind m) (hbroker : m.broker = .inFlight) (succeeded : Bool) :
    Sound kind { m with broker := .reported succeeded .writing } := by
  constructor <;> grind -ring -linarith [Sound]

private theorem sound_checking {succeeded : Bool} (h : Sound kind m)
    (hbroker : m.broker = .reported succeeded .checking) :
    Sound kind { (if m.timedOut then m.dispatchLate succeeded else m) with
      broker := .reported succeeded .finished } := by
  cases htimedOut : m.timedOut with
  | false => constructor <;> grind -ring -linarith [Sound]
  | true =>
    rcases dispatchLate_cases h succeeded with ⟨hsame, hdone⟩ | ⟨hlate, hnone, hfirst⟩
    · simp only [if_true, hsame]
      constructor <;> grind -ring -linarith [Sound]
    · simp only [if_true, hfirst]
      constructor <;> grind -ring -linarith [Sound]

private theorem stage_of_sent (h : Sound kind m) (hsent : m.broker ≠ .unsent) :
    m.stage.early = false ∧ m.stage.holdsSlot = false := by
  cases hstage : m.stage <;> grind -ring -linarith [Sound]

/-- A callback that does not write over the uncertain outcome leaves the message sound. -/
theorem sound_onDelivery (h : Sound kind m) (hok : m.overwrites kind .callback = false)
    (hstep : m.onDelivery = some m') : Sound kind m' := by
  unfold Delivery.overwrites at hok
  unfold Delivery.onDelivery at hstep
  split at hstep
  next hbroker =>
    rw [← Option.some.inj hstep]
    constructor <;> grind -ring -linarith [Sound]
  next hbroker =>
    rw [← Option.some.inj hstep]
    constructor <;> grind -ring -linarith [Sound]
  next succeeded hbroker =>
    rw [← Option.some.inj hstep]
    constructor <;> grind -ring -linarith [Sound]
  next succeeded hbroker =>
    obtain ⟨hearly, hslot⟩ := stage_of_sent h (by rw [hbroker]; simp)
    rw [← Option.some.inj hstep]
    constructor <;> grind -ring -linarith [Sound]
  next succeeded hbroker =>
    rw [← Option.some.inj hstep]
    exact sound_checking h hbroker
  next => cases hstep

theorem sound_advance {mv : Move} (h : Sound kind m) (hok : m.overwrites kind mv = false)
    (hstep : m.advance kind mv = some m') : Sound kind m' := by
  unfold Delivery.advance at hstep
  cases mv with
  | acquire granted =>
    dsimp only at hstep
    split_ifs at hstep with hstage
    rw [← Option.some.inj hstep]
    exact sound_acquire h hstage granted
  | produce error =>
    dsimp only at hstep
    split_ifs at hstep with hstage
    exact sound_produce h hstage hstep
  | thread => exact sound_thread h hstep
  | timeout =>
    dsimp only at hstep
    split_ifs at hstep with hwait
    rw [← Option.some.inj hstep]
    exact sound_timeout h hwait.1 hwait.2
  | report succeeded =>
    dsimp only at hstep
    split_ifs at hstep with hbroker
    rw [← Option.some.inj hstep]
    exact sound_report h hbroker succeeded
  | callback => exact sound_onDelivery h hok hstep

/-! ### The call -/

/-- What the caller reads of a message tells what its late callback was told. -/
structure Reconciled (answer : Option PublishError) (m : Delivery) : Prop where
  late : m.late = true → answer = some .uncertain → m.broker.settled = true →
    m.dispatched = [m.broker.succeeded]
  never : answer ≠ some .uncertain → m.dispatched = []
  once : m.dispatched.length ≤ 1

/-- The slot of a message is given back once, when its delivery is settled. -/
structure SlotKept (m : Delivery) : Prop where
  acquired : m.acquired ≤ 1
  released : m.released ≤ m.acquired
  returned : m.stage = .done → m.broker.settled = true → m.released = m.acquired

namespace Call
variable {c c' : Call}

/-- The step writes over the uncertain outcome of a message. -/
def overwrites (c : Call) : Event → Bool
  | .move index mv =>
    match c.deliveries[index]? with
    | some m => m.overwrites c.kind mv
    | none => false
  | .ret => false

/-- Every message is sound, and what was returned is what the messages still say. -/
structure Coherent (c : Call) : Prop where
  sound : ∀ m ∈ c.deliveries, Sound c.kind m
  answered : ∀ answers, c.answers = some answers →
    answers = c.deliveries.map (reading c.kind) ∧ ∀ m ∈ c.deliveries, m.stage = .done

theorem uncertain_iff (h : Sound kind m) (hdone : m.stage = .done) :
    reading kind m = some .uncertain ↔ m.timedOut = true := by
  cases kind with
  | single => exact h.raised rfl hdone
  | batch =>
    have hoverwritten : m.overwritten .batch = m.timedOut := by
      unfold Delivery.overwritten
      rw [hdone]
      simp
    constructor
    · intro hread
      cases htimedOut : m.timedOut with
      | true => rfl
      | false => exact absurd hread (h.certain (hoverwritten.trans htimedOut))
    · intro htimedOut
      exact h.uncertain (hoverwritten.trans htimedOut)

private theorem reading_of_done {mv : Move} (h : Sound kind m) (hdone : m.stage = .done)
    (hok : m.overwrites kind mv = false) (hstep : m.advance kind mv = some m') :
    reading kind m' = reading kind m ∧ m'.stage = .done := by
  cases mv with
  | acquire granted => simp [Delivery.advance, hdone] at hstep
  | produce error => simp [Delivery.advance, hdone] at hstep
  | thread => simp [Delivery.advance, Delivery.thread, hdone] at hstep
  | timeout => simp [Delivery.advance, hdone] at hstep
  | report succeeded =>
    simp only [Delivery.advance] at hstep
    split_ifs at hstep
    rw [← Option.some.inj hstep]
    cases kind with
    | single => exact ⟨rfl, hdone⟩
    | batch => exact ⟨rfl, hdone⟩
  | callback =>
    simp only [Delivery.advance] at hstep
    unfold Delivery.onDelivery at hstep
    split at hstep
    next =>
      rw [← Option.some.inj hstep]
      cases kind with
      | single => exact ⟨rfl, hdone⟩
      | batch => exact ⟨rfl, hdone⟩
    next hbroker =>
      cases kind with
      | single => rw [← Option.some.inj hstep]; exact ⟨rfl, hdone⟩
      | batch =>
        -- the thread saw the delivery, or its timeout wrote the outcome that must not be lost
        exfalso
        cases htimedOut : m.timedOut with
        | true => simp [Delivery.overwrites, Delivery.overwritten, hdone, htimedOut, hbroker] at hok
        | false =>
          have hsent : m.broker ≠ .unsent := by simp [hbroker]
          have hdelivered := h.awaited hdone htimedOut hsent
          rw [h.signalled hsent, hbroker] at hdelivered
          cases hdelivered
    next =>
      rw [← Option.some.inj hstep]
      cases kind with
      | single => exact ⟨rfl, hdone⟩
      | batch => exact ⟨rfl, hdone⟩
    next =>
      rw [← Option.some.inj hstep]
      cases kind with
      | single => exact ⟨rfl, hdone⟩
      | batch => exact ⟨rfl, hdone⟩
    next succeeded _ =>
      have hsame : (m.dispatchLate succeeded).raised = m.raised ∧
          (m.dispatchLate succeeded).outcome = m.outcome ∧
          (m.dispatchLate succeeded).stage = m.stage := by
        unfold Delivery.dispatchLate
        split_ifs
        · exact ⟨rfl, rfl, rfl⟩
        · exact ⟨rfl, rfl, rfl⟩
      obtain ⟨hraised, houtcome, hstage⟩ := hsame
      rw [← Option.some.inj hstep]
      cases htimedOut : m.timedOut with
      | false =>
        cases kind with
        | single => exact ⟨rfl, hdone⟩
        | batch => exact ⟨rfl, hdone⟩
      | true =>
        cases kind with
        | single => exact ⟨hraised, hstage.trans hdone⟩
        | batch => exact ⟨houtcome, hstage.trans hdone⟩
    next => cases hstep

theorem coherent_step {e : Event} (h : Coherent c) (hok : c.overwrites e = false)
    (hstep : c.step e = some c') : Coherent c' := by
  cases e with
  | move index mv =>
    unfold Call.step at hstep
    dsimp only [overwrites] at hok
    cases hget : c.deliveries[index]? with
    | none => simp [hget] at hstep
    | some m =>
      simp only [hget] at hstep hok
      split_ifs at hstep
      obtain ⟨m', hadvance, heq⟩ := Option.map_eq_some_iff.mp hstep
      have hm : m ∈ c.deliveries := List.mem_of_getElem? hget
      have hsound := h.sound m hm
      rw [← heq]
      constructor
      case sound =>
        intro x hx
        rcases List.mem_or_eq_of_mem_set hx with hold | rfl
        · exact h.sound x hold
        · exact sound_advance hsound hok hadvance
      case answered =>
        intro answers hanswers
        obtain ⟨hlist, hdone⟩ := h.answered answers hanswers
        obtain ⟨hsame, hstage⟩ := reading_of_done hsound (hdone m hm) hok hadvance
        constructor
        · dsimp only
          rw [List.map_set, hsame, hlist]
          apply List.ext_getElem?
          intro i
          rw [List.getElem?_set]
          by_cases hi : index = i
          · subst hi
            obtain ⟨hlt, -⟩ := List.getElem?_eq_some_iff.mp hget
            rw [if_pos rfl, if_pos (by simpa using hlt), List.getElem?_map, hget]
            rfl
          · rw [if_neg hi]
        · intro x hx
          rcases List.mem_or_eq_of_mem_set hx with hold | rfl
          · exact hdone x hold
          · exact hstage
  | ret =>
    simp only [Call.step] at hstep
    split_ifs at hstep with hdone
    rw [← Option.some.inj hstep]
    exact ⟨h.sound, fun answers hanswers => ⟨(Option.some.inj hanswers).symm, hdone.2⟩⟩

private theorem reconciled_of_sound (h : Sound kind m) (hdone : m.stage = .done) :
    Reconciled (reading kind m) m := by
  have huncertain := uncertain_iff h hdone
  constructor
  case late =>
    intro hlate hread hsettled
    rcases h.dispatched with hnone | ⟨hone, -⟩
    · -- nothing else is left that could dispatch it
      have howed := h.owed hlate (huncertain.mp hread) hnone
      rw [hdone, hsettled] at howed
      simp [Stage.racing] at howed
    · exact hone
  case never =>
    intro hread
    rcases h.dispatched with hnone | ⟨-, -, htimedOut, -⟩
    · exact hnone
    · exact absurd (huncertain.mpr htimedOut) hread
  case once =>
    rcases h.dispatched with hnone | ⟨hone, -⟩
    · simp [hnone]
    · simp [hone]

private theorem slotKept_of_sound (h : Sound kind m) : SlotKept m where
  acquired := h.acquired
  released := by
    have hslots := h.slots
    omega
  returned hdone hsettled := by
    have hslots := h.slots
    have hfree : m.broker.holdsSlot = false := by
      cases hbroker : m.broker with
      | unsent => rfl
      | inFlight => rw [hbroker] at hsettled; cases hsettled
      | reported succeeded callback =>
        rw [hbroker] at hsettled
        cases callback with
        | finished => rfl
        | writing => cases hsettled
        | setting => cases hsettled
        | releasing => cases hsettled
        | checking => cases hsettled
    rw [hdone, hfree] at hslots
    exact hslots

/-- In every run in which no error callback writes over the uncertain outcome of a timed-out batch
message, the answers of the call stay what they were, each uncertain one is reconciled once with
the fate of its delivery and no other one is, and every slot is given back once. -/
theorem late_delivery_once {start : Call} {events : List Event}
    (hstart : (∃ late, start = single late) ∨ ∃ lates, start = batch lates)
    (hok : Guarded step (fun c e => c.overwrites e = false) start events)
    (hrun : run step start events = some c) :
    (∀ answers, c.answers = some answers → answers = c.deliveries.map (reading c.kind) ∧
      ∀ m ∈ c.deliveries, Reconciled (reading c.kind m) m) ∧
    ∀ m ∈ c.deliveries, SlotKept m := by
  have hfresh : Coherent start := by
    rcases hstart with ⟨late, rfl⟩ | ⟨lates, rfl⟩
    · refine ⟨fun m hm => ?_, fun answers hanswers => ?_⟩
      · rw [List.mem_singleton.mp hm]
        exact sound_init .single late
      · cases hanswers
    · refine ⟨fun m hm => ?_, fun answers hanswers => ?_⟩
      · obtain ⟨late, -, rfl⟩ := List.mem_map.mp hm
        exact sound_init .batch late
      · cases hanswers
  have hcoherent : Coherent c :=
    guarded_invariant (fun _ _ _ h hok hs => coherent_step h hok hs) hfresh hok hrun
  refine ⟨fun answers hanswers => ?_, fun m hm => slotKept_of_sound (hcoherent.sound m hm)⟩
  obtain ⟨hlist, hdone⟩ := hcoherent.answered answers hanswers
  exact ⟨hlist, fun m hm => reconciled_of_sound (hcoherent.sound m hm) (hdone m hm)⟩

/-- A batch of two: the second message is delivered after its wait has timed out. -/
def lateSuccess : List Event :=
  [.move 0 (.acquire true), .move 0 (.produce none), .move 1 (.acquire true), .move 1 (.produce none),
    .move 0 (.report true), .move 0 .callback, .move 0 .callback, .move 0 .thread,
    .move 1 .timeout, .move 1 .thread, .move 1 .thread, .move 1 (.report true), .move 1 .callback,
    .move 1 .thread, .move 1 .thread, .ret, .move 1 .callback, .move 1 .callback, .move 1 .callback]

theorem late_delivery_once_late :
    ∃ c, run step (batch [true, true]) lateSuccess = some c ∧
      c.answers = some [none, some .uncertain] ∧ c.deliveries.map Delivery.dispatched = [[], [true]] ∧
      ∀ answers, c.answers = some answers → answers = c.deliveries.map (reading c.kind) ∧
        ∀ m ∈ c.deliveries, Reconciled (reading c.kind m) m :=
  ⟨_, (Option.some_get (by decide +kernel)).symm, by decide +kernel, by decide +kernel,
    (late_delivery_once (.inr ⟨[true, true], rfl⟩) (by decide +kernel)
      (Option.some_get (by decide +kernel)).symm).1⟩

/-- A batch message whose wait times out: the thread reads that the delivery is not reported yet. -/
def timingOut : List Event :=
  [.move 0 (.acquire true), .move 0 (.produce none), .move 0 .timeout, .move 0 .thread,
    .move 0 .thread, .move 0 .thread]

/-- The error callback of a timed-out batch message writes over its uncertain outcome: before the
call returns, so that a definite failure is reconciled, or after it, so that the list changes. -/
theorem not_late_delivery_once :
    (∃ c, run step (batch [true]) (timingOut ++ [.move 0 (.report false), .move 0 .callback,
        .move 0 .thread, .ret, .move 0 .callback, .move 0 .callback, .move 0 .callback]) = some c ∧
      c.answers = some [some .unavailable] ∧ c.deliveries.map Delivery.dispatched = [[false]]) ∧
    ∃ c, run step (batch [true]) (timingOut ++ [.move 0 .thread, .ret, .move 0 (.report false),
        .move 0 .callback]) = some c ∧
      c.answers = some [some .uncertain] ∧ c.deliveries.map (reading c.kind) = [some .unavailable] :=
  ⟨⟨_, (Option.some_get (by decide +kernel)).symm, by decide +kernel, by decide +kernel⟩,
    ⟨_, (Option.some_get (by decide +kernel)).symm, by decide +kernel, by decide +kernel⟩⟩

end Call

end Dispatcher

end FluxMeter.Custody
