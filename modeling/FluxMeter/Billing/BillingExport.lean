import FluxMeter.Keys.BillingPeriod

/-! `billing_export.py` in events mode: the usage of one linked customer since the last report goes
to every linked platform, and one watermark for all of them is moved when any of them reports. The
platforms' own books are part of the state. -/
namespace FluxMeter.Billing
open FluxMeter.Keys

inductive Platform
  | stripe
  | metronome
  | orb
  deriving DecidableEq

/-- `BILLING_EXPORT_PERIOD`. -/
inductive ExportPeriod
  | hourly
  | monthly
  deriving DecidableEq

/-- One customer, the platforms that it is linked to and that are targets, and the period. -/
structure ExportConfig where
  customerId : String
  linked : Platform → Bool
  period : ExportPeriod := .hourly

structure Counters where
  eventCount : ℤ := 0
  inputTokens : ℤ := 0
  outputTokens : ℤ := 0
  deriving DecidableEq

namespace Counters

def add (c d : Counters) : Counters :=
  ⟨c.eventCount + d.eventCount, c.inputTokens + d.inputTokens, c.outputTokens + d.outputTokens⟩

/-- No counter of `c` is above its counter of `d`. -/
def AtMost (c d : Counters) : Prop :=
  c.eventCount ≤ d.eventCount ∧ c.inputTokens ≤ d.inputTokens ∧ c.outputTokens ≤ d.outputTokens

end Counters

/-- The watermark under `billing:{customer}:last_reported_*`, and what the platforms have
accepted: Stripe's meter, Metronome's events with their transaction ids, Orb's events with their
idempotency keys. -/
structure Books where
  lastReported : Counters := {}
  stripe : ℤ := 0
  metronome : Counters := {}
  metronomeIds : List String := []
  orbInput : ℤ := 0
  orbOutput : ℤ := 0
  orbKeys : List String := []
  deriving DecidableEq

/-- `strftime("%Y%m%d%H")` in UTC. -/
def hourUtc (now : ℤ) : String :=
  let d := utcDate (now * 1000)
  padded 4 d.year ++ padded 2 d.month ++ padded 2 d.day ++ padded 2 (now / 3600 % 24)

def idempotencyKey (cfg : ExportConfig) (now : ℤ) : String :=
  let period := match cfg.period with
    | .monthly => monthUtc (now * 1000)
    | .hourly => hourUtc now
  "fluxmeter-" ++ cfg.customerId ++ "-" ++ period ++ "-events"

/-- One `MeterEvent.create`: it returns, or it raises, with or without the event being accepted
and with a status that is retried or not. -/
inductive StripeAttempt
  | done
  | raised (accepted retried : Bool)
  deriving DecidableEq

/-- One ingest request: it returns, its reply is lost after the platform accepted it, or it fails. -/
inductive Reply
  | done
  | lost
  | failed
  deriving DecidableEq

/-- The platform accepts the request. -/
def Reply.arrives (r : Reply) : Bool := r ≠ .failed

/-- One export cycle of the customer: its time, the counters it reads and what the requests do. -/
structure Cycle where
  now : ℤ
  counters : Counters
  stripe : ℕ → StripeAttempt := fun _ => .done
  metronome : Reply := .done
  orb : Reply := .done

/-- `_stripe_retry` from an attempt on, with the attempts that are left: how many events are
created, and whether the call returns. -/
def stripeRetry (attempts : ℕ → StripeAttempt) : ℕ → ℕ → ℕ × Bool
  | _, 0 => (0, false)
  | attempt, left + 1 =>
    match attempts attempt with
    | .done => (1, true)
    | .raised accepted retried =>
      let created := if accepted then 1 else 0
      if !retried then (created, false)
      else
        let rest := stripeRetry attempts (attempt + 1) left
        (created + rest.1, rest.2)

/-- The deltas of `collect_customer_usage`. -/
def newUsage (s : Books) (counters : Counters) : Counters where
  eventCount := max 0 (counters.eventCount - s.lastReported.eventCount)
  inputTokens := max 0 (counters.inputTokens - s.lastReported.inputTokens)
  outputTokens := max 0 (counters.outputTokens - s.lastReported.outputTokens)

def hasExportableDelta (usage : Counters) : Bool :=
  0 < usage.eventCount || 0 < usage.inputTokens || 0 < usage.outputTokens

/-- A platform that knows the key ignores the event. -/
def accepts (key : String) (known : List String) (reply : Reply) : Bool :=
  reply.arrives && key ∉ known

/-- The Stripe part of `export_customer_to_targets`, with whether it reports. -/
def exportStripe (cfg : ExportConfig) (c : Cycle) (usage : Counters) (s : Books) : Books × Bool :=
  if cfg.linked .stripe && 0 < usage.eventCount then
    let (created, returns) := stripeRetry c.stripe 0 3
    ({ s with stripe := s.stripe + created * usage.eventCount }, returns)
  else (s, false)

/-- `report_to_metronome`; without new events or input tokens nothing is sent. -/
def exportMetronome (cfg : ExportConfig) (c : Cycle) (usage : Counters) (s : Books) : Books × Bool :=
  let key := idempotencyKey cfg c.now
  if !cfg.linked .metronome then (s, false)
  else if usage.eventCount ≤ 0 ∧ usage.inputTokens ≤ 0 then (s, true)
  else
    (if accepts key s.metronomeIds c.metronome then
        { s with metronome := s.metronome.add usage, metronomeIds := key :: s.metronomeIds }
      else s, c.metronome = .done)

/-- One event of a batch to Orb. -/
def orbEvent (key : String) (reply : Reply) (tokens : ℤ) (total : ℤ) (keys : List String) :
    ℤ × List String :=
  if 0 < tokens && accepts key keys reply then (total + tokens, key :: keys) else (total, keys)

/-- `report_to_orb`; without new tokens nothing is sent. -/
def exportOrb (cfg : ExportConfig) (c : Cycle) (usage : Counters) (s : Books) : Books × Bool :=
  let key := idempotencyKey cfg c.now
  if !cfg.linked .orb then (s, false)
  else if usage.inputTokens ≤ 0 ∧ usage.outputTokens ≤ 0 then (s, true)
  else
    let (input, keys₁) := orbEvent (key ++ "-input") c.orb usage.inputTokens s.orbInput s.orbKeys
    let (output, keys₂) := orbEvent (key ++ "-output") c.orb usage.outputTokens s.orbOutput keys₁
    ({ s with orbInput := input, orbOutput := output, orbKeys := keys₂ }, c.orb = .done)

/-- The three parts in their order, with what each of them reports. -/
def exportTargets (cfg : ExportConfig) (c : Cycle) (usage : Counters) (s : Books) :
    Books × (Platform → Bool) :=
  let (s₁, stripe) := exportStripe cfg c usage s
  let (s₂, metronome) := exportMetronome cfg c usage s₁
  let (s₃, orb) := exportOrb cfg c usage s₂
  (s₃, fun p => match p with
    | .stripe => stripe
    | .metronome => metronome
    | .orb => orb)

/-- `export_customer_to_targets` of a customer whose usage was collected: the books, and which
platforms report. -/
def exportCustomer (cfg : ExportConfig) (s : Books) (c : Cycle) : Books × (Platform → Bool) :=
  let usage := newUsage s c.counters
  if !hasExportableDelta usage then (s, fun _ => false)
  else
    let (sent, reported) := exportTargets cfg c usage s
    -- `mark_customer_reported`
    (if reported .stripe || reported .metronome || reported .orb then
        { sent with lastReported := c.counters }
      else sent, reported)

def exportAll (cfg : ExportConfig) (s : Books) (cycles : List Cycle) : Books :=
  cycles.foldl (fun s c => (exportCustomer cfg s c).1) s

end FluxMeter.Billing
