import FluxMeter.Job.Deserializer
import FluxMeter.Job.WindowAttribution
import FluxMeter.Keys.BillingPeriod

/-! The billing pipeline of `TokenUsageAggregator.java`, one decoded event after another. The keyed
states and the Redis guards are read within their time to live, and a fired window is kept: the
late check of the window operator admits no event to it. -/
namespace FluxMeter.Job
open FluxMeter.Keys FluxMeter.Model

structure MonthlyVolumeMeter where
  monthlyTokens : ℤ := 0
  billingPeriod : Option String := none
  deriving DecidableEq

namespace MonthlyVolumeMeter

def rollPeriodIfNeeded (m : MonthlyVolumeMeter) (timestamp : ℤ) : MonthlyVolumeMeter :=
  if m.billingPeriod = some (monthUtc timestamp) then m
  else { monthlyTokens := 0, billingPeriod := some (monthUtc timestamp) }

def tokensBefore (m : MonthlyVolumeMeter) (timestamp : ℤ) : ℤ :=
  (m.rollPeriodIfNeeded timestamp).monthlyTokens

def advance (m : MonthlyVolumeMeter) (timestamp totalTokens : ℤ) : MonthlyVolumeMeter :=
  let rolled := m.rollPeriodIfNeeded timestamp
  { rolled with monthlyTokens := wrap64 (rolled.monthlyTokens + totalTokens) }

end MonthlyVolumeMeter

/-- `isHeartbeat`. -/
def isHeartbeat (e : TokenEvent) : Bool :=
  match e.metadata with
  | some metadata => metadata.lookup "_heartbeat" = some "true"
  | none => false

/-- `LateEventRouter.isLate`. -/
def isLate (timestamp watermark windowMillis : ℤ) : Bool :=
  watermark ≠ -(2 ^ 63) ∧ wrap64 ((timestamp / windowMillis + 1) * windowMillis) ≤ watermark

/-- `EventDeduplicator.processElement`: the keyed states after an event that is passed on. -/
def deduplicate (seen : List String) (e : TokenEvent) : Option (List String) :=
  match e.eventId with
  | some id => if id ∈ seen then none else some (id :: seen)
  | none => some seen

/-- `EventProjectionSink.projectionKey`. -/
def projectionKey (sha256 : String → String) (eventId : Option String) : String :=
  "projection:" ++ sha256 (TokenEvent.orNull eventId)

structure Aggregator where
  windows : TumblingWindows
  /-- The late check of Flink's window operator, of a timestamp against a watermark. -/
  windowLate : ℤ → ℤ → Bool
  price : UsageAggregate.Pricing
  sha256 : String → String

/-- The state of every operator and sink, and which messages reached the sinks. -/
structure Pipeline (ι : Type*) where
  seen : List String := []
  meters : String → MonthlyVolumeMeter := fun _ => {}
  projectionKeys : List String := []
  windows : String × ℤ → UsageAggregate := fun _ => {}
  probes : List (Option String) := []
  deadLetters : List ι := []
  projected : List ι := []
  counted : List ι := []

namespace Pipeline
variable {ι : Type*}

/-- `EventProjectionSink.apply`: the script runs to its end when it sets the guard. -/
def project (A : Aggregator) (i : ι) (e : TokenEvent) (s : Pipeline ι) : Pipeline ι :=
  let key := projectionKey A.sha256 e.eventId
  if key ∈ s.projectionKeys then s
  else { s with projectionKeys := key :: s.projectionKeys, projected := i :: s.projected }

def windowOf (A : Aggregator) (e : TokenEvent) : String × ℤ :=
  (e.getAggregationKey, A.windows.start e.timestamp)

/-- The accumulator has the event id already. -/
def isDuplicate (acc : UsageAggregate) (e : TokenEvent) : Bool :=
  match e.eventId with
  | some id => id ∈ acc.seenEventIds
  | none => false

/-- `aggregate` of the window operator. -/
def addToWindow (A : Aggregator) (watermark : ℤ) (i : ι) (e : TokenEvent) (monthlyBefore : ℤ)
    (s : Pipeline ι) : Pipeline ι :=
  if A.windowLate e.timestamp watermark then { s with deadLetters := i :: s.deadLetters }
  else
    let acc := s.windows (windowOf A e)
    { s with
      windows := Function.update s.windows (windowOf A e) (acc.addEvent A.price e monthlyBefore)
      counted := if isDuplicate acc e then s.counted else i :: s.counted }

/-- An event that is neither a duplicate nor late: `MonthlyVolumeStampFunction`, then the
projection and the window. The stamped volume goes along as a number. -/
def bill (A : Aggregator) (watermark : ℤ) (i : ι) (e : TokenEvent) (s : Pipeline ι) :
    Pipeline ι :=
  let meter := s.meters e.getAggregationKey
  let advanced := meter.advance e.timestamp e.getTotalTokens
  let stamped :=
    { s with meters := Function.update s.meters e.getAggregationKey advanced }
  addToWindow A watermark i e (meter.tokensBefore e.timestamp) (project A i e stamped)

/-- One event from the source to the sinks. -/
def process (A : Aggregator) (watermark : ℤ) (i : ι) (e : TokenEvent) (s : Pipeline ι) :
    Pipeline ι :=
  if e.malformedEnvelope then { s with deadLetters := i :: s.deadLetters }
  else if e.customerId.isNone || e.modelId.isNone then s
  else if isHeartbeat e then { s with probes := e.eventId :: s.probes }
  else
    match deduplicate s.seen e with
    | none => s
    | some seen =>
      if !e.authorizedReplay && isLate e.timestamp watermark A.windows.size then
        { s with seen := seen, deadLetters := i :: s.deadLetters }
      else bill A watermark i e { s with seen := seen }

end Pipeline

end FluxMeter.Job
