import FluxMeter.Budget.BudgetEnforcerSink
import FluxMeter.Budget.Ledger
import FluxMeter.Pricing.PricingCatalog

/-! `EventProjectionSink.java`: the counters of one event that no window aggregate can
reconstruct, written in one script under the `projection:` guard. -/
namespace FluxMeter.Usage
open FluxMeter.Budget FluxMeter.Keys FluxMeter.Model FluxMeter.Pricing

/-- The store that the two sinks share with the usage endpoints. -/
structure Keyspace extends Redis where
  /-- The guards `projection:{sha256}`. -/
  projected : String → Bool := fun _ => false
  /-- Plain text values under their rendered keys. -/
  texts : String → Option String := fun _ => none
  /-- The sorted sets `{customer}:spans`, best first. -/
  ranked : String → List (String × ℚ) := fun _ => []

/-- The key arguments of the script; `noop` is `none`. -/
structure ProjectionKeys where
  projection : String
  session : Option String
  modelRollup : String
  package : String
  apiKeyDay : Option String
  apiKeyMonth : Option String
  /-- The window whose reservation set takes the reservation of the event. -/
  window : Option String
  dims : List String
  deriving DecidableEq

structure ProjectionArgs where
  inputTokens : ℤ
  outputTokens : ℤ
  totalTokens : ℤ
  cacheReadTokens : ℤ
  reasoningTokens : ℤ
  costUsd : ℚ
  customerId : String
  reservationId : String
  clock : String
  deriving DecidableEq

section Script
variable (u : UsageStore) (a : ProjectionArgs)

def sessionCounters (key : String) : UsageStore :=
  ((((((u.incrBy (key ++ ":input_tokens") a.inputTokens).incrBy
    (key ++ ":output_tokens") a.outputTokens).incrBy
    (key ++ ":total_tokens") a.totalTokens).incrBy
    (key ++ ":event_count") 1).incrByFloat
    (key ++ ":cost_usd") a.costUsd).incrByPositive
    (key ++ ":cache_read_tokens") a.cacheReadTokens).incrByPositive
    (key ++ ":reasoning_tokens") a.reasoningTokens

def sessionUsage (key : Option String) : UsageStore :=
  match key with
  | some key => sessionCounters u a key
  | none => u

def modelRollup (key : String) : UsageStore :=
  ((((u.hincrByFloat key "cost_usd" a.costUsd).hincrBy key "event_count" 1).hincrBy
    key "total_tokens" a.totalTokens).hincrBy
    key "input_tokens" a.inputTokens).hincrBy key "output_tokens" a.outputTokens

/-- A package pays for the tokens of the event; what it cannot pay becomes debt. -/
def drawPackage (key : String) : UsageStore :=
  match u.ints key with
  | none => u
  | some remaining =>
    let next := remaining - a.totalTokens
    if next < 0 then (u.incrBy (key ++ ":debt") (-next)).setInt key 0 else u.setInt key next

/-- The spending counter of an API key, where the event has one. -/
def spendApiKey (key : Option String) : UsageStore :=
  match key with
  | some key => u.incrByFloat key a.costUsd
  | none => u

/-- The totals of one metadata dimension. -/
def dimTotals (key : String) : UsageStore :=
  (u.incrByFloat (key ++ ":cost_usd") a.costUsd).incrBy (key ++ ":event_count") 1

end Script

/-- The counter writes of the script, in its order. -/
def projectUsage (u : UsageStore) (k : ProjectionKeys) (a : ProjectionArgs) : UsageStore :=
  let rolled := modelRollup (sessionUsage u a k.session) a k.modelRollup
  let drawn := drawPackage rolled a k.package
  let spent := spendApiKey (spendApiKey drawn a k.apiKeyDay) a k.apiKeyMonth
  k.dims.foldl (fun u key => dimTotals u a key) spent

/-- The texts the script sets: the customer of the session and the heartbeat. -/
def projectTexts (texts : String → Option String) (k : ProjectionKeys) (a : ProjectionArgs) :
    String → Option String :=
  let session := match k.session with
    | some key => Function.update texts (key ++ ":customer_id") (some a.customerId)
    | none => texts
  Function.update session "flink:heartbeat:last_processed_at" (some a.clock)

def attachToWindow (r : Redis) (k : ProjectionKeys) (a : ProjectionArgs) : Redis :=
  match k.window with
  | some window => attachReservation r a.reservationId window
  | none => r

/-- The script; the reply tells whether it ran. -/
def projectionScript (s : Keyspace) (k : ProjectionKeys) (a : ProjectionArgs) : Keyspace × Bool :=
  if s.projected k.projection then (s, false)
  else
    ({ s with
        projected := Function.update s.projected k.projection true
        toRedis := { attachToWindow s.toRedis k a with usage := projectUsage s.usage k a }
        texts := projectTexts s.texts k a }, true)

structure Projection where
  catalog : PricingCatalog
  sha256 : String → String
  /-- `FLUXMETER_USAGE_DIMS`, cut at the commas. -/
  allowedDimensions : List String
  /-- `WINDOW_SECONDS` in milliseconds. -/
  windowMillis : ℤ

namespace Projection
variable (P : Projection)

def projectionKey (eventId : Option String) : String :=
  "projection:" ++ P.sha256 (TokenEvent.orNull eventId)

/-- The receive time where the envelope has one, else the event time. -/
def accountingTime (e : TokenEvent) : ℤ := if 0 < e.receivedAt then e.receivedAt else e.timestamp

def windowStart (e : TokenEvent) : ℤ := wrap64 (e.timestamp / P.windowMillis * P.windowMillis)

/-- The prefixes of the dimensions of the event: all time, and its period. -/
def dims (e : TokenEvent) : List String :=
  ((e.metadata.getD []).filter fun entry =>
      entry.1 ∈ P.allowedDimensions ∧ isBlank entry.2 = false).flatMap fun entry =>
    ["dim:" ++ entry.1 ++ ":" ++ entry.2,
      "dim:" ++ entry.1 ++ ":" ++ entry.2 ++ ":period:" ++ monthUtc (accountingTime e)]

def keys (e : TokenEvent) : ProjectionKeys :=
  let period := monthUtc (accountingTime e)
  let customerId := TokenEvent.orNull e.customerId
  { projection := P.projectionKey e.eventId
    session := (e.sessionId.filter fun s => !isBlank s).map (scopePrefix e.tenantId "session")
    modelRollup := "rollup:" ++ customerId ++ ":model:" ++ P.catalog.normalizeModelId e.modelId ++
      ":period:" ++ period
    package := packageKey e.tenantId customerId
    apiKeyDay := e.apiKeyId.map fun k => "apikey:" ++ k ++ ":spent:d:" ++ dayUtc (accountingTime e)
    apiKeyMonth := e.apiKeyId.map fun k => "apikey:" ++ k ++ ":spent:m:" ++ period
    window := e.reservationId.map fun _ =>
      windowId e.tenantId customerId (TokenEvent.orNull e.modelId) (P.windowStart e)
    dims := P.dims e }

/-- The arguments of the script; `monthlyBefore` is the volume stamped on the event. -/
def args (e : TokenEvent) (monthlyBefore : ℤ) (clock : String) : ProjectionArgs where
  inputTokens := e.inputTokens
  outputTokens := e.outputTokens
  totalTokens := e.getTotalTokens
  cacheReadTokens := e.cacheReadTokens
  reasoningTokens := e.reasoningTokens
  costUsd := (P.catalog.calculateEventCostMicro e monthlyBefore : ℚ) / 1000000
  customerId := TokenEvent.orNull e.customerId
  reservationId := e.reservationId.getD ""
  clock := clock

/-- `EventProjectionSink.apply`. -/
def apply (s : Keyspace) (e : TokenEvent) (monthlyBefore : ℤ) (clock : String) :
    Keyspace × Bool :=
  projectionScript s (P.keys e) (P.args e monthlyBefore clock)

end Projection

/-- The window sink on the shared store. -/
def applyWindow (s : Keyspace) (agg : UsageAggregate) : Keyspace :=
  { s with toRedis := (invoke s.toRedis agg).1 }

end FluxMeter.Usage
