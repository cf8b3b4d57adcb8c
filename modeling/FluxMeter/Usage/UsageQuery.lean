import FluxMeter.Usage.EventProjectionSink

/-! What the usage endpoints read: `usage_query.py`, `usage_buckets.py`, `rollup_store.py` and
`billing_dims.py`. Tenant prefixes fall back to the keys of the single-tenant mode. -/
namespace FluxMeter.Usage
open FluxMeter.Budget FluxMeter.Keys

/-- `int(value or 0)`. -/
def integer (v : Option ℤ) : ℤ := v.getD 0

/-- The preferred prefix, or a legacy one where only that one has been written. -/
def prefixForRead (tenantId : Option String) (preferred legacy : String) (written : String → Bool) :
    String :=
  if !Py.hasTenant tenantId then preferred
  else if written preferred then preferred
  else if written legacy then legacy
  else preferred

section Reads
variable (s : Keyspace) (tenantId : Option String)

def customerWritten (key : String) : Bool :=
  (s.usage.ints (key ++ ":total_tokens")).isSome ||
    (s.usage.floats (key ++ ":cost_usd")).isSome || !(s.ranked (key ++ ":spans")).isEmpty

def customerPrefixForRead (customerId : String) : String :=
  prefixForRead tenantId (Py.customerPrefix tenantId customerId) ("customer:" ++ customerId)
    (customerWritten s)

def globalWritten (ns : String) : Bool :=
  (s.usage.ints (ns ++ ":total_events")).isSome ||
    (s.usage.floats (ns ++ ":total_cost_usd")).isSome

def globalNsForRead : String :=
  prefixForRead tenantId (Py.inTenant tenantId "global") "global" (globalWritten s)

def scopeWritten (key : String) : Bool :=
  (s.usage.floats (key ++ ":cost_usd")).isSome || (s.usage.floats (key ++ ":held_usd")).isSome ||
    (s.usage.floats (key ++ ":max_cost_usd")).isSome ||
    (s.usage.ints (key ++ ":event_count")).isSome

/-- `scope_prefix_for_read` of a session. -/
def sessionPrefixForRead (sessionId : String) : String :=
  prefixForRead tenantId (Py.scopePrefix tenantId "session" sessionId) ("session:" ++ sessionId)
    (scopeWritten s)

structure GlobalUsage where
  totalEvents : ℤ
  totalTokens : ℤ
  inputTokens : ℤ
  outputTokens : ℤ
  totalCostUsd : ℚ
  lastWindowEnd : Option ℤ
  deriving DecidableEq

def getGlobal : GlobalUsage :=
  let ns := globalNsForRead s tenantId
  { totalEvents := integer (s.usage.ints (ns ++ ":total_events"))
    totalTokens := integer (s.usage.ints (ns ++ ":total_tokens"))
    inputTokens := integer (s.usage.ints (ns ++ ":input_tokens"))
    outputTokens := integer (s.usage.ints (ns ++ ":output_tokens"))
    totalCostUsd := number (s.usage.floats (ns ++ ":total_cost_usd"))
    lastWindowEnd := s.usage.ints (ns ++ ":last_window_end") }

structure UsageFields where
  totalTokens : ℤ
  inputTokens : ℤ
  outputTokens : ℤ
  cacheReadTokens : ℤ
  reasoningTokens : ℤ
  eventCount : ℤ
  costUsd : ℚ
  deriving DecidableEq

/-- The fields under one prefix, zero where they are missing. -/
def fieldsAt (key : String) : UsageFields where
  totalTokens := integer (s.usage.ints (key ++ ":total_tokens"))
  inputTokens := integer (s.usage.ints (key ++ ":input_tokens"))
  outputTokens := integer (s.usage.ints (key ++ ":output_tokens"))
  cacheReadTokens := integer (s.usage.ints (key ++ ":cache_read_tokens"))
  reasoningTokens := integer (s.usage.ints (key ++ ":reasoning_tokens"))
  eventCount := integer (s.usage.ints (key ++ ":event_count"))
  costUsd := number (s.usage.floats (key ++ ":cost_usd"))

/-- `get_customer`; `none` is a 404. -/
def getCustomer (customerId : String) : Option UsageFields :=
  let key := customerPrefixForRead s tenantId customerId
  (s.usage.ints (key ++ ":total_tokens")).map fun _ => fieldsAt s key

structure ModelUsage where
  totalTokens : ℤ
  inputTokens : ℤ
  outputTokens : ℤ
  costUsd : ℚ
  deriving DecidableEq

def getCustomerModel (customerId modelId : String) : Option ModelUsage :=
  let key := customerPrefixForRead s tenantId customerId ++ ":model:" ++ modelId
  (s.usage.ints (key ++ ":total_tokens")).map fun totalTokens =>
    { totalTokens
      inputTokens := integer (s.usage.ints (key ++ ":input_tokens"))
      outputTokens := integer (s.usage.ints (key ++ ":output_tokens"))
      costUsd := number (s.usage.floats (key ++ ":cost_usd")) }

def rollupMonthKey (customerId period : String) : String :=
  "rollup:" ++ customerId ++ ":period:" ++ period

def rollupDayKey (customerId date : String) : String := "rollup:" ++ customerId ++ ":d:" ++ date

def modelPeriodKey (customerId modelId period : String) : String :=
  "rollup:" ++ customerId ++ ":model:" ++ modelId ++ ":period:" ++ period

def periodCustomersIndex (period : String) : String := "idx:period:" ++ period ++ ":customers"

/-- `read_usage_bucket`; a bucket without events and tokens counts as missing. -/
def readUsageBucket (key : String) : Option UsageFields :=
  let data : UsageFields :=
    { totalTokens := integer (s.usage.hashInts key "total_tokens")
      inputTokens := integer (s.usage.hashInts key "input_tokens")
      outputTokens := integer (s.usage.hashInts key "output_tokens")
      cacheReadTokens := integer (s.usage.hashInts key "cache_read_tokens")
      reasoningTokens := integer (s.usage.hashInts key "reasoning_tokens")
      eventCount := integer (s.usage.hashInts key "event_count")
      costUsd := number (s.usage.hashFloats key "cost_usd") }
  if data.eventCount = 0 ∧ data.totalTokens = 0 then none else some data

/-- `list_customer_period_costs`, as the dictionary it returns: the index where it has members,
else the scan over the keys of four parts. -/
def listCustomerPeriodCosts (period customerId : String) : Option ℚ :=
  let cost := (readUsageBucket s (rollupMonthKey customerId period)).map UsageFields.costUsd
  let members := s.usage.sets (periodCustomersIndex period)
  if members ≠ [] then (if customerId ∈ members then cost else none)
  else if ':' ∈ customerId.toList ∨ ':' ∈ period.toList then none
  else cost

/-- `read_session`. -/
def readSession (sessionId : String) : Option (Option String × UsageFields) :=
  let key := sessionPrefixForRead s tenantId sessionId
  if (s.usage.floats (key ++ ":cost_usd")).isNone ∧ (s.usage.ints (key ++ ":event_count")).isNone then
    none
  else
    let data := fieldsAt s key
    if data.eventCount = 0 ∧ data.totalTokens = 0 then none
    else some (s.texts (key ++ ":customer_id"), data)

structure DimUsage where
  costUsd : ℚ
  eventCount : ℤ
  deriving DecidableEq

def dimBase (dimKey dimValue : String) (period : Option String) : String :=
  match period with
  | some period => "dim:" ++ dimKey ++ ":" ++ dimValue ++ ":period:" ++ period
  | none => "dim:" ++ dimKey ++ ":" ++ dimValue

/-- `read_dim_usage` of a dimension that `ALLOWED_DIMS` has. -/
def readDimUsage (dimKey dimValue : String) (period : Option String) : Option DimUsage :=
  let base := dimBase dimKey dimValue period
  let cost := s.usage.floats (base ++ ":cost_usd")
  let events := s.usage.ints (base ++ ":event_count")
  if cost.isNone ∧ events.isNone then none
  else some { costUsd := number cost, eventCount := integer events }

end Reads

inductive UsageQuery
  | global
  | customer (customerId : String)
  | customerModel (customerId modelId : String)
  | period (customerId period : String)
  | day (customerId date : String)
  | modelPeriod (customerId modelId period : String)
  | periodCosts (period customerId : String)
  | session (sessionId : String)
  | dim (dimKey dimValue : String) (period : Option String)
  deriving DecidableEq

inductive UsageAnswer
  | global (data : GlobalUsage)
  | fields (data : Option UsageFields)
  | model (data : Option ModelUsage)
  | cost (costUsd : Option ℚ)
  | session (data : Option (Option String × UsageFields))
  | dim (data : Option DimUsage)
  deriving DecidableEq

/-- The endpoints; `allowedDims` is the whitelist on the reading side. -/
def UsageQuery.answer (allowedDims : List String) (tenantId : Option String) (s : Keyspace) :
    UsageQuery → UsageAnswer
  | .global => .global (getGlobal s tenantId)
  | .customer c => .fields (getCustomer s tenantId c)
  | .customerModel c m => .model (getCustomerModel s tenantId c m)
  | .period c p => .fields (readUsageBucket s (rollupMonthKey c p))
  | .day c d => .fields (readUsageBucket s (rollupDayKey c d))
  | .modelPeriod c m p => .fields (readUsageBucket s (modelPeriodKey c m p))
  | .periodCosts p c => .cost (listCustomerPeriodCosts s p c)
  | .session i => .session (readSession s tenantId i)
  | .dim k v p => .dim (if k ∈ allowedDims then readDimUsage s k v p else none)

end FluxMeter.Usage
