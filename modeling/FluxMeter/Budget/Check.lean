import FluxMeter.Budget.Account
import FluxMeter.Budget.BudgetEnforcerSink
import Mathlib.Data.Rat.Floor

/-! `Budget.check` of `budget.py`: the decision on the store, and on the process-wide cache where
Redis fails. -/
namespace FluxMeter.Budget
open FluxMeter.Keys

/-- One entry of `_SHARED_CACHE`. -/
structure CacheEntry where
  balance : ℚ
  held : ℚ
  ts : ℚ
  deriving DecidableEq, Repr

/-- The caps in the text under `apikey:meta:{key_id}`. -/
structure ApiKeyCaps where
  dailyBudgetUsd : Option ℚ
  monthlyBudgetUsd : Option ℚ
  deriving DecidableEq, Repr

/-- The store and the cache of the process. -/
structure Desk extends Redis where
  apiKeys : String → Option ApiKeyCaps := fun _ => none
  /-- `_SHARED_CACHE`, under the tenant or the empty text, and the customer. -/
  cache : String × String → Option CacheEntry := fun _ => none

structure ScopeDenial where
  scope : String
  scopeId : String
  spentUsd : ℚ
  scopeHeldUsd : ℚ
  maxCostUsd : ℚ
  deriving DecidableEq, Repr

structure KeyDenial where
  reason : String
  keyId : String
  spentUsd : ℚ
  budgetUsd : ℚ
  period : String
  deriving DecidableEq, Repr

structure Decision where
  allowed : Bool
  reason : String
  balanceUsd : Option ℚ := none
  heldUsd : Option ℚ := none
  effectiveBalanceUsd : Option ℚ := none
  requestsThisMinute : Option ℤ := none
  maxRpm : Option ℤ := none
  source : String
  hierarchy : Option ScopeDenial := none
  apiKey : Option KeyDenial := none
  deriving DecidableEq, Repr

structure CheckArgs where
  customerId : String
  estimatedCostUsd : ℚ := 0
  parentSpanId : Option String := none
  sessionId : Option String := none
  keyId : Option String := none
  countRequest : Bool := true
  /-- The readings of the clock: 0 for the minute, 1 for the cache entry, 2 in the fallback. -/
  clock : ℕ → ℚ
  /-- The time in milliseconds that the check of the API key reads. -/
  nowMs : ℤ := 0
  /-- `BUDGET_FAIL_POLICY` is `closed`. -/
  failClosed : Bool := true

/-- The command of a check that raises a `RedisError`: a read of the budget, of the snapshot, of
the caps or of the API key, or the counting, whose effect may have been kept. -/
inductive RedisFault
  | budget
  | snapshot
  | hierarchy
  | apiKey
  | counting (applied : Bool)
  deriving DecidableEq, Repr

/-- `int` of a float truncates toward zero. -/
def truncate (q : ℚ) : ℤ := if 0 ≤ q then ⌊q⌋ else ⌈q⌉

/-- An id that is not empty. -/
def given (id : Option String) : Option String := id.filter fun id => id ≠ ""

/-- The numbers of a session, whose keys the projection writes under the rendered prefix. -/
def sessionRow (u : UsageStore) (key : String) : SpanRow where
  heldUsd := u.floats (key ++ ":held_usd")
  costUsd := u.floats (key ++ ":cost_usd")
  maxCostUsd := u.floats (key ++ ":max_cost_usd")
  eventCount := u.ints (key ++ ":event_count")

/-- `scope_prefix_for_read` for sessions. -/
def sessionPrefixForRead (u : UsageStore) (tenantId : Option String) (sessionId : String) :
    String :=
  let preferred := Py.scopePrefix tenantId "session" sessionId
  let legacy := "session:" ++ sessionId
  if !Py.hasTenant tenantId then preferred
  else if (sessionRow u preferred).present then preferred
  else if (sessionRow u legacy).present then legacy
  else preferred

/-- One turn of the loop over the scopes; a scope without a cap denies nothing. -/
def scopeDenial (scope scopeId : String) (row : SpanRow) (estimate : ℚ) : Option ScopeDenial :=
  match row.maxCostUsd with
  | none => none
  | some maxCost =>
    let spent := number row.costUsd
    let held := number row.heldUsd
    if maxCost < spent + held + estimate then some ⟨scope, scopeId, spent, held, maxCost⟩ else none

/-- `_hierarchy_denial`: the span first, then the session. -/
def hierarchyDenial (s : Desk) (tenantId parentSpanId sessionId : Option String) (estimate : ℚ) :
    Option ScopeDenial :=
  let span := (given parentSpanId).bind fun id =>
    scopeDenial "span" id (s.spans (spanPrefixForRead s.toRedis tenantId id)) estimate
  let session := (given sessionId).bind fun id =>
    scopeDenial "session" id (sessionRow s.usage (sessionPrefixForRead s.usage tenantId id)) estimate
  span <|> session

/-- One cap of an API key against what the key has spent in the period. -/
def capDenial (s : Desk) (reason keyId mark period : String) (estimate : ℚ) (cap : Option ℚ) :
    Option KeyDenial :=
  cap.bind fun cap =>
    let spent := number (s.usage.floats ("apikey:" ++ keyId ++ ":spent:" ++ mark ++ ":" ++ period))
    if cap < spent + max estimate 0 then some ⟨reason, keyId, spent, cap, period⟩ else none

/-- `check_api_key_budget`. -/
def checkApiKeyBudget (s : Desk) (keyId : String) (estimate : ℚ) (nowMs : ℤ) : Option KeyDenial :=
  (s.apiKeys keyId).bind fun caps =>
    capDenial s "api_key_daily_budget" keyId "d" (dayUtc nowMs) estimate caps.dailyBudgetUsd <|>
      capDenial s "api_key_monthly_budget" keyId "m" (monthUtc nowMs) estimate caps.monthlyBudgetUsd

/-- `_increment_rate_limit` before a decision that allows, where the request counts; `none` is a
`RedisError`. -/
def countAllowed (s : Desk) (rpmKey : String) (a : CheckArgs) (fault : Option RedisFault)
    (d : Decision) : Desk × Option Decision :=
  if !a.countRequest then (s, some d)
  else
    let counted : Desk := { s with usage := s.usage.incrBy rpmKey 1 }
    match fault with
    | some (.counting applied) => (if applied then counted else s, none)
    | _ => (counted, some { d with requestsThisMinute := d.requestsThisMinute.map (· + 1) })

def cacheKey (tenantId : Option String) (customerId : String) : String × String :=
  (tenantId.getD "", customerId)

/-- The checks after the snapshot, which is cached first. -/
def checkSnapshot (s : Desk) (tenantId : Option String) (a : CheckArgs) (fault : Option RedisFault)
    (rpmKey : String) (requests : ℤ) (snap : Snapshot) : Desk × Option Decision :=
  let estimate := max 0 a.estimatedCostUsd
  let cached : Desk := { s with
    cache := Function.update s.cache (cacheKey tenantId a.customerId)
      (some ⟨snap.balanceUsd, snap.heldUsd, a.clock 1⟩) }
  let decide (allowed : Bool) (reason : String) : Decision :=
    { allowed
      reason
      balanceUsd := some snap.balanceUsd
      heldUsd := some snap.heldUsd
      effectiveBalanceUsd := some snap.effectiveBalanceUsd
      requestsThisMinute := some requests
      source := "redis" }
  if snap.effectiveBalanceUsd ≤ 0 then (cached, some (decide false "budget_exhausted"))
  else if snap.effectiveBalanceUsd < estimate then
    (cached, some (decide false "insufficient_balance"))
  else if fault = some .hierarchy ∧ (given a.parentSpanId <|> given a.sessionId).isSome then
    (cached, none)
  else
    match hierarchyDenial cached tenantId a.parentSpanId a.sessionId estimate with
    | some d => (cached, some { decide false "hierarchy_cap" with hierarchy := some d })
    | none =>
      if fault = some .apiKey ∧ (given a.keyId).isSome then (cached, none)
      else
        match (given a.keyId).bind fun id => checkApiKeyBudget cached id estimate a.nowMs with
        | some d => (cached, some { decide false d.reason with apiKey := some d })
        | none => countAllowed cached rpmKey a fault (decide true "ok")

/-- `_check_redis`; `none` is a `RedisError`. -/
def checkRedis (s : Desk) (tenantId : Option String) (a : CheckArgs) (fault : Option RedisFault) :
    Desk × Option Decision :=
  let budgetKey := budgetPrefixForRead s.toRedis tenantId a.customerId
  let writeKey := budgetPrefix tenantId a.customerId
  let rpmKey := Py.rateLimitKey tenantId a.customerId (truncate (a.clock 0) / 60)
  let requests := (s.usage.ints rpmKey).getD 0
  let maxRpm := ((s.budgets writeKey).maxRpm <|>
    if budgetKey ≠ writeKey then (s.budgets budgetKey).maxRpm else none).getD 0
  if fault = some .budget then (s, none)
  else if 0 < maxRpm ∧ maxRpm ≤ requests then
    (s, some { allowed := false, reason := "rate_limited", requestsThisMinute := some requests
               maxRpm := some maxRpm, source := "redis" })
  else if fault = some .snapshot then (s, none)
  else
    match (s.budgets budgetKey).snapshot a.customerId with
    | none =>
      countAllowed s rpmKey a fault
        { allowed := true, reason := "no_budget_configured", requestsThisMinute := some requests
          source := "redis" }
    | some snap => checkSnapshot s tenantId a fault rpmKey requests snap

/-- `CACHE_TTL_SECONDS`. -/
def cacheTtlSeconds : ℚ := 30

/-- `_check_fallback`. -/
def checkFallback (s : Desk) (tenantId : Option String) (a : CheckArgs) : Decision :=
  match (s.cache (cacheKey tenantId a.customerId)).filter fun e =>
      a.clock 2 - e.ts < cacheTtlSeconds with
  | some cached =>
    let estimate := max 0 a.estimatedCostUsd
    let effective := cached.balance - cached.held
    let allowed : Bool := 0 < effective ∧ estimate ≤ effective
    { allowed
      reason :=
        if allowed then "ok"
        else if effective ≤ 0 then "budget_exhausted" else "insufficient_balance"
      balanceUsd := some cached.balance
      heldUsd := some cached.held
      effectiveBalanceUsd := some effective
      source := "cache" }
  | none =>
    { allowed := !a.failClosed
      reason := "redis_unavailable_fail_" ++ if a.failClosed then "closed" else "open"
      source := "policy" }

/-- `Budget.check`. -/
def check (s : Desk) (tenantId : Option String) (a : CheckArgs) (fault : Option RedisFault) :
    Desk × Decision :=
  match checkRedis s (stripTenant tenantId) a fault with
  | (s', some d) => (s', d)
  | (s', none) => (s', checkFallback s' (stripTenant tenantId) a)

end FluxMeter.Budget
