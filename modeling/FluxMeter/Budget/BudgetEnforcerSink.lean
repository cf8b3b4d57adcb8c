import FluxMeter.Arithmetic.Binary64
import FluxMeter.Budget.Reservation
import FluxMeter.Keys.BillingPeriod
import FluxMeter.Model.UsageAggregate

/-! The window sink of `BudgetEnforcerSink.java`: usage counters, settlement of the attached
reservations and the deduction run in one script under the `applied:` guard. -/
namespace FluxMeter.Budget
open FluxMeter.Keys FluxMeter.Model

structure SinkKeys where
  windowId : String
  budget : BudgetKey
  customer : String
  model : String
  /-- Renders a global counter of the window's tenant. -/
  global : String → String
  periodVolume : String
  periodRollup : String
  dayRollup : String
  periodCustomers : String

structure SinkArgs where
  inputTokens : ℤ := 0
  outputTokens : ℤ := 0
  totalTokens : ℤ := 0
  eventCount : ℤ := 0
  costUsd : ℚ
  cacheReadTokens : ℤ := 0
  reasoningTokens : ℤ := 0
  alertPercent : ℚ := 1 / 10
  windowEnd : ℤ := 0
  customerId : String := ""

namespace UsageStore

def incrBy (u : UsageStore) (key : String) (n : ℤ) : UsageStore :=
  { u with ints := Function.update u.ints key (some ((u.ints key).getD 0 + n)) }

def incrByPositive (u : UsageStore) (key : String) (n : ℤ) : UsageStore :=
  if 0 < n then u.incrBy key n else u

def incrByFloat (u : UsageStore) (key : String) (q : ℚ) : UsageStore :=
  { u with floats := Function.update u.floats key (FluxMeter.Budget.incrByFloat (u.floats key) q) }

def setInt (u : UsageStore) (key : String) (n : ℤ) : UsageStore :=
  { u with ints := Function.update u.ints key (some n) }

def hincrBy (u : UsageStore) (key field : String) (n : ℤ) : UsageStore :=
  { u with
    hashInts := Function.update u.hashInts key
      (Function.update (u.hashInts key) field (some ((u.hashInts key field).getD 0 + n))) }

def hincrByFloat (u : UsageStore) (key field : String) (q : ℚ) : UsageStore :=
  { u with
    hashFloats := Function.update u.hashFloats key
      (Function.update (u.hashFloats key) field
        (FluxMeter.Budget.incrByFloat (u.hashFloats key field) q)) }

def sadd (u : UsageStore) (key member : String) : UsageStore :=
  { u with
    sets := Function.update u.sets key
      (if member ∈ u.sets key then u.sets key else member :: u.sets key) }

/-- The script's local function `rollup`. -/
def rollup (u : UsageStore) (a : SinkArgs) (key : String) : UsageStore :=
  let u₁ := ((((u.hincrBy key "input_tokens" a.inputTokens).hincrBy key "output_tokens"
    a.outputTokens).hincrBy key "total_tokens" a.totalTokens).hincrBy key "event_count"
    a.eventCount).hincrByFloat key "cost_usd" a.costUsd
  let u₂ := if 0 < a.cacheReadTokens then u₁.hincrBy key "cache_read_tokens" a.cacheReadTokens else u₁
  if 0 < a.reasoningTokens then u₂.hincrBy key "reasoning_tokens" a.reasoningTokens else u₂

/-- The counter writes of the script, in its order. -/
def applyWindow (u : UsageStore) (k : SinkKeys) (a : SinkArgs) : UsageStore :=
  let customer := (((u.incrBy (k.customer ++ ":input_tokens") a.inputTokens).incrBy
    (k.customer ++ ":output_tokens") a.outputTokens).incrBy
    (k.customer ++ ":total_tokens") a.totalTokens).incrBy
    (k.customer ++ ":event_count") a.eventCount
  let model := (((customer.incrBy (k.model ++ ":input_tokens") a.inputTokens).incrBy
    (k.model ++ ":output_tokens") a.outputTokens).incrBy
    (k.model ++ ":total_tokens") a.totalTokens).incrByFloat (k.model ++ ":cost_usd") a.costUsd
  let detail := ((model.incrByFloat (k.customer ++ ":cost_usd") a.costUsd).incrByPositive
    (k.customer ++ ":cache_read_tokens") a.cacheReadTokens).incrByPositive
    (k.customer ++ ":reasoning_tokens") a.reasoningTokens
  let global := (((((detail.incrBy (k.global "total_tokens") a.totalTokens).incrBy
    (k.global "input_tokens") a.inputTokens).incrBy
    (k.global "output_tokens") a.outputTokens).incrBy
    (k.global "total_events") a.eventCount).incrByFloat
    (k.global "total_cost_usd") a.costUsd).setInt (k.global "last_window_end") a.windowEnd
  let volume := global.incrBy k.periodVolume a.totalTokens
  ((volume.rollup a k.periodRollup).rollup a k.dayRollup).sadd k.periodCustomers a.customerId

end UsageStore

/-- The span a settlement releases from: the stored key, or the un-prefixed span of an older
record. -/
def sinkSpan (record : ReservationRecord) : Option SpanKey :=
  match record.spanHeldKey with
  | some s => some s
  | none => if record.parentSpanId = "" then none else some ⟨none, record.parentSpanId⟩

/-- One turn of the settlement loop; a missing record releases nothing. -/
def settleOne (budget : BudgetKey) (r : Redis) (reservationId : String) : Redis :=
  let record := r.reservations.get reservationId
  let reserved := (record.map ReservationRecord.reservedUsd).getD 0
  dropReservation (releaseHold r budget (record.bind sinkSpan) reserved).1 reservationId

inductive SinkReply
  | skip
  | noBudget
  | exhausted (newBalance balance : ℚ)
  | low (newBalance balance : ℚ)
  | ok (newBalance balance : ℚ)
  deriving DecidableEq, Repr

/-- The deduction: what the balance cannot pay becomes debt. -/
def BudgetRow.deduct (row : BudgetRow) (balance costUsd : ℚ) : BudgetRow :=
  if balance - costUsd < 0 then
    { row with
      debtUsd := incrByFloat row.debtUsd (-(balance - costUsd))
      balanceUsd := some 0 }
  else { row with balanceUsd := some (balance - costUsd) }

def alertThreshold (row : BudgetRow) (a : SinkArgs) : ℚ :=
  match row.alertThresholdUsd with
  | some t => t
  | none => Binary64.mul (Binary64.round (number row.initialBalanceUsd)) (Binary64.round a.alertPercent)

def sinkReply (threshold newBalance balance : ℚ) : SinkReply :=
  if newBalance ≤ 0 then .exhausted newBalance balance
  else if newBalance ≤ threshold ∧ threshold < balance then .low newBalance balance
  else .ok newBalance balance

/-- The state after the guard, the counters and `INCRBYFLOAT total_deducted_usd`. -/
def recordWindow (r : Redis) (k : SinkKeys) (a : SinkArgs) : Redis :=
  { r.setBudget k.budget { r.budgets k.budget with
      totalDeductedUsd := incrByFloat (r.budgets k.budget).totalDeductedUsd a.costUsd } with
    applied := Function.update r.applied k.windowId true
    usage := r.usage.applyWindow k a }

/-- The settlement loop over the window's reservation set, and `DEL` of that set. -/
def settleWindow (r : Redis) (k : SinkKeys) : Redis :=
  { (r.windowReservations k.windowId).foldl (settleOne k.budget) r with
    windowReservations := Function.update r.windowReservations k.windowId [] }

def sinkScript (r : Redis) (k : SinkKeys) (a : SinkArgs) : Redis × SinkReply :=
  if r.applied k.windowId then (r, .skip)
  else
    let r₁ := settleWindow (recordWindow r k a) k
    let row := r₁.budgets k.budget
    match row.balanceUsd with
    | none => (r₁, .noBudget)
    | some balance =>
      let row' := row.deduct balance a.costUsd
      (r₁.setBudget k.budget row', sinkReply (alertThreshold row a) (number row'.balanceUsd) balance)

/-- The arguments `invoke` passes to the script. -/
def sinkKeys (agg : UsageAggregate) : SinkKeys :=
  let customerId := TokenEvent.orNull agg.customerId
  let modelId := TokenEvent.orNull agg.modelId
  let customerKey := customerPrefix agg.tenantId customerId
  { windowId := windowId agg.tenantId customerId modelId agg.windowStart
    budget := ⟨if hasTenant agg.tenantId then agg.tenantId else none, customerId⟩
    customer := customerKey
    model := customerKey ++ ":model:" ++ modelId
    global := globalKey agg.tenantId
    periodVolume := periodVolumeKey agg.tenantId customerId modelId agg.windowEnd
    periodRollup := "rollup:" ++ customerId ++ ":period:" ++ monthUtc agg.windowEnd
    dayRollup := "rollup:" ++ customerId ++ ":d:" ++ dayUtc agg.windowEnd
    periodCustomers := "idx:period:" ++ monthUtc agg.windowEnd ++ ":customers" }

def sinkArgs (agg : UsageAggregate) : SinkArgs :=
  { inputTokens := agg.inputTokens
    outputTokens := agg.outputTokens
    totalTokens := agg.totalTokens
    eventCount := agg.eventCount
    costUsd := agg.getCostUsd
    cacheReadTokens := agg.cacheReadTokens
    reasoningTokens := agg.reasoningTokens
    windowEnd := agg.windowEnd
    customerId := TokenEvent.orNull agg.customerId }

def invoke (r : Redis) (agg : UsageAggregate) : Redis × SinkReply :=
  sinkScript r (sinkKeys agg) (sinkArgs agg)

end FluxMeter.Budget
