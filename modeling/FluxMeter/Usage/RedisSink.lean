import FluxMeter.Usage.Writes

/-! The Lua scripts of the two window sinks by position, as `EVAL` receives them: 21 keys in
`RedisSink.java`, 30 in `BudgetEnforcerSink.java`. -/
namespace FluxMeter.Usage
open FluxMeter.Budget FluxMeter.Keys FluxMeter.Model Collections

/-- A value of `ARGV`: a rendered number, or a text. -/
inductive Argument
  | integer (n : ℤ)
  | decimal (q : ℚ)
  | text (s : String)
  deriving DecidableEq

namespace Argument

/-- What `INCRBY` and `SET` take; the scripts pass them no decimal. -/
def toInt : Argument → ℤ
  | .integer n => n
  | _ => 0

/-- `tonumber`. -/
def toNumber : Argument → ℚ
  | .integer n => n
  | .decimal q => q
  | .text _ => 0

def toText : Argument → String
  | .text s => s
  | _ => ""

end Argument

/-- The arguments of `EVAL`. -/
structure EvalCall where
  keys : List String
  argv : List Argument

namespace EvalCall
variable (c : EvalCall)

/-- `KEYS[i]`; Lua counts from one. -/
def key (i : ℕ) : String := c.keys.getD (i - 1) ""

/-- `ARGV[i]`. -/
def arg (i : ℕ) : Argument := c.argv.getD (i - 1) (.text "")

end EvalCall

/-- A command of a sink script, with positions in `KEYS` and `ARGV`. -/
inductive Command
  | incrBy (key arg : ℕ)
  | incrByFloat (key arg : ℕ)
  /-- `if tonumber(ARGV[arg]) > 0 then INCRBY end`. -/
  | incrByPositive (key arg : ℕ)
  | set (key arg : ℕ)
  /-- The local function `rollup`, which reads `ARGV[1..7]`. -/
  | rollup (key : ℕ)
  | sadd (key arg : ℕ)
  deriving DecidableEq

def Command.writes (c : EvalCall) : Command → List Write
  | .incrBy key arg => [.incrBy (c.key key) (c.arg arg).toInt]
  | .incrByFloat key arg => [.incrByFloat (c.key key) (c.arg arg).toNumber]
  | .incrByPositive key arg =>
    if 0 < (c.arg arg).toNumber then [.incrBy (c.key key) (c.arg arg).toInt] else []
  | .set key arg => [.setInt (c.key key) (c.arg arg).toInt]
  | .rollup key =>
    [.hincrBy (c.key key) "input_tokens" (c.arg 1).toInt,
      .hincrBy (c.key key) "output_tokens" (c.arg 2).toInt,
      .hincrBy (c.key key) "total_tokens" (c.arg 3).toInt,
      .hincrBy (c.key key) "event_count" (c.arg 4).toInt,
      .hincrByFloat (c.key key) "cost_usd" (c.arg 5).toNumber] ++
    (if 0 < (c.arg 6).toNumber then
      [.hincrBy (c.key key) "cache_read_tokens" (c.arg 6).toInt] else []) ++
    (if 0 < (c.arg 7).toNumber then
      [.hincrBy (c.key key) "reasoning_tokens" (c.arg 7).toInt] else [])
  | .sadd key arg => [.sadd (c.key key) (c.arg arg).toText]

/-- The usage store after the commands of a script. -/
def EvalCall.exec (c : EvalCall) (script : List Command) (u : UsageStore) : UsageStore :=
  (script.flatMap (Command.writes c)).foldl Write.run u

namespace RedisSink

/-- The commands of `RedisSink.SINK_LUA_SCRIPT` after the guard. -/
def script : List Command :=
  [.incrBy 2 1, .incrBy 3 2, .incrBy 4 3, .incrByFloat 5 5, .incrBy 6 4,
    .incrBy 7 1, .incrBy 8 2, .incrBy 9 3, .incrByFloat 10 5,
    .incrByPositive 11 6, .incrByPositive 12 7,
    .incrBy 13 3, .incrBy 14 1, .incrBy 15 2, .incrBy 16 4, .incrByFloat 17 5,
    .set 18 8, .incrBy 19 3, .rollup 20, .rollup 21]

/-- The call that `apply` makes for an aggregate. -/
def call (agg : UsageAggregate) : EvalCall :=
  let customerId := TokenEvent.orNull agg.customerId
  let modelId := TokenEvent.orNull agg.modelId
  let customerKey := customerPrefix agg.tenantId customerId
  let modelKey := customerKey ++ ":model:" ++ modelId
  let windowId := windowId agg.tenantId customerId modelId agg.windowStart
  let periodKey := periodVolumeKey agg.tenantId customerId modelId agg.windowEnd
  let rollupBase := "rollup:" ++ customerId
  { keys :=
      ["applied:" ++ windowId,
        customerKey ++ ":input_tokens",
        customerKey ++ ":output_tokens",
        customerKey ++ ":total_tokens",
        customerKey ++ ":cost_usd",
        customerKey ++ ":event_count",
        modelKey ++ ":input_tokens",
        modelKey ++ ":output_tokens",
        modelKey ++ ":total_tokens",
        modelKey ++ ":cost_usd",
        customerKey ++ ":cache_read_tokens",
        customerKey ++ ":reasoning_tokens",
        globalKey agg.tenantId "total_tokens",
        globalKey agg.tenantId "input_tokens",
        globalKey agg.tenantId "output_tokens",
        globalKey agg.tenantId "total_events",
        globalKey agg.tenantId "total_cost_usd",
        globalKey agg.tenantId "last_window_end",
        periodKey,
        rollupBase ++ ":period:" ++ monthUtc agg.windowEnd,
        rollupBase ++ ":d:" ++ dayUtc agg.windowEnd]
    argv :=
      [.integer agg.inputTokens, .integer agg.outputTokens, .integer agg.totalTokens,
        .integer agg.eventCount, .decimal agg.getCostUsd, .integer agg.cacheReadTokens,
        .integer agg.reasoningTokens, .integer agg.windowEnd, .integer 34560000] }

/-- The guards `applied:{windowId}` are kept under the window id. -/
def guardOf (agg : UsageAggregate) : String :=
  windowId agg.tenantId (TokenEvent.orNull agg.customerId) (TokenEvent.orNull agg.modelId)
    agg.windowStart

/-- `RedisSink.apply`. -/
def apply (r : Redis) (agg : UsageAggregate) : Redis × String :=
  if r.applied (guardOf agg) then (r, "SKIP")
  else
    ({ r with
        applied := Function.update r.applied (guardOf agg) true
        usage := (call agg).exec script r.usage }, "OK")

/-- The writes of the script in the words of the other sink: the customer's cost comes before the
event count and the model, and there is no index of the customers of a period. -/
def writes (k : SinkKeys) (a : SinkArgs) : List Write :=
  [.incrBy (k.customer ++ ":input_tokens") a.inputTokens,
    .incrBy (k.customer ++ ":output_tokens") a.outputTokens,
    .incrBy (k.customer ++ ":total_tokens") a.totalTokens,
    .incrByFloat (k.customer ++ ":cost_usd") a.costUsd,
    .incrBy (k.customer ++ ":event_count") a.eventCount,
    .incrBy (k.model ++ ":input_tokens") a.inputTokens,
    .incrBy (k.model ++ ":output_tokens") a.outputTokens,
    .incrBy (k.model ++ ":total_tokens") a.totalTokens,
    .incrByFloat (k.model ++ ":cost_usd") a.costUsd] ++
  restWrites k a

theorem exec_script (agg : UsageAggregate) (u : UsageStore) :
    (call agg).exec script u = (writes (sinkKeys agg) (sinkArgs agg)).foldl Write.run u := by
  unfold EvalCall.exec
  congr 1
  unfold writes restWrites rollupWrites Write.positive
  simp [script, Command.writes, call, EvalCall.key, EvalCall.arg, Argument.toInt, Argument.toNumber,
    sinkKeys, sinkArgs]

end RedisSink

namespace BudgetEnforcerSink

/-- The commands of `BudgetEnforcerSink.SINK_LUA_SCRIPT` on the usage store; that on `KEYS[22]` and
those from `SMEMBERS` on are on budgets and reservations. -/
def script : List Command :=
  [.incrBy 2 1, .incrBy 3 2, .incrBy 4 3, .incrBy 5 4,
    .incrBy 6 1, .incrBy 7 2, .incrBy 8 3, .incrByFloat 9 5, .incrByFloat 10 5,
    .incrByPositive 20 6, .incrByPositive 21 7,
    .incrBy 11 3, .incrBy 12 1, .incrBy 13 2, .incrBy 14 4, .incrByFloat 15 5,
    .set 19 9, .incrBy 24 3, .rollup 25, .rollup 26, .sadd 30 10]

/-- The call that `invoke` makes for an aggregate. -/
def call (agg : UsageAggregate) : EvalCall :=
  let customerId := TokenEvent.orNull agg.customerId
  let modelId := TokenEvent.orNull agg.modelId
  let customerKey := customerPrefix agg.tenantId customerId
  let modelKey := customerKey ++ ":model:" ++ modelId
  let budgetKey := inTenant agg.tenantId ("budget:" ++ customerId)
  let windowId := windowId agg.tenantId customerId modelId agg.windowStart
  let periodKey := periodVolumeKey agg.tenantId customerId modelId agg.windowEnd
  let rollupBase := "rollup:" ++ customerId
  { keys :=
      ["applied:" ++ windowId,
        customerKey ++ ":input_tokens",
        customerKey ++ ":output_tokens",
        customerKey ++ ":total_tokens",
        customerKey ++ ":event_count",
        modelKey ++ ":input_tokens",
        modelKey ++ ":output_tokens",
        modelKey ++ ":total_tokens",
        modelKey ++ ":cost_usd",
        customerKey ++ ":cost_usd",
        globalKey agg.tenantId "total_tokens",
        globalKey agg.tenantId "input_tokens",
        globalKey agg.tenantId "output_tokens",
        globalKey agg.tenantId "total_events",
        globalKey agg.tenantId "total_cost_usd",
        budgetKey ++ ":balance_usd",
        budgetKey ++ ":alert_threshold_usd",
        budgetKey ++ ":initial_balance_usd",
        globalKey agg.tenantId "last_window_end",
        customerKey ++ ":cache_read_tokens",
        customerKey ++ ":reasoning_tokens",
        budgetKey ++ ":total_deducted_usd",
        budgetKey ++ ":debt_usd",
        periodKey,
        rollupBase ++ ":period:" ++ monthUtc agg.windowEnd,
        rollupBase ++ ":d:" ++ dayUtc agg.windowEnd,
        windowReservationsKey windowId,
        budgetKey ++ ":held_usd",
        "gateway:reservations:pending",
        "idx:period:" ++ monthUtc agg.windowEnd ++ ":customers"]
    argv :=
      [.integer agg.inputTokens, .integer agg.outputTokens, .integer agg.totalTokens,
        .integer agg.eventCount, .decimal agg.getCostUsd, .integer agg.cacheReadTokens,
        .integer agg.reasoningTokens, .decimal (1 / 10), .integer agg.windowEnd,
        .text customerId] }

theorem exec_script (agg : UsageAggregate) (u : UsageStore) :
    (call agg).exec script u = u.applyWindow (sinkKeys agg) (sinkArgs agg) := by
  rw [← foldl_windowWrites]
  unfold EvalCall.exec
  congr 1
  unfold windowWrites restWrites rollupWrites Write.positive
  simp [script, Command.writes, call, EvalCall.key, EvalCall.arg, Argument.toInt, Argument.toNumber,
    Argument.toText, sinkKeys, sinkArgs]

end BudgetEnforcerSink

/-! ### One accounting -/

/-- Two usage stores with the same numbers under every key. -/
structure SameNumbers (u u' : UsageStore) : Prop where
  ints : u.ints = u'.ints
  floats : u.floats = u'.floats
  hashInts : u.hashInts = u'.hashInts
  hashFloats : u.hashFloats = u'.hashFloats

theorem SameNumbers.trans {u u' u'' : UsageStore} (h : SameNumbers u u') (h' : SameNumbers u' u'') :
    SameNumbers u u'' :=
  ⟨h.ints.trans h'.ints, h.floats.trans h'.floats, h.hashInts.trans h'.hashInts,
    h.hashFloats.trans h'.hashFloats⟩

private theorem sameNumbers_run (w : Write) {u u' : UsageStore} (h : SameNumbers u u') :
    SameNumbers (w.run u) (w.run u') := by
  rw [Write.run_eq, Write.run_eq]
  constructor
  case ints => exact congrArg w.onInts h.ints
  case floats => exact congrArg w.onFloats h.floats
  case hashInts => exact congrArg w.onHashInts h.hashInts
  case hashFloats => exact congrArg w.onHashFloats h.hashFloats

theorem sameNumbers_foldl (ws : List Write) {u u' : UsageStore} (h : SameNumbers u u') :
    SameNumbers (ws.foldl Write.run u) (ws.foldl Write.run u') := by
  induction ws generalizing u u' with
  | nil => exact h
  | cons w ws ih => exact ih (sameNumbers_run w h)

private theorem sameNumbers_writes (k : SinkKeys) (a : SinkArgs) (u : UsageStore) :
    SameNumbers ((windowWrites k a).foldl Write.run u) ((RedisSink.writes k a).foldl Write.run u) := by
  unfold windowWrites RedisSink.writes
  rw [List.foldl_append, List.foldl_append, List.foldl_append]
  have hindex : ∀ u : UsageStore, SameNumbers (u.sadd k.periodCustomers a.customerId) u :=
    fun _ => ⟨rfl, rfl, rfl, rfl⟩
  refine (hindex _).trans (sameNumbers_foldl _ ?_)
  constructor
  case ints => rfl
  case floats =>
    -- the costs of the customer and of the model are written in the other order
    exact adjust_incrByFloat_comm u.floats (k.model ++ ":cost_usd") (k.customer ++ ":cost_usd")
      a.costUsd a.costUsd
  case hashInts => rfl
  case hashFloats => rfl

private theorem sameNumbers_step {r r' : Redis} (agg : UsageAggregate)
    (happlied : r.applied = r'.applied)
    (h : SameNumbers r.usage r'.usage) :
    (invoke r agg).1.applied = (RedisSink.apply r' agg).1.applied ∧
      SameNumbers (invoke r agg).1.usage (RedisSink.apply r' agg).1.usage := by
  obtain ⟨husage, hguard⟩ := sinkScript_guarded r (sinkKeys agg) (sinkArgs agg)
  have hid : (sinkKeys agg).windowId = RedisSink.guardOf agg := rfl
  rw [hid, happlied] at husage hguard
  unfold invoke RedisSink.apply
  rw [husage, hguard]
  by_cases hdone : r'.applied (RedisSink.guardOf agg) = true
  · rw [if_pos hdone, if_pos hdone, if_pos hdone]
    exact ⟨rfl, h⟩
  · rw [if_neg hdone, if_neg hdone, if_neg hdone]
    refine ⟨rfl, ?_⟩
    rw [RedisSink.exec_script, ← foldl_windowWrites]
    exact (sameNumbers_foldl _ h).trans (sameNumbers_writes _ _ _)

/-- Windows with any replays leave the same guards and usage numbers through either sink, for
customers with a budget as without. -/
theorem sinks_agree (aggs : List UsageAggregate) (r : Redis) :
    (aggs.foldl (fun r agg => (invoke r agg).1) r).applied =
        (aggs.foldl (fun r agg => (RedisSink.apply r agg).1) r).applied ∧
      SameNumbers (aggs.foldl (fun r agg => (invoke r agg).1) r).usage
        (aggs.foldl (fun r agg => (RedisSink.apply r agg).1) r).usage := by
  have hrun : ∀ {r r' : Redis}, r.applied = r'.applied → SameNumbers r.usage r'.usage →
      (aggs.foldl (fun r agg => (invoke r agg).1) r).applied =
          (aggs.foldl (fun r agg => (RedisSink.apply r agg).1) r').applied ∧
        SameNumbers (aggs.foldl (fun r agg => (invoke r agg).1) r).usage
          (aggs.foldl (fun r agg => (RedisSink.apply r agg).1) r').usage := by
    induction aggs with
    | nil => exact fun happlied h => ⟨happlied, h⟩
    | cons agg aggs ih =>
      intro r r' happlied h
      obtain ⟨happlied', h'⟩ := sameNumbers_step agg happlied h
      exact ih happlied' h'
  exact hrun rfl ⟨rfl, rfl, rfl, rfl⟩

end FluxMeter.Usage
