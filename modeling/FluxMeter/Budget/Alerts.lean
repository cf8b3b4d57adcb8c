import FluxMeter.Budget.BudgetEnforcerSink

/-! The alerts that `invoke` of `BudgetEnforcerSink.java` raises after the window script. -/
namespace FluxMeter.Budget
open FluxMeter.Model

inductive AlertType
  | budgetWarn
  | budgetLow
  | budgetExhausted
  deriving DecidableEq, Repr

def AlertType.text : AlertType → String
  | .budgetWarn => "BUDGET_WARN"
  | .budgetLow => "BUDGET_LOW"
  | .budgetExhausted => "BUDGET_EXHAUSTED"

/-- The JSON object of an alert; a field that is not written is `none`. It names no tenant. -/
structure Alert where
  type : AlertType
  customerId : String
  remainingBalanceUsd : ℚ
  windowCostUsd : ℚ
  modelId : Option String
  windowStart : ℤ
  windowEnd : ℤ
  timestamp : ℤ
  warnPct : Option ℤ := none
  initialBalanceUsd : Option ℚ := none
  spentPct : Option ℚ := none
  deriving DecidableEq

/-- `spentPct` of a warning. -/
def spentPct (initialBalance remainingBalance : ℚ) : ℚ :=
  if initialBalance ≤ 0 then 100
  else min 100 (max 0 ((initialBalance - remainingBalance) / initialBalance * 100))

/-- The object that `emitAlert` sends at `now`. -/
def emitAlert (agg : UsageAggregate) (now : ℤ) (type : AlertType) (remainingBalance : ℚ)
    (warning : Option (ℤ × ℚ) := none) : Alert :=
  { type
    customerId := TokenEvent.orNull agg.customerId
    remainingBalanceUsd := remainingBalance
    windowCostUsd := agg.getCostUsd
    modelId := agg.modelId
    windowStart := agg.windowStart
    windowEnd := agg.windowEnd
    timestamp := now
    warnPct := warning.map Prod.fst
    initialBalanceUsd := warning.map Prod.snd
    spentPct := warning.map fun w => spentPct w.2 remainingBalance }

/-- `for (int warnPct : new int[] {70, 90})`. -/
def warnPcts : List ℤ := [70, 90]

/-- `initial * (1.0 - warnPct / 100.0)`. -/
def warnThreshold (initial : ℚ) (warnPct : ℤ) : ℚ :=
  Binary64.mul (Binary64.round initial) (Binary64.sub 1 (Binary64.div warnPct 100))

def warnings (agg : UsageAggregate) (now : ℤ) (initial : Option ℚ) (newBalance balance : ℚ) :
    List Alert :=
  match initial with
  | none => []
  | some initial =>
    (warnPcts.filter fun pct =>
      warnThreshold initial pct < balance ∧ newBalance ≤ warnThreshold initial pct).map fun pct =>
        emitAlert agg now .budgetWarn newBalance (some (pct, initial))

/-- The alerts of one reply of the script, in the order in which they are sent. -/
def alerts (agg : UsageAggregate) (now : ℤ) (initial : Option ℚ) : SinkReply → List Alert
  | .skip | .noBudget => []
  | .exhausted newBalance balance =>
    warnings agg now initial newBalance balance ++ [emitAlert agg now .budgetExhausted newBalance]
  | .low newBalance balance =>
    warnings agg now initial newBalance balance ++ [emitAlert agg now .budgetLow newBalance]
  | .ok newBalance balance => warnings agg now initial newBalance balance

/-- The alerts of one call of `invoke`, which reads the initial balance after the script. -/
def raised (r : Redis) (agg : UsageAggregate) (now : ℤ) : List Alert :=
  alerts agg now ((invoke r agg).1.budgets (sinkKeys agg).budget).initialBalanceUsd (invoke r agg).2

end FluxMeter.Budget
