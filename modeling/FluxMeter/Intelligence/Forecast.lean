import FluxMeter.Intelligence.Periods
import FluxMeter.Intelligence.RootCause

/-! `compute_forecast` of `intelligence/forecast.py`: the spend of a month so far, carried on at its daily
average to the end of the month. -/
namespace FluxMeter.Intelligence
open FluxMeter.Budget FluxMeter.Keys FluxMeter.Usage FluxMeter.Usage.PeriodReader Collections

inductive ForecastStatus
  | noBudget
  | overBudget
  | atRisk
  | onTrack
  deriving DecidableEq

def ForecastStatus.text : ForecastStatus → String
  | .noBudget => "no_budget"
  | .overBudget => "over_budget"
  | .atRisk => "at_risk"
  | .onTrack => "on_track"

structure SpendForecast where
  period : String
  scope : String
  mtdCostUsd : ℚ
  forecastEomCostUsd : ℚ
  budgetUsd : Option ℚ
  varianceUsd : Option ℚ
  status : ForecastStatus
  summary : String
  deriving DecidableEq

/-- `_budget_for_scope`. -/
def budgetForScope (s : Keyspace) (tenantId : Option String) (scope : String) : Option ℚ :=
  if scope = "global" then none
  else (customerOfScope scope).bind fun c =>
    (s.budgets (budgetPrefixForRead s.toRedis tenantId c)).initialBalanceUsd

def Reads.dailyCosts (r : Reads) (scope period : String) : Table String ℚ :=
  match customerOfScope scope with
  | some c => listCustomerDailyCosts r.s (r.scan (customerDailyPattern c period))
  | none => listGlobalDailyCosts r.s (r.scan (globalDailyPattern period))

def forecastStatus (forecastEom : ℚ) : Option ℚ → ForecastStatus
  | none => .noBudget
  | some budget =>
    if budget < forecastEom then .overBudget
    else if budget * (85 / 100) < forecastEom then .atRisk
    else .onTrack

def forecastSummary (mtd forecastEom : ℚ) : Option ℚ → String
  | none =>
    "MTD $" ++ fixed 2 mtd ++ "; forecast EOM $" ++ fixed 2 forecastEom ++ " (no budget configured)"
  | some budget =>
    if budget < forecastEom then
      "Forecast EOM $" ++ fixed 2 forecastEom ++ " exceeds budget $" ++ fixed 2 budget ++ " by $" ++
        fixed 2 (forecastEom - budget)
    else if budget * (85 / 100) < forecastEom then
      "Forecast EOM $" ++ fixed 2 forecastEom ++ " is at risk vs budget $" ++ fixed 2 budget
    else "Forecast EOM $" ++ fixed 2 forecastEom ++ " on track vs budget $" ++ fixed 2 budget

/-- `compute_forecast` at the instant `now`; `none` where the text of the period raises. -/
def computeForecast (r : Reads) (now : ℤ) (tenantId : Option String) (period scope : String) :
    Option SpendForecast :=
  (currentDayOfMonth now period).bind fun currentDay =>
    (daysInPeriod period).map fun daysTotal =>
      let daily := r.dailyCosts scope period
      let mtd := total daily
      let daysElapsed := max (max (daily.rows.length : ℤ) currentDay) 1
      let daysRemaining := max (daysTotal - daysElapsed) 0
      let avgDaily := mtd / daysElapsed
      let forecastEom := mtd + avgDaily * daysRemaining
      let budget := budgetForScope r.s tenantId scope
      { period, scope
        mtdCostUsd := mtd
        forecastEomCostUsd := forecastEom
        budgetUsd := budget
        varianceUsd := budget.map fun b => forecastEom - b
        status := forecastStatus forecastEom budget
        summary := forecastSummary mtd forecastEom budget }

end FluxMeter.Intelligence
