import FluxMeter.Api.IntelAlerts
import FluxMeter.Intelligence.Periods
import FluxMeter.Intelligence.RootCause

/-! `build_profitability_dashboard` of `intelligence/profitability.py`. The revenues that were set for
customers and months are a parameter. -/
namespace FluxMeter.Intelligence
open FluxMeter.Api.IntelAlerts FluxMeter.Usage FluxMeter.Usage.PeriodReader Collections

structure ProductEconomics where
  product : String
  period : String
  costUsd : ℚ
  revenueUsd : Option ℚ
  marginUsd : Option ℚ
  marginPct : Option ℚ
  deriving DecidableEq

structure PeriodTotals where
  period : String
  costUsd : ℚ
  revenueUsd : Option ℚ
  marginUsd : Option ℚ
  deriving DecidableEq

structure DashboardTotals where
  revenueUsd : Option ℚ
  costUsd : ℚ
  marginUsd : Option ℚ
  marginPct : Option ℚ
  lossCustomerCount : ℕ
  deriving DecidableEq

structure ProfitabilityDashboard where
  period : String
  months : ℕ
  totals : DashboardTotals
  byCustomer : List CustomerEconomics
  byProduct : List ProductEconomics
  trend : List PeriodTotals
  deriving DecidableEq

def knownRevenues (economics : List CustomerEconomics) : List ℚ :=
  economics.filterMap CustomerEconomics.revenueUsd

/-- The row that the loop of `_by_product` makes of a feature. -/
def productOf (period : String) (globalRev totalFeatureCost : ℚ) (feature : String) (cost : ℚ) :
    ProductEconomics :=
  let allocatedRev := if globalRev ≠ 0 then some (globalRev * (cost / totalFeatureCost)) else none
  let margin := allocatedRev.map fun rev => rev - cost
  { product := feature
    period
    costUsd := cost
    revenueUsd := allocatedRev
    marginUsd := margin
    marginPct :=
      match allocatedRev, margin with
      | some rev, some m => if 0 < rev then some (m / rev * 100) else none
      | _, _ => none }

/-- The key of the sort of `by_product`: without a margin, infinity. -/
def ProductEconomics.marginKey (p : ProductEconomics) : WithTop ℚ :=
  match p.marginUsd with
  | some margin => (margin : WithTop ℚ)
  | none => ⊤

/-- The key of the sort of `by_customer`: without a margin, minus infinity. -/
def marginKey (e : CustomerEconomics) : WithBot ℚ :=
  match e.marginUsd with
  | some margin => (margin : WithBot ℚ)
  | none => ⊥

/-- `_by_product`. -/
def byProduct (r : Reads) (allowedDims : List String) (period : String)
    (economics : List CustomerEconomics) : List ProductEconomics :=
  let dims := if "feature" ∈ allowedDims then r.dimCosts "feature" period else .empty
  let totalFeatureCost := if total dims = 0 then 1 else total dims
  let globalRev := (knownRevenues economics).sum
  sortedBy ProductEconomics.marginKey
    (dims.rows.map fun row => productOf period globalRev totalFeatureCost row.1 row.2)

def dashboardTotals (economics : List CustomerEconomics) : DashboardTotals :=
  let totalCost := (economics.map CustomerEconomics.costUsd).sum
  let totalRevenue :=
    if knownRevenues economics = [] then none else some (knownRevenues economics).sum
  let totalMargin := totalRevenue.map fun revenue => revenue - totalCost
  { revenueUsd := totalRevenue
    costUsd := totalCost
    marginUsd := totalMargin
    marginPct :=
      match totalRevenue, totalMargin with
      | some revenue, some margin => if revenue ≠ 0 then some (margin / revenue * 100) else none
      | _, _ => none
    lossCustomerCount := economics.countP fun e => e.status = .loss }

def trendOf (r : Reads) (revenue : String → String → Option ℚ) (period : String) (costUsd : ℚ) :
    PeriodTotals :=
  let rev := ((r.customerCosts period).keys.map fun c => (revenue c period).getD 0).sum
  let revVal := if 0 < rev then some rev else none
  { period, costUsd
    revenueUsd := revVal
    marginUsd := revVal.map fun rev => rev - costUsd }

/-- `compute_unit_economics`. -/
def unitEconomics (r : Reads) (revenue : String → String → Option ℚ) (period : String) :
    List CustomerEconomics :=
  computeUnitEconomics period (r.customerCosts period) fun c => revenue c period

/-- `build_profitability_dashboard`; `none` where the text of the period raises. -/
def buildProfitabilityDashboard (r : Reads) (allowedDims : List String)
    (revenue : String → String → Option ℚ) (period : String) (months : ℤ) :
    Option ProfitabilityDashboard :=
  let months := (max 1 (min months 12)).toNat
  (priorPeriods period months).map fun periodList =>
    let byCustomer := sortedBy marginKey (unitEconomics r revenue period)
    { period, months
      totals := dashboardTotals byCustomer
      byCustomer
      byProduct := byProduct r allowedDims period byCustomer
      trend := (listGlobalPeriodCosts r.s r.scan periodList).map fun row =>
        trendOf r revenue row.1 row.2 }

end FluxMeter.Intelligence
