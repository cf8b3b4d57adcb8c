import FluxMeter.Collections.Ranking
import FluxMeter.Usage.DailyReaders

/-! `analyze_root_cause` of `intelligence/root_cause.py`: what changed in the costs of one month against
those of another, and the ten greatest changes. -/
namespace FluxMeter.Intelligence
open FluxMeter.Budget FluxMeter.Keys FluxMeter.Usage FluxMeter.Usage.PeriodReader Collections

/-! ### Numbers in texts -/

def roundHalfEven (q : ℚ) : ℤ :=
  if q - ⌊q⌋ < 1 / 2 then ⌊q⌋
  else if 1 / 2 < q - ⌊q⌋ then ⌊q⌋ + 1
  else if ⌊q⌋ % 2 = 0 then ⌊q⌋ else ⌊q⌋ + 1

/-- `f"{q:.{digits}f}"`. -/
def fixed (digits : ℕ) (q : ℚ) : String :=
  let units := roundHalfEven (|q| * 10 ^ digits)
  (if q < 0 then "-" else "") ++ toString (units / 10 ^ digits) ++
    if digits = 0 then "" else "." ++ padded digits (units % 10 ^ digits)

/-- `f"{q:+.{digits}f}"`. -/
def signed (digits : ℕ) (q : ℚ) : String := (if q < 0 then "" else "+") ++ fixed digits q

example : signed 1 (-5 / 4) = "-1.2" ∧ fixed 2 (1999 / 1000) = "2.00" := by decide +kernel

/-! ### Contributors -/

structure Contributor where
  dimension : String
  key : String
  currentCostUsd : ℚ
  baselineCostUsd : ℚ
  deltaUsd : ℚ
  deltaPct : ℚ
  shareOfTotalDeltaPct : ℚ
  deriving DecidableEq

structure RootCauseReport where
  period : String
  baselinePeriod : String
  totalCostUsd : ℚ
  baselineCostUsd : ℚ
  deltaUsd : ℚ
  deltaPct : ℚ
  summary : String
  contributors : List Contributor
  deriving DecidableEq

/-- `_pct_delta`. -/
def pctDelta (delta baseline : ℚ) : ℚ := if baseline ≠ 0 then delta / baseline * 100 else 0

/-- `_share_of_total`. -/
def shareOfTotal (delta totalDelta : ℚ) : ℚ :=
  if totalDelta ≠ 0 then delta / totalDelta * 100 else 0

/-- The contributor that the loop of `_build_contributors` makes of a key. -/
def contributorOf (dimension : String) (totalDelta : ℚ) (key : String) (current baseline : Option ℚ) :
    Contributor :=
  let curr := current.getD 0
  let base := baseline.getD 0
  { dimension, key
    currentCostUsd := curr
    baselineCostUsd := base
    deltaUsd := curr - base
    deltaPct := pctDelta (curr - base) base
    shareOfTotalDeltaPct := shareOfTotal (curr - base) totalDelta }

/-- `set(current) | set(baseline)`, in the order in which the set is walked. -/
def unionKeys (walk : List String → List String) (current baseline : Table String ℚ) : List String :=
  walk (current.keys ∪ baseline.keys)

/-- `_build_contributors`. -/
def buildContributors (walk : List String → List String) (dimension : String)
    (current baseline : Table String ℚ) (totalDelta : ℚ) : List Contributor :=
  (unionKeys walk current baseline).map fun key =>
    contributorOf dimension totalDelta key (current.get key) (baseline.get key)

/-! ### The report -/

/-- The customer of a scope `customer:{id}`. -/
def customerOfScope (scope : String) : Option String :=
  if "customer:".toList.isPrefixOf scope.toList then some (String.ofList (scope.toList.drop 9))
  else none

/-- What the reports read: the store, what a scan of a pattern returns, and the order in which a set of
keys is walked. -/
structure Reads where
  s : Keyspace
  scan : String → List String
  walk : List String → List String

namespace Reads
variable (r : Reads)

/-- `list_customer_period_costs`. -/
def customerCosts (period : String) : Table String ℚ :=
  PeriodReader.listCustomerPeriodCosts r.s period (r.scan (customerPattern period))

/-- The customers of a month in a scope. -/
def scopedCosts (customerId : Option String) (period : String) : Table String ℚ :=
  match restriction customerId with
  | some c => (r.customerCosts period).filterKeys fun k => k = c
  | none => r.customerCosts period

/-- `list_model_period_costs`. -/
def modelCosts (customerId : Option String) (period : String) : Table String ℚ :=
  listModelPeriodCosts r.s (r.scan (modelPattern customerId period))

/-- The costs of a dimension in `list_dim_period_costs`. -/
def dimCosts (dimKey period : String) : Table String ℚ :=
  listDimPeriodCosts r.s (r.scan (dimPattern dimKey period))

end Reads

/-- The contributors of a report before the sort; `allowedDims` in the order of their set. -/
def allContributors (r : Reads) (allowedDims : List String) (customerId : Option String)
    (period baselinePeriod : String) (totalDelta : ℚ) : List Contributor :=
  buildContributors r.walk "model" (r.modelCosts customerId period)
      (r.modelCosts customerId baselinePeriod) totalDelta ++
    buildContributors r.walk "customer" (r.scopedCosts customerId period)
      (r.scopedCosts customerId baselinePeriod) totalDelta ++
    allowedDims.flatMap fun dimKey =>
      buildContributors r.walk dimKey (r.dimCosts dimKey period) (r.dimCosts dimKey baselinePeriod)
        totalDelta

def rootCauseSummary (totalDeltaPct : ℚ) (baselinePeriod : String) : List Contributor → String
  | top :: _ =>
    "Cost " ++ signed 1 totalDeltaPct ++ "% vs " ++ baselinePeriod ++ ". Top driver: " ++
      top.dimension ++ " " ++ top.key ++ " (" ++ fixed 0 top.shareOfTotalDeltaPct ++ "% of change)."
  | [] =>
    "Cost " ++ signed 1 totalDeltaPct ++ "% vs " ++ baselinePeriod ++ ". No significant contributors."

/-- `analyze_root_cause`. -/
def analyzeRootCause (r : Reads) (allowedDims : List String) (period baselinePeriod scope : String) :
    RootCauseReport :=
  let customerId := customerOfScope scope
  let totalCurrent := total (r.scopedCosts customerId period)
  let totalBaseline := total (r.scopedCosts customerId baselinePeriod)
  let totalDelta := totalCurrent - totalBaseline
  let contributors := top (fun c => |c.deltaUsd|) 10
    (allContributors r allowedDims customerId period baselinePeriod totalDelta)
  { period, baselinePeriod
    totalCostUsd := totalCurrent
    baselineCostUsd := totalBaseline
    deltaUsd := totalDelta
    deltaPct := pctDelta totalDelta totalBaseline
    summary := rootCauseSummary (pctDelta totalDelta totalBaseline) baselinePeriod contributors
    contributors }

end FluxMeter.Intelligence
