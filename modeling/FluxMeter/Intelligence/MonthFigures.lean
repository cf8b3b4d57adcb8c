import FluxMeter.Intelligence.Forecast
import FluxMeter.Intelligence.Profitability

/-! What the reports say a month cost, after a run of the sinks: the root cause, the dashboard, its trend
and the forecast find their figures under different keys and agree on what the windows of the month
wrote. -/
namespace FluxMeter.Intelligence
open FluxMeter.Api.IntelAlerts FluxMeter.Budget FluxMeter.Keys FluxMeter.Model FluxMeter.Usage
  FluxMeter.Usage.PeriodReader Collections Collections.Glob

/-! ### Months -/

theorem monthrange_isSome {year month : ℤ} (h : 1 ≤ month ∧ month ≤ 12) :
    ∃ days, monthrange year month = some days := by
  unfold monthrange
  rw [if_neg (by omega)]
  split_ifs
  all_goals exact ⟨_, rfl⟩

section Month
variable {t : ℤ}

theorem month_bounds (t : ℤ) : 1 ≤ (utcDate t).month ∧ (utcDate t).month ≤ 12 :=
  (civil_bounds (t / 86400000)).1

theorem daysInPeriod_monthUtc (ht : FourDigits t) :
    daysInPeriod (monthUtc t) = monthrange (utcDate t).year (utcDate t).month := by
  unfold daysInPeriod
  rw [yearMonth_monthUtc ht, Option.bind_some]

private theorem currentDayOfMonth_of_over (ht : FourDigits t) {now : ℤ}
    (hover : monthUtc now ≠ monthUtc t) :
    currentDayOfMonth now (monthUtc t) = daysInPeriod (monthUtc t) := by
  unfold currentDayOfMonth
  rw [yearMonth_monthUtc ht, Option.bind_some]
  refine if_neg fun h => hover (monthUtc_iff.mpr ?_)
  unfold CivilDate.months
  rw [h.1, h.2]

theorem currentDayOfMonth_isSome (ht : FourDigits t) (now : ℤ) :
    ∃ day, currentDayOfMonth now (monthUtc t) = some day := by
  unfold currentDayOfMonth
  rw [yearMonth_monthUtc ht, Option.bind_some]
  split_ifs
  · exact ⟨_, rfl⟩
  · rw [daysInPeriod_monthUtc ht]
    exact monthrange_isSome (month_bounds t)

end Month

theorem computeForecast_eq (r : Reads) {t : ℤ} (ht : FourDigits t) (now : ℤ)
    (tenantId : Option String) (scope : String) :
    ∃ f, computeForecast r now tenantId (monthUtc t) scope = some f ∧
      f.mtdCostUsd = total (r.dailyCosts scope (monthUtc t)) ∧
      (monthUtc now ≠ monthUtc t →
        f.forecastEomCostUsd = total (r.dailyCosts scope (monthUtc t))) := by
  obtain ⟨days, hdays⟩ := @monthrange_isSome (utcDate t).year _ (month_bounds t)
  rw [← daysInPeriod_monthUtc ht] at hdays
  obtain ⟨day, hday⟩ := currentDayOfMonth_isSome ht now
  unfold computeForecast
  rw [hday, hdays, Option.bind_some, Option.map_some]
  refine ⟨_, rfl, rfl, fun hover => ?_⟩
  have hsame : day = days := by
    rw [currentDayOfMonth_of_over ht hover, hdays] at hday
    exact (Option.some.inj hday).symm
  have hnone : max (days - max (max ((r.dailyCosts scope (monthUtc t)).rows.length : ℤ) day) 1) 0 =
      0 := by
    omega
  dsimp only
  rw [hnone, Int.cast_zero, mul_zero, add_zero]

/-! ### The reports of a run -/

/-- The scans of the patterns are complete and return each key once. -/
def Reads.Complete (r : Reads) (patterns : List String) : Prop :=
  ∀ pattern ∈ patterns, Scans r.s pattern (r.scan pattern) ∧ (r.scan pattern).Nodup

section Run
variable {P : Projection} {before : TokenEvent → ℤ} {s : Keyspace} {steps : List SinkStep}

/-- What the windows of a month wrote, of one customer or of all. -/
def charged (P : Projection) (before : TokenEvent → ℤ) (s : Keyspace) (steps : List SinkStep)
    (scope : Option String) (p : String) : ℚ :=
  (((monthWindows P before s steps p).filter fun agg =>
    ∀ c ∈ scope, TokenEvent.orNull agg.customerId = c).map UsageAggregate.getCostUsd).sum

theorem charged_none (p : String) : charged P before s steps none p =
    ((monthWindows P before s steps p).map UsageAggregate.getCostUsd).sum := by
  unfold charged
  rw [List.filter_eq_self.mpr fun agg _ => by simp]

theorem charged_some (c p : String) : charged P before s steps (some c) p =
    (customerCharges P before s steps c p).sum := by
  have hscope : ∀ agg : UsageAggregate, (∀ c' ∈ some c, TokenEvent.orNull agg.customerId = c') ↔
      TokenEvent.orNull agg.customerId = c := fun agg => by simp
  unfold charged
  rw [customerCharges_eq]
  unfold customerWindows
  simp only [hscope]

theorem scopedCosts_run (hs : Untouched s) (hfired : ∀ a ∈ steps, a.Fired)
    (hplain : ∀ a ∈ steps, a.Plain P) {r : Reads} (hr : r.s = runSinks P before s steps) {t : ℤ}
    (hscan : r.Complete [customerPattern (monthUtc t)]) (scope : Option String) (c : String) :
    (r.scopedCosts scope (monthUtc t)).get c =
      if ∀ c' ∈ restriction scope, c = c' then
        tally none (customerCharges P before s steps c (monthUtc t))
      else none := by
  have hcosts : (r.customerCosts (monthUtc t)).get c =
      tally none (customerCharges P before s steps c (monthUtc t)) := by
    obtain ⟨hscans, -⟩ := hscan _ List.mem_cons_self
    unfold Reads.customerCosts
    rw [hr] at hscans ⊢
    exact (period_reads_written P before hs hfired hplain t).customers _ hscans c
  unfold Reads.scopedCosts
  cases hrestriction : restriction scope with
  | none => rw [hcosts, if_pos (by simp)]
  | some c' =>
    dsimp only
    rw [Table.get_filterKeys, hcosts]
    exact if_congr (by simp) rfl rfl

/-- The costs of a scope add up to what its windows wrote. -/
theorem total_scoped (hs : Untouched s) (hfired : ∀ a ∈ steps, a.Fired)
    (hplain : ∀ a ∈ steps, a.Plain P) {r : Reads} (hr : r.s = runSinks P before s steps) {t : ℤ}
    (hscan : r.Complete [customerPattern (monthUtc t)]) (scope : Option String) :
    total (r.scopedCosts scope (monthUtc t)) =
      charged P before s steps (restriction scope) (monthUtc t) := by
  unfold charged
  refine Table.weight_of_fibers (l := (monthWindows P before s steps (monthUtc t)).filter fun agg =>
    ∀ c ∈ restriction scope, TokenEvent.orNull agg.customerId = c)
    (g := fun agg => TokenEvent.orNull agg.customerId) (f := UsageAggregate.getCostUsd) fun c => ?_
  rw [scopedCosts_run hs hfired hplain hr hscan, customerCharges_eq, List.filter_filter]
  unfold customerWindows
  split_ifs with hscope
  · refine congrArg (fun l => tally none (List.map UsageAggregate.getCostUsd l)) ?_
    refine List.filter_congr fun agg _ => ?_
    rw [Bool.eq_iff_iff]
    simp only [decide_eq_true_eq, Bool.and_eq_true]
    constructor
    · rintro rfl
      exact ⟨rfl, hscope⟩
    · exact And.left
  · rw [List.filter_eq_nil_iff.mpr, List.map_nil, tally_nil]
    intro agg _ h
    simp only [decide_eq_true_eq, Bool.and_eq_true] at h
    obtain ⟨rfl, hin⟩ := h
    exact hscope hin

/-- The reports agree on what a month cost. -/
structure MonthFigures (P : Projection) (before : TokenEvent → ℤ) (s : Keyspace)
    (steps : List SinkStep) (r : Reads) (allowedDims : List String)
    (revenue : String → String → Option ℚ) (tenantId : Option String) (now t : ℤ) : Prop where
  rootCause : ∀ scope baselinePeriod,
    (analyzeRootCause r allowedDims (monthUtc t) baselinePeriod scope).totalCostUsd =
      charged P before s steps (restriction (customerOfScope scope)) (monthUtc t)
  baseline : ∀ scope period,
    (analyzeRootCause r allowedDims period (monthUtc t) scope).baselineCostUsd =
      charged P before s steps (restriction (customerOfScope scope)) (monthUtc t)
  dashboard : ∀ months, ∃ d,
    buildProfitabilityDashboard r allowedDims revenue (monthUtc t) months = some d ∧
      d.totals.costUsd = charged P before s steps none (monthUtc t) ∧
      ∃ last, d.trend.getLast? = some last ∧ last.period = monthUtc t ∧
        last.costUsd = charged P before s steps none (monthUtc t)
  forecast : ∀ scope, (∀ c ∈ customerOfScope scope, Literal c ∧ NoColon c ∧
      r.Complete [customerDailyPattern c (monthUtc t)]) →
    ∃ f, computeForecast r now tenantId (monthUtc t) scope = some f ∧
      f.mtdCostUsd = charged P before s steps (customerOfScope scope) (monthUtc t) ∧
      (monthUtc now ≠ monthUtc t → f.forecastEomCostUsd = f.mtdCostUsd)

theorem total_daily (hs : Untouched s) (hfired : ∀ a ∈ steps, a.Fired)
    (hplain : ∀ a ∈ steps, a.Plain P) {r : Reads} (hr : r.s = runSinks P before s steps) {t : ℤ}
    (hscan : r.Complete [globalDailyPattern (monthUtc t)]) {scope : String}
    (hscope : ∀ c ∈ customerOfScope scope, Literal c ∧ NoColon c ∧
      r.Complete [customerDailyPattern c (monthUtc t)]) :
    total (r.dailyCosts scope (monthUtc t)) =
      charged P before s steps (customerOfScope scope) (monthUtc t) := by
  unfold Reads.dailyCosts
  cases hcustomer : customerOfScope scope with
  | none =>
    obtain ⟨hscans, hnodup⟩ := hscan _ List.mem_cons_self
    rw [charged_none]
    dsimp only
    rw [hr] at hscans ⊢
    exact total_days hs hfired hplain hscans hnodup
  | some c =>
    obtain ⟨hliteral, hcolon, hcomplete⟩ := hscope c hcustomer
    obtain ⟨hscans, -⟩ := hcomplete _ List.mem_cons_self
    rw [charged_some]
    dsimp only
    rw [hr] at hscans ⊢
    exact total_customerDays hs hfired hplain ⟨hliteral, hcolon⟩ hscans

theorem sum_byCustomer (r : Reads) (revenue : String → String → Option ℚ) (p : String) :
    ((sortedBy marginKey (unitEconomics r revenue p)).map CustomerEconomics.costUsd).sum =
      total (r.customerCosts p) := by
  rw [((perm_sortedBy _ _).map _).sum_eq]
  unfold unitEconomics computeUnitEconomics total Table.weight
  rw [List.map_map]
  refine congrArg List.sum (List.map_congr_left fun row _ => ?_)
  show (customerEconomics _ _ _ (revenue row.1 p)).costUsd = row.2
  cases revenue row.1 p with
  | none => rfl
  | some revenueUsd => rfl

private theorem dashboard_eq (r : Reads) (allowedDims : List String)
    (revenue : String → String → Option ℚ) {t : ℤ} (ht : FourDigits t) (months : ℤ) :
    ∃ d, buildProfitabilityDashboard r allowedDims revenue (monthUtc t) months = some d ∧
      d.totals.costUsd = total (r.customerCosts (monthUtc t)) ∧
      ∃ last, d.trend.getLast? = some last ∧ last.period = monthUtc t ∧
        last.costUsd = total (r.customerCosts (monthUtc t)) := by
  unfold buildProfitabilityDashboard
  dsimp only
  rw [priorPeriods_eq ht, Option.map_some]
  refine ⟨_, rfl, sum_byCustomer r revenue _, ?_⟩
  obtain ⟨n, hn⟩ : ∃ n, (max 1 (min months 12)).toNat = n + 1 :=
    ⟨(max 1 (min months 12)).toNat - 1, by omega⟩
  have hfirst : monthUtc (monthStart ((utcDate t).months - ((0 : ℕ) : ℤ))) = monthUtc t := by
    rw [Nat.cast_zero, sub_zero, monthUtc_monthStart]
  dsimp only
  rw [hn, List.range_succ_eq_map, List.map_cons, List.reverse_cons, hfirst]
  unfold listGlobalPeriodCosts
  rw [List.map_append, List.map_append, List.map_singleton, List.map_singleton,
    List.getLast?_append]
  exact ⟨_, rfl, rfl, rfl⟩

/-- After every run of the sinks all reports give a month the cost that its windows wrote, of one
customer or of all. -/
theorem month_figures (P : Projection) (before : TokenEvent → ℤ) {s : Keyspace}
    {steps : List SinkStep} (hs : Untouched s) (hfired : ∀ a ∈ steps, a.Fired)
    (hplain : ∀ a ∈ steps, a.Plain P) {t : ℤ} (ht : FourDigits t) {r : Reads}
    (hr : r.s = runSinks P before s steps)
    (hscan : r.Complete [customerPattern (monthUtc t), globalDailyPattern (monthUtc t)])
    (allowedDims : List String) (revenue : String → String → Option ℚ) (tenantId : Option String)
    (now : ℤ) : MonthFigures P before s steps r allowedDims revenue tenantId now t := by
  have hcustomers : r.Complete [customerPattern (monthUtc t)] := fun pattern hpattern =>
    hscan pattern (List.mem_cons.mpr (Or.inl (List.mem_singleton.mp hpattern)))
  have hdays : r.Complete [globalDailyPattern (monthUtc t)] := fun pattern hpattern =>
    hscan pattern (List.mem_cons_of_mem _ hpattern)
  have hall : total (r.customerCosts (monthUtc t)) = charged P before s steps none (monthUtc t) :=
    total_scoped hs hfired hplain hr hcustomers none
  constructor
  case rootCause => exact fun scope _ => total_scoped hs hfired hplain hr hcustomers _
  case baseline => exact fun scope _ => total_scoped hs hfired hplain hr hcustomers _
  case dashboard =>
    intro months
    have h := dashboard_eq r allowedDims revenue ht months
    rw [hall] at h
    exact h
  case forecast =>
    intro scope hscope
    obtain ⟨f, hf, hmtd, hover⟩ := computeForecast_eq r ht now tenantId scope
    have hdaily := total_daily hs hfired hplain hr hdays hscope
    refine ⟨f, hf, hmtd.trans hdaily, fun h => ?_⟩
    rw [hover h, hmtd]

end Run

def sampleSteps : List SinkStep := [.window (windowOfC1 "acme"), .event (eventOfC1 "acme") "5000"]

def sampleKeys : List String :=
  ["rollup:c1:period:1970-01", "rollup:c1:d:1970-01-01", "rollup:c1:model:gpt-4o:period:1970-01",
    "dim:feature:chat:period:1970-01:cost_usd"]

def sampleReads : Reads where
  s := runSinks sampleProjection (fun _ => 0) {} sampleSteps
  scan pattern := sampleKeys.filter fun key => globMatch pattern key
  walk := id

theorem complete_sample {patterns : List String}
    (h : ∀ pattern ∈ patterns, globMatch pattern heartbeatKey = false ∧
      ∀ key ∈ sampleSteps.flatMap (SinkStep.touched sampleProjection fun _ => 0),
        globMatch pattern key = true → key ∈ sampleKeys) : sampleReads.Complete patterns := by
  intro pattern hpattern
  obtain ⟨hbeat, htouched⟩ := h pattern hpattern
  have hthere : ∀ key ∈ sampleKeys, sampleReads.s.usage.floats key ≠ none ∨
      sampleReads.s.usage.hashInts key "event_count" ≠ none := by
    decide +kernel
  refine ⟨scans_of_touched hbeat ?_ ?_, List.Nodup.filter _ (by decide)⟩
  · exact fun key hkey hmatch => List.mem_filter.mpr ⟨htouched key hkey hmatch, hmatch⟩
  · intro key hkey
    obtain ⟨hmem, hmatch⟩ := List.mem_filter.mp hkey
    exact ⟨Or.inr ((hthere key hmem).imp_right fun h => Or.inl ⟨_, h⟩), hmatch⟩

theorem month_figures_c1 :
    MonthFigures sampleProjection (fun _ => 0) {} sampleSteps sampleReads ["feature"]
      (fun _ _ => some 1) none 2678400000 0 ∧
    charged sampleProjection (fun _ => 0) {} sampleSteps none "1970-01" = 7 / 1000000 := by
  have hmonth : monthUtc 0 = "1970-01" := by decide +kernel
  refine ⟨month_figures sampleProjection (fun _ => 0) (fun _ _ => ⟨rfl, rfl, rfl, rfl, rfl⟩)
    (by decide) (by decide +kernel) (by decide) rfl (complete_sample ?_) _ _ _ _, by decide +kernel⟩
  rw [hmonth]
  decide +kernel

end FluxMeter.Intelligence
