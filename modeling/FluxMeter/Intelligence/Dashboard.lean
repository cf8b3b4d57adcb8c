import FluxMeter.Intelligence.Contributors

/-! What the profitability dashboard says after a run of the sinks: its customers, its totals and its
trend against what the windows of each month wrote, and how the revenue is divided among features. -/
namespace FluxMeter.Intelligence
open FluxMeter.Api.IntelAlerts FluxMeter.Budget FluxMeter.Keys FluxMeter.Model FluxMeter.Usage
  FluxMeter.Usage.PeriodReader Collections Collections.Glob

section Run
variable (P : Projection) (before : TokenEvent → ℤ) (s : Keyspace) (steps : List SinkStep)

def chargedCustomers (p : String) : List String :=
  ((monthWindows P before s steps p).map fun agg => TokenEvent.orNull agg.customerId).dedup

def monthRevenues (revenue : String → String → Option ℚ) (p : String) : List ℚ :=
  (chargedCustomers P before s steps p).filterMap fun c => revenue c p

def trendRow (revenue : String → String → Option ℚ) (p : String) : PeriodTotals :=
  let revenueUsd :=
    if 0 < (monthRevenues P before s steps revenue p).sum then
      some (monthRevenues P before s steps revenue p).sum
    else none
  { period := p
    costUsd := charged P before s steps none p
    revenueUsd
    marginUsd := revenueUsd.map fun rev => rev - charged P before s steps none p }

/-- The months that a trend of `n` months has, the last one that of `t`. -/
def trendMonths (t : ℤ) (n : ℕ) : List String :=
  ((List.range n).map fun i => monthUtc (monthStart ((utcDate t).months - (i : ℕ)))).reverse

/-- A dashboard says what the sinks wrote in its months. -/
structure Accounts (allowedDims : List String) (revenue : String → String → Option ℚ) (t : ℤ)
    (months : ℤ) (d : ProfitabilityDashboard) : Prop where
  customers : d.byCustomer.Perm ((chargedCustomers P before s steps (monthUtc t)).map fun c =>
    customerEconomics (monthUtc t) c (charged P before s steps (some c) (monthUtc t))
      (revenue c (monthUtc t)))
  ordered : d.byCustomer.Pairwise fun e e' => marginKey e ≤ marginKey e'
  cost : d.totals.costUsd = charged P before s steps none (monthUtc t)
  known : d.totals.revenueUsd =
    if monthRevenues P before s steps revenue (monthUtc t) = [] then none
    else some (monthRevenues P before s steps revenue (monthUtc t)).sum
  margin : d.totals.marginUsd =
    d.totals.revenueUsd.map fun rev => rev - charged P before s steps none (monthUtc t)
  losses : d.totals.lossCustomerCount =
    (chargedCustomers P before s steps (monthUtc t)).countP fun c =>
      (revenue c (monthUtc t)).any fun rev => rev < charged P before s steps (some c) (monthUtc t)
  trend : d.trend = (trendMonths t (max 1 (min months 12)).toNat).map
    (trendRow P before s steps revenue)
  products : ∀ feature cost, (∃ p ∈ d.byProduct, p.product = feature ∧ p.costUsd = cost) ↔
    "feature" ∈ allowedDims ∧
      (tally none (dimCharges P before s steps "feature" feature (monthUtc t))).filter (0 < ·) =
        some cost
  allocated : d.byProduct ≠ [] → (monthRevenues P before s steps revenue (monthUtc t)).sum ≠ 0 →
    (d.byProduct.filterMap ProductEconomics.revenueUsd).sum =
      (monthRevenues P before s steps revenue (monthUtc t)).sum

end Run

/-! ### The customers of a month -/

section Customers
variable {P : Projection} {before : TokenEvent → ℤ} {s : Keyspace} {steps : List SinkStep}

theorem mem_chargedCustomers {c p : String} : c ∈ chargedCustomers P before s steps p ↔
    customerCharges P before s steps c p ≠ [] := by
  unfold chargedCustomers
  rw [List.mem_dedup, List.mem_map, customerCharges_eq, Ne, List.map_eq_nil_iff]
  unfold customerWindows
  rw [List.filter_eq_nil_iff]
  push Not
  exact exists_congr fun agg => and_congr_right fun _ => decide_eq_true_iff.symm

theorem rows_customerCosts (hs : Untouched s) (hfired : ∀ a ∈ steps, a.Fired)
    (hplain : ∀ a ∈ steps, a.Plain P) {r : Reads} (hr : r.s = runSinks P before s steps) {t : ℤ}
    (hscan : r.Complete [customerPattern (monthUtc t)]) :
    (r.customerCosts (monthUtc t)).rows.Perm
      ((chargedCustomers P before s steps (monthUtc t)).map fun c =>
        (c, charged P before s steps (some c) (monthUtc t))) := by
  have hget : ∀ c, (r.customerCosts (monthUtc t)).get c =
      tally none (customerCharges P before s steps c (monthUtc t)) := by
    intro c
    have hscoped := scopedCosts_run hs hfired hplain hr hscan none c
    rw [if_pos (by simp [restriction])] at hscoped
    exact hscoped
  have hrows : (r.customerCosts (monthUtc t)).rows.Nodup := List.Nodup.of_map _ (Table.nodup _)
  refine (List.perm_ext_iff_of_nodup hrows ((List.nodup_dedup _).map fun c c' h => ?_)).mpr ?_
  · exact congrArg Prod.fst h
  · rintro ⟨c, q⟩
    rw [← Table.get_eq_some_iff, hget, List.mem_map]
    constructor
    · intro h
      have hne : customerCharges P before s steps c (monthUtc t) ≠ [] := by
        intro hnil
        rw [hnil, tally_nil] at h
        cases h
      rw [tally_of_ne_nil none hne, Option.getD_none, zero_add, ← charged_some] at h
      exact ⟨c, mem_chargedCustomers.mpr hne, by rw [Option.some.inj h]⟩
    · rintro ⟨c', hc', heq⟩
      obtain ⟨rfl, rfl⟩ := Prod.mk.inj heq
      rw [tally_of_ne_nil none (mem_chargedCustomers.mp hc'), Option.getD_none, zero_add,
        ← charged_some]

theorem unitEconomics_perm (hs : Untouched s) (hfired : ∀ a ∈ steps, a.Fired)
    (hplain : ∀ a ∈ steps, a.Plain P) {r : Reads} (hr : r.s = runSinks P before s steps) {t : ℤ}
    (hscan : r.Complete [customerPattern (monthUtc t)]) (revenue : String → String → Option ℚ) :
    (unitEconomics r revenue (monthUtc t)).Perm
      ((chargedCustomers P before s steps (monthUtc t)).map fun c =>
        customerEconomics (monthUtc t) c (charged P before s steps (some c) (monthUtc t))
          (revenue c (monthUtc t))) := by
  have hrows := (rows_customerCosts hs hfired hplain hr hscan).map fun row =>
    customerEconomics (monthUtc t) row.1 row.2 (revenue row.1 (monthUtc t))
  rw [List.map_map] at hrows
  exact hrows

private theorem revenueUsd_customerEconomics (p c : String) (cost : ℚ) (revenue : Option ℚ) :
    (customerEconomics p c cost revenue).revenueUsd = revenue := by
  cases revenue with
  | none => rfl
  | some revenueUsd => rfl

theorem loss_customerEconomics (p c : String) (cost : ℚ) (revenue : Option ℚ) :
    (customerEconomics p c cost revenue).status = .loss ↔ revenue.any (· < cost) = true := by
  cases revenue with
  | none => simp [customerEconomics]
  | some revenueUsd =>
    have hstatus : (customerEconomics p c cost (some revenueUsd)).status =
        if revenueUsd - cost < 0 then .loss else .profitable := rfl
    have hloss : revenueUsd - cost < 0 ↔ revenueUsd < cost := sub_neg
    rw [hstatus, Option.any_some, decide_eq_true_iff, ← hloss]
    split_ifs with h
    · simp [h]
    · simp [h]

theorem knownRevenues_perm {p : String} {revenue : String → String → Option ℚ}
    {economics : List CustomerEconomics}
    (h : economics.Perm ((chargedCustomers P before s steps p).map fun c =>
      customerEconomics p c (charged P before s steps (some c) p) (revenue c p))) :
    (knownRevenues economics).Perm (monthRevenues P before s steps revenue p) := by
  unfold knownRevenues monthRevenues
  refine (h.filterMap _).trans ?_
  rw [List.filterMap_map]
  refine List.Perm.of_eq (List.filterMap_congr fun c _ => ?_)
  exact revenueUsd_customerEconomics p c _ _

end Customers

/-! ### The revenue of features -/

theorem sum_allocated {rows : List (String × ℚ)} (hpos : ∀ row ∈ rows, 0 < row.2)
    (hne : rows ≠ []) {globalRev : ℚ} (hrev : globalRev ≠ 0) (period : String) :
    ((rows.map fun row => productOf period globalRev (rows.map Prod.snd).sum row.1 row.2).filterMap
      ProductEconomics.revenueUsd).sum = globalRev := by
  have htotal : 0 < (rows.map Prod.snd).sum := by
    refine List.sum_pos _ ?_ (mt List.map_eq_nil_iff.mp hne)
    intro q hq
    obtain ⟨row, hrow, rfl⟩ := List.mem_map.mp hq
    exact hpos row hrow
  have hshare : ∀ row : String × ℚ,
      (productOf period globalRev (rows.map Prod.snd).sum row.1 row.2).revenueUsd =
        some (row.2 * (globalRev / (rows.map Prod.snd).sum)) := by
    intro row
    unfold productOf
    dsimp only
    rw [if_pos hrev, mul_div_left_comm]
  rw [List.filterMap_map]
  have hlist : rows.filterMap (ProductEconomics.revenueUsd ∘ fun row =>
      productOf period globalRev (rows.map Prod.snd).sum row.1 row.2) =
      rows.map fun row => row.2 * (globalRev / (rows.map Prod.snd).sum) :=
    (List.filterMap_congr fun row _ => hshare row).trans (congrFun List.filterMap_eq_map rows)
  rw [hlist, List.sum_map_mul_right]
  exact mul_div_cancel₀ _ htotal.ne'

section Products
variable {r : Reads} {allowedDims : List String} {period : String}
  {economics : List CustomerEconomics}

/-- The features of a dashboard with their costs. -/
def featureCosts (r : Reads) (allowedDims : List String) (period : String) : Table String ℚ :=
  if "feature" ∈ allowedDims then r.dimCosts "feature" period else .empty

theorem mem_byProduct {feature : String} {cost : ℚ} :
    (∃ p ∈ byProduct r allowedDims period economics, p.product = feature ∧ p.costUsd = cost) ↔
      (featureCosts r allowedDims period).get feature = some cost := by
  rw [Table.get_eq_some_iff]
  unfold byProduct
  simp only [mem_sortedBy, List.mem_map]
  constructor
  · rintro ⟨p, ⟨row, hrow, rfl⟩, rfl, rfl⟩
    exact hrow
  · intro hrow
    exact ⟨_, ⟨_, hrow, rfl⟩, rfl, rfl⟩

private theorem sum_byProduct
    (hpos : ∀ k q, (featureCosts r allowedDims period).get k = some q → 0 < q)
    (hne : byProduct r allowedDims period economics ≠ [])
    (hrev : (knownRevenues economics).sum ≠ 0) :
    ((byProduct r allowedDims period economics).filterMap ProductEconomics.revenueUsd).sum =
      (knownRevenues economics).sum := by
  have hrows : ∀ row ∈ (featureCosts r allowedDims period).rows, 0 < row.2 := fun row hrow =>
    hpos row.1 row.2 ((Table.get_eq_some_iff _ _ _).mpr hrow)
  have hnonempty : (featureCosts r allowedDims period).rows ≠ [] := by
    intro hnil
    apply hne
    have hnone : (featureCosts r allowedDims period).rows.map (fun row => productOf period
        (knownRevenues economics).sum
        (if total (featureCosts r allowedDims period) = 0 then 1
          else total (featureCosts r allowedDims period)) row.1 row.2) = [] := by
      rw [hnil]
      rfl
    show sortedBy ProductEconomics.marginKey _ = []
    exact List.perm_nil.mp ((perm_sortedBy _ _).trans (List.Perm.of_eq hnone))
  have htotal : total (featureCosts r allowedDims period) ≠ 0 := by
    have hsum : total (featureCosts r allowedDims period) =
        ((featureCosts r allowedDims period).rows.map Prod.snd).sum := rfl
    rw [hsum]
    refine (List.sum_pos _ ?_ (mt List.map_eq_nil_iff.mp hnonempty)).ne'
    intro q hq
    obtain ⟨row, hrow, rfl⟩ := List.mem_map.mp hq
    exact hrows row hrow
  have hsum := sum_allocated hrows hnonempty hrev period
  rw [← hsum]
  refine (((perm_sortedBy _ _).filterMap _).sum_eq).trans ?_
  show ((List.map (fun row : String × ℚ => productOf period _
    (if total (featureCosts r allowedDims period) = 0 then 1
      else total (featureCosts r allowedDims period)) row.1 row.2) _).filterMap _).sum = _
  rw [if_neg htotal]
  rfl

end Products

section Run
variable {P : Projection} {before : TokenEvent → ℤ} {s : Keyspace} {steps : List SinkStep}

private theorem trendOf_run (hs : Untouched s) (hfired : ∀ a ∈ steps, a.Fired)
    (hplain : ∀ a ∈ steps, a.Plain P) {r : Reads} (hr : r.s = runSinks P before s steps) {t : ℤ}
    (hscan : r.Complete [customerPattern (monthUtc t)]) (revenue : String → String → Option ℚ) :
    trendOf r revenue (monthUtc t) (total (r.customerCosts (monthUtc t))) =
      trendRow P before s steps revenue (monthUtc t) := by
  have hcost : total (r.customerCosts (monthUtc t)) = charged P before s steps none (monthUtc t) :=
    total_scoped hs hfired hplain hr hscan none
  have hkeys : (r.customerCosts (monthUtc t)).keys.Perm
      (chargedCustomers P before s steps (monthUtc t)) := by
    have hrows := (rows_customerCosts hs hfired hplain hr hscan).map Prod.fst
    rw [List.map_map] at hrows
    exact hrows.trans (List.Perm.of_eq (List.map_id _))
  have hrev : ((r.customerCosts (monthUtc t)).keys.map fun c =>
      (revenue c (monthUtc t)).getD 0).sum =
      (monthRevenues P before s steps revenue (monthUtc t)).sum := by
    unfold monthRevenues
    rw [(hkeys.map _).sum_eq, sum_filterMap]
  unfold trendOf trendRow
  dsimp only
  rw [hrev, hcost]

/-- After every run of the sinks a dashboard accounts for the months that it covers. -/
theorem dashboard_accounts (P : Projection) (before : TokenEvent → ℤ) {s : Keyspace}
    {steps : List SinkStep} (hs : Untouched s) (hfired : ∀ a ∈ steps, a.Fired)
    (hplain : ∀ a ∈ steps, a.Plain P) {r : Reads} (hr : r.s = runSinks P before s steps) {t : ℤ}
    (ht : FourDigits t) (months : ℤ) (allowedDims : List String)
    (hscan : ∀ p ∈ trendMonths t (max 1 (min months 12)).toNat, r.Complete [customerPattern p])
    (hdims : r.Complete [dimPattern "feature" (monthUtc t)])
    (revenue : String → String → Option ℚ) :
    ∃ d, buildProfitabilityDashboard r allowedDims revenue (monthUtc t) months = some d ∧
      Accounts P before s steps allowedDims revenue t months d := by
  have hlast : monthUtc t ∈ trendMonths t (max 1 (min months 12)).toNat := by
    refine List.mem_reverse.mpr (List.mem_map.mpr ⟨0, List.mem_range.mpr (by omega), ?_⟩)
    rw [Nat.cast_zero, sub_zero, monthUtc_monthStart]
  have hthis := hscan _ hlast
  have heconomics := unitEconomics_perm hs hfired hplain hr hthis revenue
  have hsorted : (sortedBy marginKey (unitEconomics r revenue (monthUtc t))).Perm _ :=
    (perm_sortedBy _ _).trans heconomics
  have hknown := knownRevenues_perm hsorted
  have hcost : ((sortedBy marginKey (unitEconomics r revenue (monthUtc t))).map
      CustomerEconomics.costUsd).sum = charged P before s steps none (monthUtc t) :=
    (sum_byCustomer r revenue _).trans (total_scoped hs hfired hplain hr hthis none)
  have hrevenue : (dashboardTotals (sortedBy marginKey
      (unitEconomics r revenue (monthUtc t)))).revenueUsd =
      if monthRevenues P before s steps revenue (monthUtc t) = [] then none
      else some (monthRevenues P before s steps revenue (monthUtc t)).sum := by
    unfold dashboardTotals
    dsimp only
    rw [hknown.sum_eq]
    exact if_congr ⟨fun h => (h ▸ hknown).nil_eq.symm, fun h => (h ▸ hknown).eq_nil⟩ rfl rfl
  have hfeatures : ∀ feature, (featureCosts r allowedDims (monthUtc t)).get feature =
      if "feature" ∈ allowedDims then
        (tally none (dimCharges P before s steps "feature" feature (monthUtc t))).filter (0 < ·)
      else none := by
    intro feature
    unfold featureCosts
    split_ifs
    · obtain ⟨hscans, -⟩ := hdims _ List.mem_cons_self
      show (listDimPeriodCosts r.s _).get feature = _
      rw [hr] at hscans ⊢
      exact (period_reads_written P before hs hfired hplain t).dims "feature" _ (by decide)
        (by decide) hscans feature
    · rfl
  unfold buildProfitabilityDashboard
  dsimp only
  rw [priorPeriods_eq ht, Option.map_some]
  refine ⟨_, rfl, ?_⟩
  constructor
  case customers => exact hsorted
  case ordered => exact pairwise_sortedBy _ _
  case cost => exact hcost
  case known => exact hrevenue
  case margin =>
    dsimp only
    rw [← hcost]
    rfl
  case losses =>
    show List.countP _ _ = _
    rw [hsorted.countP_eq, List.countP_map]
    refine List.countP_congr fun c _ => ?_
    rw [Function.comp_apply, decide_eq_true_iff]
    exact loss_customerEconomics _ c _ _
  case trend =>
    unfold listGlobalPeriodCosts
    rw [List.map_map]
    refine List.map_congr_left fun p hp => ?_
    have hcomplete := hscan p hp
    obtain ⟨i, -, rfl⟩ := List.mem_map.mp (List.mem_reverse.mp hp)
    exact trendOf_run hs hfired hplain hr hcomplete revenue
  case products =>
    intro feature cost
    rw [mem_byProduct, hfeatures]
    by_cases hfeature : "feature" ∈ allowedDims
    · rw [if_pos hfeature, and_iff_right hfeature]
    · rw [if_neg hfeature]
      exact iff_of_false (Option.some_ne_none cost).symm fun h => hfeature h.1
  case allocated =>
    intro hne hrev
    rw [← hknown.sum_eq] at hrev ⊢
    refine sum_byProduct (fun k q hq => ?_) hne hrev
    rw [hfeatures] at hq
    split_ifs at hq
    exact of_decide_eq_true (Option.mem_filter_iff.mp hq).2

end Run

theorem dashboard_accounts_c1 :
    (∃ d, buildProfitabilityDashboard sampleReads ["feature"] (fun _ _ => some 1) "1970-01" 2 = some d ∧
      Accounts sampleProjection (fun _ => 0) {} sampleSteps ["feature"] (fun _ _ => some 1) 0 2 d) ∧
    trendMonths 0 2 = ["1969-12", "1970-01"] ∧
    chargedCustomers sampleProjection (fun _ => 0) {} sampleSteps "1970-01" = ["c1"] := by
  have hmonth : monthUtc 0 = "1970-01" := by decide +kernel
  have haccounts := @dashboard_accounts sampleProjection (fun _ => 0) {} sampleSteps
    (fun _ _ => ⟨rfl, rfl, rfl, rfl, rfl⟩) (by decide) (by decide +kernel) sampleReads rfl 0
    (by decide) 2 ["feature"] (fun p hp => complete_sample (by revert p hp; decide +kernel))
    (complete_sample (by decide +kernel)) fun _ _ => some 1
  rw [hmonth] at haccounts
  exact ⟨haccounts, by decide +kernel, by decide +kernel⟩

end FluxMeter.Intelligence
