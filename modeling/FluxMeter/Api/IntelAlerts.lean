import FluxMeter.Api.Webhooks
import Mathlib.Data.List.Induction
import Mathlib.Data.List.Sort

/-! The intelligence alerts of `intelligence/alerts.py` and the loop of `intel_alert_worker.py` over one
billing period. The reports of the other two detectors are inputs of a cycle. -/
namespace FluxMeter.Api.IntelAlerts
open Collections FluxMeter.Api.Webhooks

inductive Status
  | profitable
  | loss
  | unknownRevenue
  deriving DecidableEq

structure CustomerEconomics where
  customerId : String
  period : String
  revenueUsd : Option ℚ
  costUsd : ℚ
  marginUsd : Option ℚ
  marginPct : Option ℚ
  status : Status
  recommendation : Option String
  deriving DecidableEq

/-- The row of one customer in `compute_unit_economics`. -/
def customerEconomics (period customerId : String) (costUsd : ℚ) :
    Option ℚ → CustomerEconomics
  | none =>
    { customerId, period, revenueUsd := none, costUsd, marginUsd := none, marginPct := none
      status := .unknownRevenue
      recommendation := some "Connect revenue (OpenMeter overlay or POST /intelligence/revenue)" }
  | some revenueUsd =>
    let marginUsd := revenueUsd - costUsd
    let marginPct := if 0 < revenueUsd then some (marginUsd / revenueUsd * 100) else none
    { customerId, period, revenueUsd := some revenueUsd, costUsd, marginUsd := some marginUsd, marginPct
      status := if marginUsd < 0 then .loss else .profitable
      recommendation :=
        if marginUsd < 0 then some "Customer losing money — suggest plan upgrade or usage cap"
        else if marginPct.any (· < 10) then some "Low margin — review model mix or pricing"
        else none }

/-- `compute_unit_economics`, over what `list_customer_period_costs` and `get_revenue` return. -/
def computeUnitEconomics (period : String) (costs : Table String ℚ) (revenue : String → Option ℚ) :
    List CustomerEconomics :=
  costs.rows.map fun row => customerEconomics period row.1 row.2 (revenue row.1)

structure IntelAlertPayload where
  type : String
  period : String
  summary : String
  recommendation : Option String
  actions : List (String × String)
  deriving DecidableEq

/-- An alert, with the customers that its summary counts. -/
structure Alert where
  payload : IntelAlertPayload
  counted : List String := []
  deriving DecidableEq

/-- `_actions_for`: labels and endpoints. -/
def actionsFor (period : String) : List (String × String) :=
  [("Review profitability", "/intelligence/profitability?period=" ++ period),
    ("Download report", "/intelligence/report?period=" ++ period ++ "&format=markdown")]

/-- What `analyze_root_cause` reports. -/
structure RootCause where
  baselineCostUsd : ℚ
  deltaPct : ℚ
  summary : String

/-- What `compute_forecast` reports. -/
structure Forecast where
  status : String
  summary : String

structure Config where
  period : String
  maxRetries : ℕ := 3
  costSpikePct : ℚ := 25

/-- What a cycle of the loop finds. A report that is `none` raises. -/
structure Cycle where
  url : String
  now : ℤ
  costs : Table String ℚ := .empty
  revenue : String → Option ℚ := fun _ => none
  rootCause : Option RootCause := some ⟨0, 0, ""⟩
  forecast : Option Forecast := some ⟨"on_track", ""⟩
  /-- What the receiver answers to an alert of a type. -/
  attempts : String → ℕ → Attempt

structure Store where
  /-- `intel:snapshot:loss_customers:{period}`. -/
  lossCustomers : Option (List String) := none
  /-- The keys `intel:alert:{type}:{period}:sent`, with the second at which each expires. -/
  sent : String → Option ℤ := fun _ => none

def costSpikeType : String := "INTEL_COST_SPIKE"
def marginLossType : String := "INTEL_MARGIN_LOSS"
def forecastRiskType : String := "INTEL_FORECAST_RISK"

def detectCostSpike (cfg : Config) (report : RootCause) : Option Alert :=
  if report.baselineCostUsd ≤ 0 ∨ report.deltaPct ≤ cfg.costSpikePct then none
  else some
    { payload :=
        { type := costSpikeType
          period := cfg.period
          summary := report.summary
          recommendation :=
            some "Review top contributors and consider model switch or pricing adjustment"
          actions := actionsFor cfg.period } }

def detectForecastRisk (cfg : Config) (report : Forecast) : Option Alert :=
  if report.status = "at_risk" ∨ report.status = "over_budget" then
    some
      { payload :=
          { type := forecastRiskType
            period := cfg.period
            summary := report.summary
            recommendation := some "Align spend with budget or raise limits"
            actions := actionsFor cfg.period } }
  else none

/-- `sorted`. -/
def sorted (ids : List String) : List String := ids.insertionSort (· ≤ ·)

/-- The customers in loss that a cycle finds. -/
def lossIds (economics : List CustomerEconomics) : List String :=
  (economics.filter fun e => e.status = .loss).map CustomerEconomics.customerId

def marginLossSummary (newLoss : List String) : String :=
  toString newLoss.length ++ " new unprofitable customer(s): " ++
    ", ".intercalate (newLoss.take 5) ++
    if 5 < newLoss.length then " (+" ++ toString (newLoss.length - 5) ++ " more)" else ""

/-- `detect_margin_loss`, which writes the snapshot whether or not the alert will be sent. -/
def detectMarginLoss (cfg : Config) (s : Store) (economics : List CustomerEconomics) :
    Store × Option Alert :=
  let lossIds := lossIds economics
  let newLoss := sorted (lossIds.filter fun c => c ∉ s.lossCustomers.getD [])
  ({ s with lossCustomers := some (sorted lossIds) },
    if newLoss = [] then none
    else some
      { payload :=
          { type := marginLossType
            period := cfg.period
            summary := marginLossSummary newLoss
            recommendation := some "Review unit economics and pricing recommendations"
            actions := actionsFor cfg.period }
        counted := newLoss })

/-- `not should_send_alert`. -/
def Store.debounced (s : Store) (type : String) (now : ℤ) : Bool :=
  (s.sent type).any fun expiry => now < expiry

def Store.markAlertSent (s : Store) (type : String) (now : ℤ) : Store :=
  { s with sent := Function.update s.sent type (some (now + 86400)) }

/-- The `for` of the loop; an exception ends it. Returns what was delivered. -/
def sendAll (cfg : Config) (c : Cycle) : Store → List Alert → Store × List Alert
  | s, [] => (s, [])
  | s, a :: rest =>
    if s.debounced a.payload.type c.now then sendAll cfg c s rest
    else
      match deliverWebhook cfg.maxRetries (c.attempts a.payload.type) with
      | none => (s, [])
      | some false => sendAll cfg c s rest
      | some true =>
        let r := sendAll cfg c (s.markAlertSent a.payload.type c.now) rest
        (r.1, a :: r.2)

/-- One turn of `intel_alert_loop`. -/
def cycle (cfg : Config) (s : Store) (c : Cycle) : Store × List Alert :=
  if c.url = "" then (s, [])
  else
    match c.rootCause with
    | none => (s, [])
    | some report =>
      let found := detectMarginLoss cfg s (computeUnitEconomics cfg.period c.costs c.revenue)
      match c.forecast with
      | none => (found.1, [])
      | some forecast =>
        sendAll cfg c found.1 ((detectCostSpike cfg report).toList ++ found.2.toList ++
          (detectForecastRisk cfg forecast).toList)

def after (cfg : Config) (s : Store) (cycles : List Cycle) : Store :=
  cycles.foldl (fun s c => (cycle cfg s c).1) s

def delivered (cfg : Config) : Store → List Cycle → List Alert
  | _, [] => []
  | s, c :: rest => (cycle cfg s c).2 ++ delivered cfg (cycle cfg s c).1 rest

/-! ### What is counted -/

def losses (cfg : Config) (c : Cycle) : List String :=
  lossIds (computeUnitEconomics cfg.period c.costs c.revenue)

/-- The cycle gets as far as the economics of the customers. -/
def Evaluated (c : Cycle) : Prop := c.url ≠ "" ∧ c.rootCause ≠ none

/-- The customers in loss at the last cycle that was evaluated. -/
def lastLosses (cfg : Config) : List Cycle → List String :=
  List.foldl (fun last c => if c.url ≠ "" ∧ c.rootCause.isSome then losses cfg c else last) []

/-- The customer turns into one in loss at `c`. -/
def Becomes (cfg : Config) (before : List Cycle) (c : Cycle) (customerId : String) : Prop :=
  Evaluated c ∧ customerId ∈ losses cfg c ∧ customerId ∉ lastLosses cfg before

/-- The cycle is outside the debounce interval of `INTEL_MARGIN_LOSS`, nothing raises in it before that
alert is sent, and the receiver accepts. -/
structure Open (cfg : Config) (s : Store) (c : Cycle) : Prop where
  url : c.url ≠ ""
  rootCause : c.rootCause ≠ none
  forecast : c.forecast ≠ none
  spike : ∀ report ∈ c.rootCause, ∀ _a ∈ detectCostSpike cfg report,
    s.debounced costSpikeType c.now = false →
      deliverWebhook cfg.maxRetries (c.attempts costSpikeType) ≠ none
  due : s.debounced marginLossType c.now = false
  accepted : deliverWebhook cfg.maxRetries (c.attempts marginLossType) = some true

/-- One of the alerts is an `INTEL_MARGIN_LOSS` that counts the customer. -/
def Counted (alerts : List Alert) (customerId : String) : Prop :=
  ∃ a ∈ alerts, a.payload.type = marginLossType ∧ customerId ∈ a.counted

instance (alerts : List Alert) (customerId : String) : Decidable (Counted alerts customerId) :=
  inferInstanceAs (Decidable (∃ a ∈ alerts, _))

/-- In every part of the run, from the cycle at which a customer turns into one in loss to a later one
that is open, the customer in loss all the time, it is counted. -/
def Remembered (cfg : Config) (cycles : List Cycle) : Prop :=
  ∀ before c between later rest customerId,
    cycles = before ++ c :: (between ++ later :: rest) →
    Becomes cfg before c customerId →
    (∀ d ∈ between ++ [later], Evaluated d → customerId ∈ losses cfg d) →
    Open cfg (after cfg {} (before ++ c :: between)) later →
    Counted (delivered cfg (after cfg {} before) (c :: (between ++ [later]))) customerId

section Counting
variable {cfg : Config} {c : Cycle} {s : Store} {x : String}

@[simp] theorem mem_sorted {ids : List String} : x ∈ sorted ids ↔ x ∈ ids :=
  List.mem_insertionSort _

theorem sendAll_lossCustomers (cfg : Config) (c : Cycle) (s : Store) (alerts : List Alert) :
    (sendAll cfg c s alerts).1.lossCustomers = s.lossCustomers := by
  induction alerts generalizing s with
  | nil => rfl
  | cons a rest ih =>
    unfold sendAll
    split_ifs
    · exact ih s
    · cases deliverWebhook cfg.maxRetries (c.attempts a.payload.type) with
      | none => rfl
      | some ok =>
        cases ok with
        | false => exact ih s
        | true => exact ih _

theorem mem_of_mem_sendAll {a : Alert} {alerts : List Alert}
    (h : a ∈ (sendAll cfg c s alerts).2) : a ∈ alerts := by
  induction alerts generalizing s with
  | nil => exact h
  | cons b rest ih =>
    unfold sendAll at h
    split_ifs at h
    · exact List.mem_cons_of_mem b (ih h)
    · cases hdeliver : deliverWebhook cfg.maxRetries (c.attempts b.payload.type) with
      | none =>
        rw [hdeliver] at h
        cases h
      | some ok =>
        rw [hdeliver] at h
        cases ok with
        | false => exact List.mem_cons_of_mem b (ih h)
        | true =>
          rcases List.mem_cons.mp h with rfl | hrest
          · exact List.mem_cons_self
          · exact List.mem_cons_of_mem b (ih hrest)

/-- An alert that is the only one of its type among those that are left is sent unless it is debounced
or refused. -/
theorem mem_sendAll_head {m : Alert} {rest : List Alert} (hm : m ∉ rest) :
    m ∈ (sendAll cfg c s (m :: rest)).2 ↔ s.debounced m.payload.type c.now = false ∧
      deliverWebhook cfg.maxRetries (c.attempts m.payload.type) = some true := by
  unfold sendAll
  cases hdebounced : s.debounced m.payload.type c.now with
  | true =>
    rw [if_pos rfl]
    simp only [Bool.true_eq_false, false_and, iff_false]
    exact fun hsent => hm (mem_of_mem_sendAll hsent)
  | false =>
    rw [if_neg Bool.false_ne_true]
    cases hdeliver : deliverWebhook cfg.maxRetries (c.attempts m.payload.type) with
    | none => simp
    | some ok =>
      cases ok with
      | false =>
        simp only [Option.some.injEq, Bool.false_eq_true, and_false, iff_false]
        exact fun hsent => hm (mem_of_mem_sendAll hsent)
      | true => simp

theorem mem_sendAll_second {m a : Alert} {rest : List Alert} (hm : m ∉ rest) (hne : m ≠ a)
    (htype : m.payload.type ≠ a.payload.type) :
    m ∈ (sendAll cfg c s (a :: m :: rest)).2 ↔
      (s.debounced a.payload.type c.now = false →
        deliverWebhook cfg.maxRetries (c.attempts a.payload.type) ≠ none) ∧
      s.debounced m.payload.type c.now = false ∧
      deliverWebhook cfg.maxRetries (c.attempts m.payload.type) = some true := by
  rw [sendAll]
  cases hdebounced : s.debounced a.payload.type c.now with
  | true =>
    rw [if_pos rfl, mem_sendAll_head hm]
    simp
  | false =>
    rw [if_neg Bool.false_ne_true]
    cases hdeliver : deliverWebhook cfg.maxRetries (c.attempts a.payload.type) with
    | none => simp
    | some ok =>
      cases ok with
      | false =>
        dsimp only
        rw [mem_sendAll_head hm]
        simp
      | true =>
        have hsame : (s.markAlertSent a.payload.type c.now).debounced m.payload.type c.now =
            s.debounced m.payload.type c.now := by
          unfold Store.debounced Store.markAlertSent
          dsimp only
          rw [Function.update_of_ne htype]
        dsimp only
        rw [List.mem_cons, or_iff_right hne, mem_sendAll_head hm, hsame]
        simp

theorem type_of_detectCostSpike {report : RootCause} {a : Alert}
    (h : detectCostSpike cfg report = some a) : a.payload.type = costSpikeType := by
  unfold detectCostSpike at h
  split_ifs at h
  rw [← Option.some.inj h]

theorem type_of_detectForecastRisk {report : Forecast} {a : Alert}
    (h : detectForecastRisk cfg report = some a) : a.payload.type = forecastRiskType := by
  unfold detectForecastRisk at h
  split_ifs at h
  rw [← Option.some.inj h]

/-- What `detect_margin_loss` reports is counted; it reports nothing when no customer is new. -/
theorem detectMarginLoss_cases (cfg : Config) (s : Store) (economics : List CustomerEconomics) :
    ((detectMarginLoss cfg s economics).2 = none ∧
        ∀ x ∈ lossIds economics, x ∈ s.lossCustomers.getD []) ∨
      ∃ m, (detectMarginLoss cfg s economics).2 = some m ∧ m.payload.type = marginLossType ∧
        ∀ x, x ∈ m.counted ↔ x ∈ lossIds economics ∧ x ∉ s.lossCustomers.getD [] := by
  unfold detectMarginLoss
  dsimp only
  split_ifs with hnone
  · refine Or.inl ⟨rfl, fun x hx => ?_⟩
    by_contra hold
    have hmem : x ∈ sorted ((lossIds economics).filter fun c => c ∉ s.lossCustomers.getD []) :=
      mem_sorted.mpr (List.mem_filter.mpr ⟨hx, by simpa using hold⟩)
    rw [hnone] at hmem
    cases hmem
  · refine Or.inr ⟨_, rfl, rfl, fun x => ?_⟩
    rw [mem_sorted, List.mem_filter, decide_eq_true_eq]

/-- Whether the alert is sent does not depend on the snapshot. -/
theorem sends_margin {report : RootCause} {forecast : Forecast} {m : Alert}
    (hm : m.payload.type = marginLossType) :
    m ∈ (sendAll cfg c s ((detectCostSpike cfg report).toList ++ [m] ++
        (detectForecastRisk cfg forecast).toList)).2 ↔
      (∀ _a ∈ detectCostSpike cfg report, s.debounced costSpikeType c.now = false →
        deliverWebhook cfg.maxRetries (c.attempts costSpikeType) ≠ none) ∧
      s.debounced marginLossType c.now = false ∧
      deliverWebhook cfg.maxRetries (c.attempts marginLossType) = some true := by
  have hrest : m ∉ (detectForecastRisk cfg forecast).toList := by
    intro hmem
    have htype := type_of_detectForecastRisk (Option.mem_toList.mp hmem)
    rw [hm] at htype
    exact absurd htype (by decide)
  cases hspike : detectCostSpike cfg report with
  | none =>
    rw [Option.toList_none, List.nil_append, List.singleton_append, mem_sendAll_head hrest, hm]
    simp
  | some a =>
    have ha := type_of_detectCostSpike hspike
    have htype : m.payload.type ≠ a.payload.type := by
      rw [hm, ha]
      decide
    have hne : m ≠ a := fun heq => htype (congrArg (fun b => b.payload.type) heq)
    rw [Option.toList_some, List.append_assoc, List.singleton_append, List.singleton_append,
      mem_sendAll_second hrest hne htype, hm, ha]
    simp

/-- A cycle counts a customer in loss that the snapshot does not hold, if it is open. -/
theorem counted_cycle : Counted (cycle cfg s c).2 x ↔
    x ∈ losses cfg c ∧ x ∉ s.lossCustomers.getD [] ∧ Open cfg s c := by
  have hnothing : Counted [] x ↔ False := by simp [Counted]
  unfold cycle
  split_ifs with hurl
  · rw [hnothing, false_iff]
    exact fun h => h.2.2.url hurl
  · cases hroot : c.rootCause with
    | none =>
      rw [hnothing, false_iff]
      exact fun h => h.2.2.rootCause hroot
    | some report =>
      cases hforecast : c.forecast with
      | none =>
        rw [hnothing, false_iff]
        exact fun h => h.2.2.forecast hforecast
      | some forecast =>
        dsimp only
        rcases detectMarginLoss_cases cfg s (computeUnitEconomics cfg.period c.costs c.revenue) with
          ⟨hnone, hold⟩ | ⟨m, hsome, hm, hcounted⟩
        · -- nothing is reported, and every customer in loss is known
          rw [hnone]
          constructor
          · rintro ⟨a, ha, htype, -⟩
            have hmem := mem_of_mem_sendAll ha
            rw [Option.toList_none, List.append_nil, List.mem_append] at hmem
            rcases hmem with hspike | hrisk
            · rw [type_of_detectCostSpike (Option.mem_toList.mp hspike)] at htype
              exact absurd htype (by decide)
            · rw [type_of_detectForecastRisk (Option.mem_toList.mp hrisk)] at htype
              exact absurd htype (by decide)
          · rintro ⟨hx, hnew, -⟩
            exact absurd (hold x hx) hnew
        · rw [hsome, Option.toList_some]
          have honly : ∀ a ∈ (sendAll cfg c (detectMarginLoss cfg s
              (computeUnitEconomics cfg.period c.costs c.revenue)).1
              ((detectCostSpike cfg report).toList ++ [m] ++
                (detectForecastRisk cfg forecast).toList)).2,
              a.payload.type = marginLossType → a = m := by
            intro a ha htype
            have hmem := mem_of_mem_sendAll ha
            rw [List.mem_append, List.mem_append, List.mem_singleton] at hmem
            rcases hmem with (hspike | hthis) | hrisk
            · rw [type_of_detectCostSpike (Option.mem_toList.mp hspike)] at htype
              exact absurd htype (by decide)
            · exact hthis
            · rw [type_of_detectForecastRisk (Option.mem_toList.mp hrisk)] at htype
              exact absurd htype (by decide)
          constructor
          · rintro ⟨a, ha, htype, hx⟩
            obtain rfl := honly a ha htype
            obtain ⟨hspike, hdue, haccepted⟩ := (sends_margin hm).mp ha
            obtain ⟨hloss, hnew⟩ := (hcounted x).mp hx
            refine ⟨hloss, hnew, hurl, by simp [hroot], by simp [hforecast], ?_, hdue, haccepted⟩
            intro report' hreport'
            rw [hroot] at hreport'
            obtain rfl := Option.some.inj hreport'
            exact hspike
          · rintro ⟨hloss, hnew, hopen⟩
            refine ⟨m, (sends_margin hm).mpr ⟨?_, hopen.due, hopen.accepted⟩, hm,
              (hcounted x).mpr ⟨hloss, hnew⟩⟩
            exact hopen.spike report hroot

/-- The snapshot holds the customers in loss at the last cycle that was evaluated. -/
theorem cycle_lossCustomers (cfg : Config) (s : Store) (c : Cycle) :
    (cycle cfg s c).1.lossCustomers =
      if c.url ≠ "" ∧ c.rootCause.isSome then some (sorted (losses cfg c)) else s.lossCustomers := by
  unfold cycle
  by_cases hurl : c.url = ""
  · simp [hurl]
  · rw [if_neg hurl]
    cases hroot : c.rootCause with
    | none => simp
    | some report =>
      rw [if_pos ⟨hurl, rfl⟩]
      cases hforecast : c.forecast with
      | none => rfl
      | some forecast => exact sendAll_lossCustomers cfg c _ _

private theorem mem_snapshot (cycles : List Cycle) :
    x ∈ (after cfg {} cycles).lossCustomers.getD [] ↔ x ∈ lastLosses cfg cycles := by
  induction cycles using List.reverseRecOn with
  | nil => exact Iff.rfl
  | append_singleton cycles c ih =>
    unfold after lastLosses at ih ⊢
    rw [List.foldl_concat, List.foldl_concat, cycle_lossCustomers]
    split_ifs
    · rw [Option.getD_some, mem_sorted]
    · exact ih

end Counting

/-! ### Runs -/

section Runs
variable {cfg : Config} {c : Cycle} {s : Store} {x : String}

private theorem not_counted_of_known {cycles : List Cycle} (hknown : x ∈ s.lossCustomers.getD [])
    (hstays : ∀ d ∈ cycles, Evaluated d → x ∈ losses cfg d) :
    ¬ Counted (delivered cfg s cycles) x := by
  induction cycles generalizing s with
  | nil =>
    rintro ⟨a, ha, -⟩
    cases ha
  | cons d rest ih =>
    have hnext : x ∈ (cycle cfg s d).1.lossCustomers.getD [] := by
      rw [cycle_lossCustomers]
      split_ifs with heval
      · rw [Option.getD_some, mem_sorted]
        exact hstays d List.mem_cons_self ⟨heval.1, Option.isSome_iff_ne_none.mp heval.2⟩
      · exact hknown
    rintro ⟨a, ha, htype, hx⟩
    rcases List.mem_append.mp ha with hnow | hlater
    · exact (counted_cycle.mp ⟨a, hnow, htype, hx⟩).2.1 hknown
    · exact ih hnext (fun d' hd' => hstays d' (List.mem_cons_of_mem d hd')) ⟨a, hlater, htype, hx⟩

/-- A customer that turns into one in loss and stays so is counted by the cycle at which it turns, or
by none. -/
theorem counted_iff_open {before rest : List Cycle} (hbecomes : Becomes cfg before c x)
    (hstays : ∀ d ∈ rest, Evaluated d → x ∈ losses cfg d) :
    Counted (delivered cfg (after cfg {} before) (c :: rest)) x ↔
      Open cfg (after cfg {} before) c := by
  obtain ⟨heval, hloss, hnew⟩ := hbecomes
  rw [← mem_snapshot] at hnew
  have hknown : x ∈ (cycle cfg (after cfg {} before) c).1.lossCustomers.getD [] := by
    rw [cycle_lossCustomers, if_pos ⟨heval.1, Option.isSome_iff_ne_none.mpr heval.2⟩,
      Option.getD_some, mem_sorted]
    exact hloss
  constructor
  · rintro ⟨a, ha, htype, hx⟩
    rcases List.mem_append.mp ha with hnow | hlater
    · exact (counted_cycle.mp ⟨a, hnow, htype, hx⟩).2.2
    · exact absurd ⟨a, hlater, htype, hx⟩ (not_counted_of_known hknown hstays)
  · intro hopen
    obtain ⟨a, ha, htype, hx⟩ := counted_cycle.mpr ⟨hloss, hnew, hopen⟩
    exact ⟨a, List.mem_append_left _ ha, htype, hx⟩

/-- Over every sequence of cycles: all are remembered exactly if each customer that turns into one in
loss, and stays so until a later open cycle, turns so at a cycle that is open itself. -/
theorem remembered_iff (cfg : Config) (cycles : List Cycle) :
    Remembered cfg cycles ↔ ∀ before c between later rest x,
      cycles = before ++ c :: (between ++ later :: rest) → Becomes cfg before c x →
      (∀ d ∈ between ++ [later], Evaluated d → x ∈ losses cfg d) →
      Open cfg (after cfg {} (before ++ c :: between)) later →
      Open cfg (after cfg {} before) c := by
  constructor
  · intro h before c between later rest x hcycles hbecomes hstays hlater
    exact (counted_iff_open hbecomes hstays).mp
      (h before c between later rest x hcycles hbecomes hstays hlater)
  · intro h before c between later rest x hcycles hbecomes hstays hlater
    exact (counted_iff_open hbecomes hstays).mpr
      (h before c between later rest x hcycles hbecomes hstays hlater)

/-- A cycle that finds these customers in loss, and a receiver that answers with one status code. -/
def losing (now : ℤ) (customers : List String) (status : ℕ) : Cycle :=
  { url := "https://a"
    now
    costs := .ofList (customers.map fun customerId => (customerId, 10))
    revenue := fun _ => some 5
    attempts := fun _ _ => .response status }

theorem open_losing {now : ℤ} {customers : List String} {status : ℕ} (hstatus : status < 400)
    (hdue : s.debounced marginLossType now = false) :
    Open ⟨"2026-07", 3, 25⟩ s (losing now customers status) where
  url := (by decide : "https://a" ≠ "")
  rootCause := Option.some_ne_none _
  forecast := Option.some_ne_none _
  spike := by
    intro report hreport a ha
    obtain rfl := Option.some.inj hreport
    cases ha
  due := hdue
  accepted := by
    have hserver : status < 500 := by omega
    simp [losing, deliverWebhook, hserver, hstatus]

/-- The delivery fails at the cycle at which `c1` turns into a customer in loss, and works at the next
one; and `c1` turns so within a day of the alert for `c0`. -/
theorem not_remembered :
    ¬ Remembered ⟨"2026-07", 3, 25⟩ [losing 0 ["c1"] 503, losing 300 ["c1"] 200] ∧
    ¬ Remembered ⟨"2026-07", 3, 25⟩
      [losing 0 ["c0"] 200, losing 300 ["c0", "c1"] 200, losing 90000 ["c0", "c1"] 200] := by
  constructor
  · intro h
    have hcounted := h [] (losing 0 ["c1"] 503) [] (losing 300 ["c1"] 200) [] "c1" rfl
      ⟨⟨by decide, Option.some_ne_none _⟩, by decide +kernel, by decide +kernel⟩
      (fun d hd _ => by
        obtain rfl := List.mem_singleton.mp hd
        decide +kernel)
      (open_losing (by decide) (by decide +kernel))
    revert hcounted
    decide +kernel
  · intro h
    have hcounted := h [losing 0 ["c0"] 200] (losing 300 ["c0", "c1"] 200) []
      (losing 90000 ["c0", "c1"] 200) [] "c1" rfl
      ⟨⟨by decide, Option.some_ne_none _⟩, by decide +kernel, by decide +kernel⟩
      (fun d hd _ => by
        obtain rfl := List.mem_singleton.mp hd
        decide +kernel)
      (open_losing (by decide) (by decide +kernel))
    revert hcounted
    decide +kernel

end Runs

end FluxMeter.Api.IntelAlerts
