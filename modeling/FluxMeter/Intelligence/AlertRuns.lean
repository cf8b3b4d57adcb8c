import FluxMeter.Intelligence.MonthFigures

/-! `intel_alert_loop` of `intel_alert_worker.py` beside the sinks, through all months: which alerts a turn
of the loop sends, in what the windows wrote and in the turns before it. One turn is taken at a time. -/
namespace FluxMeter.Intelligence
open FluxMeter.Api FluxMeter.Api.IntelAlerts FluxMeter.Api.Webhooks FluxMeter.Keys FluxMeter.Model
  FluxMeter.Usage FluxMeter.Usage.PeriodReader Collections Collections.Glob

/-- What is the same at each turn. -/
structure LoopConfig where
  allowedDims : List String := []
  maxRetries : ℕ := 3
  costSpikePct : ℚ := 25

def LoopConfig.ofPeriod (cfg : LoopConfig) (period : String) : IntelAlerts.Config :=
  { period, maxRetries := cfg.maxRetries, costSpikePct := cfg.costSpikePct }

@[simp] theorem ofPeriod_period (cfg : LoopConfig) (period : String) :
    (cfg.ofPeriod period).period = period := rfl

/-- What a turn meets: the milliseconds of its own clock and the seconds of that of Redis, the order in
which keys are found, the revenues and the receiver. -/
structure Turn where
  url : String
  nowMs : ℤ
  second : ℤ
  scan : String → List String
  walk : List String → List String
  revenue : String → String → Option ℚ
  attempts : String → ℕ → Webhooks.Attempt

namespace Turn
variable (t : Turn)

def period : String := monthUtc t.nowMs

def baseline : String := monthUtc (monthStart ((utcDate t.nowMs).months - 1))

def reads (s : Keyspace) : Reads := { s, scan := t.scan, walk := t.walk }

/-- What the detectors of `collect_alerts` find. -/
def found (cfg : LoopConfig) (s : Keyspace) : Cycle where
  url := t.url
  now := t.second
  costs := (t.reads s).customerCosts t.period
  revenue c := t.revenue c t.period
  rootCause := (priorPeriod t.period).map fun baseline =>
    let report := analyzeRootCause (t.reads s) cfg.allowedDims t.period baseline "global"
    ⟨report.baselineCostUsd, report.deltaPct, report.summary⟩
  forecast := (computeForecast (t.reads s) t.nowMs none t.period "global").map fun f =>
    ⟨f.status.text, f.summary⟩
  attempts := t.attempts

@[simp] theorem found_now (cfg : LoopConfig) (s : Keyspace) : (t.found cfg s).now = t.second := rfl

end Turn

structure Sent where
  second : ℤ
  alert : Alert

structure LoopState where
  keyspace : Keyspace
  stores : String → IntelAlerts.Store := fun _ => {}
  sent : List Sent := []

/-- What a turn does with the keys of its month, and what it sends. -/
def LoopState.turned (cfg : LoopConfig) (w : LoopState) (t : Turn) : IntelAlerts.Store × List Alert :=
  cycle (cfg.ofPeriod t.period) (w.stores t.period) (t.found cfg w.keyspace)

inductive LoopStep
  | sink (a : SinkStep)
  | turn (t : Turn)

def LoopStep.run (P : Projection) (before : TokenEvent → ℤ) (cfg : LoopConfig) (w : LoopState) :
    LoopStep → LoopState
  | .sink a => { w with keyspace := a.run P before w.keyspace }
  | .turn t =>
    { w with
      stores := Function.update w.stores t.period (w.turned cfg t).1
      sent := w.sent ++ (w.turned cfg t).2.map (Sent.mk t.second) }

@[simp] theorem stores_turn (P : Projection) (before : TokenEvent → ℤ) (cfg : LoopConfig)
    (w : LoopState) (t : Turn) : ((LoopStep.turn t).run P before cfg w).stores =
      Function.update w.stores t.period (w.turned cfg t).1 := rfl

@[simp] theorem sent_turn (P : Projection) (before : TokenEvent → ℤ) (cfg : LoopConfig)
    (w : LoopState) (t : Turn) : ((LoopStep.turn t).run P before cfg w).sent =
      w.sent ++ (w.turned cfg t).2.map (Sent.mk t.second) := rfl

def runLoop (P : Projection) (before : TokenEvent → ℤ) (cfg : LoopConfig) (s : Keyspace)
    (steps : List LoopStep) : LoopState :=
  steps.foldl (LoopStep.run P before cfg) { keyspace := s }

def sinksOf (steps : List LoopStep) : List SinkStep :=
  steps.filterMap fun
    | .sink a => some a
    | .turn _ => none

theorem runLoop_concat (P : Projection) (before : TokenEvent → ℤ) (cfg : LoopConfig) (s : Keyspace)
    (steps : List LoopStep) (a : LoopStep) :
    runLoop P before cfg s (steps ++ [a]) = a.run P before cfg (runLoop P before cfg s steps) :=
  List.foldl_concat _ _ _ _

/-- The loop writes nothing that the sinks read. -/
theorem keyspace_runLoop (P : Projection) (before : TokenEvent → ℤ) (cfg : LoopConfig) (s : Keyspace)
    (steps : List LoopStep) :
    (runLoop P before cfg s steps).keyspace = runSinks P before s (sinksOf steps) := by
  induction steps using List.reverseRecOn with
  | nil => rfl
  | append_singleton steps a ih =>
    rw [runLoop_concat]
    unfold sinksOf at ih ⊢
    rw [List.filterMap_append]
    cases a with
    | sink a =>
      show a.run P before _ = _
      rw [ih]
      exact (List.foldl_concat _ _ _ _).symm
    | turn t =>
      show (runLoop P before cfg s steps).keyspace = _
      rw [ih]
      exact congrArg _ (List.append_nil _).symm

/-! ### Debouncing over a run -/

/-- An alert of the type was sent for the month in the last day. -/
def Recent (sent : List Sent) (period type : String) (second : ℤ) : Prop :=
  ∃ d ∈ sent, d.alert.payload.period = period ∧ d.alert.payload.type = type ∧
    second < d.second + 86400

/-- The keys of a month hold back what was sent in the last day. -/
def Reflects (store : IntelAlerts.Store) (sent : List Sent) (period : String) : Prop :=
  ∀ type second, store.debounced type second = true ↔ Recent sent period type second

/-- Between two alerts of one month and type lies a day. -/
def Spaced (sent : List Sent) : Prop :=
  sent.Pairwise fun d e => d.alert.payload.period = e.alert.payload.period →
    d.alert.payload.type = e.alert.payload.type → d.second + 86400 ≤ e.second

theorem recent_append {sent sent' : List Sent} {period type : String} {second : ℤ} :
    Recent (sent ++ sent') period type second ↔
      Recent sent period type second ∨ Recent sent' period type second := by
  unfold Recent
  simp only [List.mem_append, or_and_right, exists_or]

section Debounce
variable {store : IntelAlerts.Store} {sent : List Sent} {period : String}

private theorem reflects_mark (h : Reflects store sent period) {a : Alert} {second : ℤ}
    (ha : a.payload.period = period) (hdue : store.debounced a.payload.type second = false) :
    Reflects (store.markAlertSent a.payload.type second) (sent ++ [⟨second, a⟩]) period := by
  intro type now
  have hnew : Recent [⟨second, a⟩] period type now ↔ a.payload.type = type ∧ now < second + 86400 := by
    unfold Recent
    simp [ha]
  rw [recent_append, ← h type now, hnew]
  by_cases htype : type = a.payload.type
  · rw [htype]
    -- the key was gone, so what it held back before is over sooner
    have hover : store.debounced a.payload.type now = true → now < second + 86400 := by
      unfold IntelAlerts.Store.debounced at hdue ⊢
      cases hkey : store.sent a.payload.type with
      | none => exact fun hnow => absurd hnow (by simp)
      | some expiry =>
        rw [hkey, Option.any_some, decide_eq_false_iff_not] at hdue
        rw [Option.any_some, decide_eq_true_eq]
        intro hnow
        omega
    unfold IntelAlerts.Store.markAlertSent
    rw [IntelAlerts.Store.debounced]
    dsimp only
    rw [Function.update_self, Option.any_some, decide_eq_true_eq]
    constructor
    · exact fun hnow => Or.inr ⟨rfl, hnow⟩
    · rintro (hold | ⟨-, hnow⟩)
      · exact hover hold
      · exact hnow
  · have hsame : (store.markAlertSent a.payload.type second).debounced type now =
        store.debounced type now := by
      unfold IntelAlerts.Store.debounced IntelAlerts.Store.markAlertSent
      dsimp only
      rw [Function.update_of_ne htype]
    rw [hsame, or_iff_left]
    exact fun hother => htype hother.1.symm

private theorem spaced_concat (hspaced : Spaced sent) {a : Alert} {second : ℤ}
    (hdue : ¬ Recent sent a.payload.period a.payload.type second) :
    Spaced (sent ++ [⟨second, a⟩]) := by
  refine List.pairwise_append.mpr ⟨hspaced, List.pairwise_singleton _ _, ?_⟩
  intro d hd e he hperiod htype
  obtain rfl := List.mem_singleton.mp he
  by_contra hsoon
  exact hdue ⟨d, hd, hperiod, htype, not_le.mp hsoon⟩

private theorem sendAll_history (cfg : IntelAlerts.Config) (c : Cycle) {alerts : List Alert}
    (hreflects : Reflects store sent period) (hspaced : Spaced sent)
    (hperiod : ∀ a ∈ alerts, a.payload.period = period) :
    Reflects (sendAll cfg c store alerts).1
        (sent ++ (sendAll cfg c store alerts).2.map (Sent.mk c.now)) period ∧
      Spaced (sent ++ (sendAll cfg c store alerts).2.map (Sent.mk c.now)) := by
  induction alerts generalizing store sent with
  | nil =>
    unfold sendAll
    rw [List.map_nil, List.append_nil]
    exact ⟨hreflects, hspaced⟩
  | cons a rest ih =>
    have hrest : ∀ b ∈ rest, b.payload.period = period := fun b hb =>
      hperiod b (List.mem_cons_of_mem a hb)
    have ha := hperiod a List.mem_cons_self
    unfold sendAll
    by_cases hdebounced : store.debounced a.payload.type c.now = true
    · rw [if_pos hdebounced]
      exact ih hreflects hspaced hrest
    · rw [if_neg hdebounced]
      cases deliverWebhook cfg.maxRetries (c.attempts a.payload.type) with
      | none =>
        dsimp only
        rw [List.map_nil, List.append_nil]
        exact ⟨hreflects, hspaced⟩
      | some ok =>
        cases ok with
        | false => exact ih hreflects hspaced hrest
        | true =>
          have hdue : ¬ Recent sent a.payload.period a.payload.type c.now := by
            rw [ha]
            exact fun hrecent => hdebounced ((hreflects _ _).mpr hrecent)
          have h := ih (reflects_mark hreflects ha (Bool.eq_false_iff.mpr hdebounced))
            (spaced_concat hspaced hdue) hrest
          rw [List.append_assoc] at h
          exact h

theorem period_of_collected {cfg : IntelAlerts.Config} {report : RootCause} {forecast : Forecast}
    {economics : List CustomerEconomics} {a : Alert}
    (h : a ∈ (detectCostSpike cfg report).toList ++
      (detectMarginLoss cfg store economics).2.toList ++ (detectForecastRisk cfg forecast).toList) :
    a.payload.period = cfg.period := by
  rw [List.mem_append, List.mem_append, Option.mem_toList, Option.mem_toList,
    Option.mem_toList] at h
  rcases h with (hspike | hmargin) | hrisk
  · unfold detectCostSpike at hspike
    split_ifs at hspike
    rw [← Option.some.inj hspike]
  · unfold detectMarginLoss at hmargin
    dsimp only at hmargin
    split_ifs at hmargin
    rw [← Option.some.inj hmargin]
  · unfold detectForecastRisk at hrisk
    split_ifs at hrisk
    rw [← Option.some.inj hrisk]

private theorem cycle_history (cfg : IntelAlerts.Config) (c : Cycle)
    (hreflects : Reflects store sent cfg.period) (hspaced : Spaced sent) :
    Reflects (cycle cfg store c).1 (sent ++ (cycle cfg store c).2.map (Sent.mk c.now)) cfg.period ∧
      Spaced (sent ++ (cycle cfg store c).2.map (Sent.mk c.now)) := by
  have hnothing : Reflects store (sent ++ [].map (Sent.mk c.now)) cfg.period ∧
      Spaced (sent ++ [].map (Sent.mk c.now)) := by
    rw [List.map_nil, List.append_nil]
    exact ⟨hreflects, hspaced⟩
  unfold cycle
  by_cases hurl : c.url = ""
  · rw [if_pos hurl]
    exact hnothing
  · rw [if_neg hurl]
    cases c.rootCause with
    | none => exact hnothing
    | some report =>
      cases c.forecast with
      | none => exact hnothing
      | some forecast =>
        exact sendAll_history cfg c hreflects hspaced fun a ha => period_of_collected ha

theorem period_of_cycle {cfg : IntelAlerts.Config} {c : Cycle} {a : Alert}
    (h : a ∈ (cycle cfg store c).2) : a.payload.period = cfg.period := by
  unfold cycle at h
  by_cases hurl : c.url = ""
  · rw [if_pos hurl] at h
    cases h
  · rw [if_neg hurl] at h
    cases hroot : c.rootCause with
    | none =>
      rw [hroot] at h
      cases h
    | some report =>
      cases hforecast : c.forecast with
      | none =>
        rw [hroot, hforecast] at h
        cases h
      | some forecast =>
        rw [hroot, hforecast] at h
        exact period_of_collected (mem_of_mem_sendAll h)

end Debounce

/-- In every run the keys of each month hold back what was sent in the last day, and no two alerts come
closer. -/
theorem run_history (P : Projection) (before : TokenEvent → ℤ) (cfg : LoopConfig) (s : Keyspace)
    (steps : List LoopStep) :
    (∀ p, Reflects ((runLoop P before cfg s steps).stores p) (runLoop P before cfg s steps).sent p) ∧
      Spaced (runLoop P before cfg s steps).sent := by
  induction steps using List.reverseRecOn with
  | nil =>
    refine ⟨fun p type second => ?_, List.Pairwise.nil⟩
    refine iff_of_false Bool.false_ne_true ?_
    rintro ⟨d, hd, -⟩
    cases hd
  | append_singleton steps a ih =>
    rw [runLoop_concat]
    cases a with
    | sink a => exact ih
    | turn t =>
      obtain ⟨hreflects, hspaced⟩ := ih
      have hturn := cycle_history (cfg.ofPeriod t.period)
        (t.found cfg (runLoop P before cfg s steps).keyspace) (hreflects t.period) hspaced
      rw [ofPeriod_period, Turn.found_now] at hturn
      rw [stores_turn, sent_turn]
      refine ⟨fun p => ?_, hturn.2⟩
      by_cases hp : p = t.period
      · rw [hp, Function.update_self]
        exact hturn.1
      · rw [Function.update_of_ne hp]
        intro type second
        rw [recent_append, or_iff_left, hreflects p type second]
        rintro ⟨d, hd, hother, -⟩
        obtain ⟨a, ha, rfl⟩ := List.mem_map.mp hd
        have hperiod : a.payload.period = (cfg.ofPeriod t.period).period := period_of_cycle ha
        rw [ofPeriod_period] at hperiod
        exact hp (hother.symm.trans hperiod)

/-! ### What one cycle sends -/

/-- One of the alerts has the type. -/
def Sends (alerts : List Alert) (type : String) : Prop := ∃ a ∈ alerts, a.payload.type = type

section Cycle
variable {cfg : IntelAlerts.Config} {store : IntelAlerts.Store} {c : Cycle}

theorem detectCostSpike_isSome {report : RootCause} : detectCostSpike cfg report ≠ none ↔
    0 < report.baselineCostUsd ∧ cfg.costSpikePct < report.deltaPct := by
  unfold detectCostSpike
  by_cases h : report.baselineCostUsd ≤ 0 ∨ report.deltaPct ≤ cfg.costSpikePct
  · rw [if_pos h]
    refine iff_of_false (fun hne => hne rfl) fun hrose => ?_
    rcases h with hzero | hsmall
    · exact absurd hrose.1 (not_lt.mpr hzero)
    · exact absurd hrose.2 (not_lt.mpr hsmall)
  · rw [if_neg h]
    obtain ⟨hpositive, hgreat⟩ := not_or.mp h
    exact iff_of_true (Option.some_ne_none _) ⟨not_le.mp hpositive, not_le.mp hgreat⟩

theorem type_of_detectMarginLoss {economics : List CustomerEconomics} {a : Alert}
    (h : (detectMarginLoss cfg store economics).2 = some a) : a.payload.type = marginLossType := by
  rcases detectMarginLoss_cases cfg store economics with ⟨hnone, -⟩ | ⟨m, hsome, hm, -⟩
  · rw [hnone] at h
    cases h
  · rw [hsome] at h
    rw [← Option.some.inj h]
    exact hm

/-- Nothing but the first detector reports a cost spike. -/
theorem not_spike {economics : List CustomerEconomics} {forecast : Forecast} {a : Alert}
    (h : a ∈ (detectMarginLoss cfg store economics).2.toList ++
      (detectForecastRisk cfg forecast).toList) : a.payload.type ≠ costSpikeType := by
  rcases List.mem_append.mp h with hmargin | hrisk
  · rw [type_of_detectMarginLoss (Option.mem_toList.mp hmargin)]
    decide
  · rw [type_of_detectForecastRisk (Option.mem_toList.mp hrisk)]
    decide

theorem sends_spike {report : RootCause} {forecast : Forecast} (hroot : c.rootCause = some report)
    (hforecast : c.forecast = some forecast) :
    Sends (cycle cfg store c).2 costSpikeType ↔ c.url ≠ "" ∧
      (0 < report.baselineCostUsd ∧ cfg.costSpikePct < report.deltaPct) ∧
      store.debounced costSpikeType c.now = false ∧
      deliverWebhook cfg.maxRetries (c.attempts costSpikeType) = some true := by
  unfold cycle
  by_cases hurl : c.url = ""
  · rw [if_pos hurl]
    constructor
    · rintro ⟨a, ha, -⟩
      cases ha
    · exact fun h => absurd hurl h.1
  · rw [if_neg hurl, hroot, hforecast, and_iff_right hurl, ← detectCostSpike_isSome]
    dsimp only
    generalize computeUnitEconomics cfg.period c.costs c.revenue = economics
    rw [List.append_assoc]
    cases hspike : detectCostSpike cfg report with
    | none =>
      rw [Option.toList_none, List.nil_append]
      refine iff_of_false ?_ fun h => h.1 rfl
      rintro ⟨a, ha, htype⟩
      exact not_spike (mem_of_mem_sendAll ha) htype
    | some a =>
      have htype := type_of_detectCostSpike hspike
      rw [Option.toList_some, List.singleton_append, and_iff_right (Option.some_ne_none a)]
      have hhead : a ∉ (detectMarginLoss cfg store economics).2.toList ++
          (detectForecastRisk cfg forecast).toList := fun hmem => not_spike hmem htype
      have hsends := @mem_sendAll_head cfg c (detectMarginLoss cfg store economics).1 a _ hhead
      rw [htype] at hsends
      refine Iff.trans ⟨?_, fun h => ⟨a, h, htype⟩⟩ hsends
      rintro ⟨b, hb, hbtype⟩
      rcases List.mem_cons.mp (mem_of_mem_sendAll hb) with rfl | hrest
      · exact hb
      · exact absurd hbtype (not_spike hrest)

theorem not_sends_risk {forecast : Forecast} (hforecast : c.forecast = some forecast)
    (hnone : detectForecastRisk cfg forecast = none) :
    ¬ Sends (cycle cfg store c).2 forecastRiskType := by
  rintro ⟨a, ha, htype⟩
  unfold cycle at ha
  by_cases hurl : c.url = ""
  · rw [if_pos hurl] at ha
    cases ha
  · rw [if_neg hurl] at ha
    cases hroot : c.rootCause with
    | none =>
      rw [hroot] at ha
      cases ha
    | some report =>
      rw [hroot, hforecast] at ha
      have hmem := mem_of_mem_sendAll ha
      rw [hnone, Option.toList_none, List.append_nil, List.mem_append, Option.mem_toList,
        Option.mem_toList] at hmem
      rcases hmem with hspike | hmargin
      · rw [type_of_detectCostSpike hspike] at htype
        exact absurd htype (by decide)
      · rw [type_of_detectMarginLoss hmargin] at htype
        exact absurd htype (by decide)

theorem mem_lossIds {period : String} {costs : Table String ℚ} {revenue : String → Option ℚ}
    {x : String} : x ∈ lossIds (computeUnitEconomics period costs revenue) ↔
      ∃ costUsd, costs.get x = some costUsd ∧ ∃ revenueUsd ∈ revenue x, revenueUsd < costUsd := by
  have hrow : ∀ (customerId : String) (costUsd : ℚ) (revenueUsd : Option ℚ),
      (customerEconomics period customerId costUsd revenueUsd).customerId = customerId ∧
        ((customerEconomics period customerId costUsd revenueUsd).status = .loss ↔
          ∃ r ∈ revenueUsd, r < costUsd) := by
    intro customerId costUsd revenueUsd
    cases revenueUsd with
    | none =>
      refine ⟨rfl, iff_of_false (fun h => Status.noConfusion h) ?_⟩
      rintro ⟨r, hr, -⟩
      cases hr
    | some revenueUsd =>
      refine ⟨rfl, ?_⟩
      unfold customerEconomics
      dsimp only
      by_cases hloss : revenueUsd - costUsd < 0
      · rw [if_pos hloss]
        exact iff_of_true rfl ⟨revenueUsd, rfl, sub_neg.mp hloss⟩
      · rw [if_neg hloss]
        refine iff_of_false (fun h => Status.noConfusion h) ?_
        rintro ⟨r, hr, hless⟩
        obtain rfl := Option.some.inj hr
        exact hloss (sub_neg.mpr hless)
  unfold lossIds computeUnitEconomics
  rw [List.mem_map]
  constructor
  · rintro ⟨e, he, rfl⟩
    obtain ⟨hmem, hloss⟩ := List.mem_filter.mp he
    obtain ⟨row, hrow', rfl⟩ := List.mem_map.mp hmem
    rw [(hrow _ _ _).1]
    exact ⟨row.2, (costs.get_eq_some_iff _ _).mpr hrow',
      (hrow _ _ _).2.mp (of_decide_eq_true hloss)⟩
  · rintro ⟨costUsd, hcost, hloss⟩
    refine ⟨customerEconomics period x costUsd (revenue x), List.mem_filter.mpr
      ⟨List.mem_map.mpr ⟨(x, costUsd), (costs.get_eq_some_iff _ _).mp hcost, rfl⟩, ?_⟩,
      (hrow _ _ _).1⟩
    exact decide_eq_true ((hrow _ _ _).2.mpr hloss)

end Cycle

/-! ### What a turn sends -/

section Run
variable {P : Projection} {before : TokenEvent → ℤ} {s : Keyspace} {cfg : LoopConfig}

/-- The month cost more than the one before it, by more than the threshold. -/
def Rose (P : Projection) (before : TokenEvent → ℤ) (s : Keyspace) (steps : List SinkStep)
    (cfg : LoopConfig) (t : Turn) : Prop :=
  0 < charged P before s steps none t.baseline ∧
    charged P before s steps none t.baseline * (1 + cfg.costSpikePct / 100) <
      charged P before s steps none t.period

/-- The customer has windows in the month and pays less than they cost. -/
def Losing (P : Projection) (before : TokenEvent → ℤ) (s : Keyspace) (steps : List SinkStep)
    (t : Turn) (c : String) : Prop :=
  customerCharges P before s steps c t.period ≠ [] ∧
    ∃ revenueUsd ∈ t.revenue c t.period, revenueUsd < charged P before s steps (some c) t.period

/-- The last turn that looked at the month found the customer to be losing. -/
def Known (P : Projection) (before : TokenEvent → ℤ) (s : Keyspace) (past : List LoopStep)
    (p c : String) : Prop :=
  ∃ earlier u later, past = earlier ++ .turn u :: later ∧ u.period = p ∧ u.url ≠ "" ∧
    Losing P before s (sinksOf earlier) u c ∧ ∀ v, .turn v ∈ later → v.period = p → v.url = ""

/-- The clock shows a year from 1001 to 9999, and the scans of the two months are complete. -/
structure Turn.Sees (t : Turn) (s : Keyspace) : Prop where
  year : FourDigits t.nowMs
  late : 1000 < (utcDate t.nowMs).year
  scans : (t.reads s).Complete [customerPattern t.period, customerPattern t.baseline]

/-- Every turn of the run sees the keys there are. -/
def Seen (P : Projection) (before : TokenEvent → ℤ) (s : Keyspace) (steps : List LoopStep) : Prop :=
  ∀ past t later, steps = past ++ .turn t :: later → t.Sees (runSinks P before s (sinksOf past))

/-- The type was not sent in the last day, and the receiver accepts it. -/
def Accepted (cfg : LoopConfig) (sent : List Sent) (t : Turn) (type : String) : Prop :=
  ¬ Recent sent t.period type t.second ∧
    deliverWebhook cfg.maxRetries (t.attempts type) = some true

/-- The alerts of a turn after some steps. -/
structure SendsWhatIs (P : Projection) (before : TokenEvent → ℤ) (s : Keyspace) (cfg : LoopConfig)
    (past : List LoopStep) (sent : List Sent) (t : Turn) (alerts : List Alert) : Prop where
  period : ∀ a ∈ alerts, a.payload.period = t.period
  spike : Sends alerts costSpikeType ↔
    t.url ≠ "" ∧ Rose P before s (sinksOf past) cfg t ∧ Accepted cfg sent t costSpikeType
  margin : ∀ c, Counted alerts c ↔
    t.url ≠ "" ∧ Losing P before s (sinksOf past) t c ∧ ¬ Known P before s past t.period c ∧
      Accepted cfg sent t marginLossType ∧
      (Rose P before s (sinksOf past) cfg t → ¬ Recent sent t.period costSpikeType t.second →
        deliverWebhook cfg.maxRetries (t.attempts costSpikeType) ≠ none)
  forecast : ¬ Sends alerts forecastRiskType

section Turn
variable {past : List LoopStep} {t : Turn}

theorem found_rootCause (cfg : LoopConfig) (hs : Untouched s) (hfired : ∀ a ∈ sinksOf past, a.Fired)
    (hplain : ∀ a ∈ sinksOf past, a.Plain P)
    (hsees : t.Sees (runSinks P before s (sinksOf past))) :
    ∃ report, (t.found cfg (runSinks P before s (sinksOf past))).rootCause = some report ∧
      ((0 < report.baselineCostUsd ∧ cfg.costSpikePct < report.deltaPct) ↔
        Rose P before s (sinksOf past) cfg t) := by
  have hmonth : total ((t.reads (runSinks P before s (sinksOf past))).scopedCosts none t.period) =
      charged P before s (sinksOf past) none t.period :=
    total_scoped hs hfired hplain rfl (fun pattern hpattern => hsees.scans pattern
      (List.mem_cons.mpr (Or.inl (List.mem_singleton.mp hpattern)))) none
  have hbaseline : total ((t.reads (runSinks P before s (sinksOf past))).scopedCosts none
      t.baseline) = charged P before s (sinksOf past) none t.baseline :=
    total_scoped hs hfired hplain rfl (fun pattern hpattern => hsees.scans pattern
      (List.mem_cons_of_mem _ hpattern)) none
  have hglobal : customerOfScope "global" = none := by decide
  have hprior : priorPeriod t.period = some t.baseline := priorPeriod_eq hsees.year hsees.late
  unfold Turn.found
  dsimp only
  rw [hprior, Option.map_some]
  refine ⟨_, rfl, ?_⟩
  unfold analyzeRootCause Rose
  dsimp only
  rw [hglobal, hmonth, hbaseline]
  refine and_congr_right fun hpositive => ?_
  unfold pctDelta
  have hscaled : charged P before s (sinksOf past) none t.baseline * (1 + cfg.costSpikePct / 100) =
      charged P before s (sinksOf past) none t.baseline +
        cfg.costSpikePct * charged P before s (sinksOf past) none t.baseline / 100 := by
    ring
  rw [if_pos hpositive.ne', div_mul_eq_mul_div, lt_div_iff₀ hpositive, hscaled]
  constructor
  · intro h
    linarith
  · intro h
    linarith

theorem found_forecast (cfg : LoopConfig) (ks : Keyspace) (ht : FourDigits t.nowMs) :
    ∃ forecast, (t.found cfg ks).forecast = some forecast ∧
      detectForecastRisk (cfg.ofPeriod t.period) forecast = none := by
  obtain ⟨days, hdays⟩ := @monthrange_isSome (utcDate t.nowMs).year _ (month_bounds t.nowMs)
  rw [← daysInPeriod_monthUtc ht] at hdays
  obtain ⟨day, hday⟩ := currentDayOfMonth_isSome ht t.nowMs
  unfold Turn.found computeForecast Turn.period
  dsimp only
  rw [hday, hdays, Option.bind_some, Option.map_some, Option.map_some]
  refine ⟨_, rfl, ?_⟩
  have hbudget : budgetForScope (t.reads ks).s none "global" = none := if_pos rfl
  rw [hbudget]
  rfl

theorem mem_losses_found (hs : Untouched s) (hfired : ∀ a ∈ sinksOf past, a.Fired)
    (hplain : ∀ a ∈ sinksOf past, a.Plain P)
    (hsees : t.Sees (runSinks P before s (sinksOf past))) {c : String} :
    c ∈ losses (cfg.ofPeriod t.period) (t.found cfg (runSinks P before s (sinksOf past))) ↔
      Losing P before s (sinksOf past) t c := by
  have hcosts : ((t.reads (runSinks P before s (sinksOf past))).customerCosts t.period).get c =
      tally none (customerCharges P before s (sinksOf past) c t.period) := by
    have h := scopedCosts_run hs hfired hplain rfl (r := t.reads (runSinks P before s (sinksOf past)))
      (fun pattern hpattern => hsees.scans pattern
        (List.mem_cons.mpr (Or.inl (List.mem_singleton.mp hpattern)))) none c
    have hall : ∀ c' ∈ restriction none, c = c' := by
      intro c' hc'
      cases hc'
    rw [if_pos hall] at h
    exact h
  unfold losses Losing
  rw [mem_lossIds, charged_some]
  show (∃ costUsd, Table.get (Reads.customerCosts _ _) c = some costUsd ∧
    ∃ revenueUsd ∈ t.revenue c t.period, _) ↔ _
  rw [hcosts, tally_eq]
  by_cases hnil : customerCharges P before s (sinksOf past) c t.period = []
  · rw [if_pos hnil]
    refine iff_of_false ?_ fun h => h.1 hnil
    rintro ⟨costUsd, hcost, -⟩
    cases hcost
  · rw [if_neg hnil, and_iff_right hnil, Option.getD_none, zero_add]
    constructor
    · rintro ⟨costUsd, hcost, h⟩
      obtain rfl := Option.some.inj hcost
      exact h
    · exact fun h => ⟨_, rfl, h⟩

end Turn

/-! ### The customers that the snapshot holds -/

section Known
variable {past : List LoopStep} {a : LoopStep} {p c : String}

theorem known_concat (ha : ∀ u, a = .turn u → u.period = p → u.url = "") :
    Known P before s (past ++ [a]) p c ↔ Known P before s past p c := by
  constructor
  · rintro ⟨earlier, u, later, heq, hp, hurl, hlosing, hafter⟩
    rcases List.eq_nil_or_concat later with rfl | ⟨front, y, rfl⟩
    · obtain ⟨-, hlast⟩ := List.append_inj' heq rfl
      exact absurd (ha u (List.cons.inj hlast).1 hp) hurl
    · rw [List.concat_eq_append, ← List.cons_append, ← List.append_assoc] at heq
      obtain ⟨rfl, -⟩ := List.append_inj' heq rfl
      refine ⟨earlier, u, front, rfl, hp, hurl, hlosing, fun v hv => hafter v ?_⟩
      rw [List.concat_eq_append]
      exact List.mem_append_left _ hv
  · rintro ⟨earlier, u, later, rfl, hp, hurl, hlosing, hafter⟩
    refine ⟨earlier, u, later ++ [a], List.append_assoc _ _ _, hp, hurl, hlosing, fun v hv hperiod => ?_⟩
    rcases List.mem_append.mp hv with hold | hnew
    · exact hafter v hold hperiod
    · exact ha v (List.mem_singleton.mp hnew).symm hperiod

theorem known_turn {u : Turn} (hurl : u.url ≠ "") :
    Known P before s (past ++ [.turn u]) u.period c ↔ Losing P before s (sinksOf past) u c := by
  constructor
  · rintro ⟨earlier, v, later, heq, -, -, hlosing, hafter⟩
    rcases List.eq_nil_or_concat later with rfl | ⟨front, y, rfl⟩
    · obtain ⟨rfl, hlast⟩ := List.append_inj' heq rfl
      rw [LoopStep.turn.inj (List.cons.inj hlast).1]
      exact hlosing
    · rw [List.concat_eq_append, ← List.cons_append, ← List.append_assoc] at heq
      obtain ⟨-, hlast⟩ := List.append_inj' heq rfl
      refine absurd (hafter u ?_ rfl) hurl
      rw [List.concat_eq_append, ← (List.cons.inj hlast).1]
      exact List.mem_append_right _ List.mem_cons_self
  · intro hlosing
    refine ⟨past, u, [], rfl, rfl, hurl, hlosing, fun v hv => ?_⟩
    cases hv

end Known

theorem Seen.of_append {steps later : List LoopStep} (h : Seen P before s (steps ++ later)) :
    Seen P before s steps := by
  intro past t rest heq
  refine h past t (rest ++ later) ?_
  rw [heq, List.append_assoc, List.cons_append]

theorem mem_sinksOf {steps : List LoopStep} {a : SinkStep} :
    a ∈ sinksOf steps ↔ .sink a ∈ steps := by
  unfold sinksOf
  rw [List.mem_filterMap]
  constructor
  · rintro ⟨b, hb, heq⟩
    cases b with
    | sink a' => rwa [Option.some.inj heq] at hb
    | turn t => cases heq
  · exact fun h => ⟨.sink a, h, rfl⟩

private theorem mem_snapshot_run (cfg : LoopConfig) (hs : Untouched s) {steps : List LoopStep}
    (hfired : ∀ a ∈ sinksOf steps, a.Fired) (hplain : ∀ a ∈ sinksOf steps, a.Plain P)
    (hseen : Seen P before s steps) (p c : String) :
    c ∈ ((runLoop P before cfg s steps).stores p).lossCustomers.getD [] ↔
      Known P before s steps p c := by
  induction steps using List.reverseRecOn with
  | nil =>
    refine iff_of_false List.not_mem_nil ?_
    rintro ⟨earlier, u, later, heq, -⟩
    exact List.append_ne_nil_of_right_ne_nil _ (List.cons_ne_nil _ _) heq.symm
  | append_singleton steps a ih =>
    have hold : ∀ b ∈ sinksOf steps, b ∈ sinksOf (steps ++ [a]) := fun b hb =>
      mem_sinksOf.mpr (List.mem_append_left _ (mem_sinksOf.mp hb))
    have hprevious := ih (fun b hb => hfired b (hold b hb)) (fun b hb => hplain b (hold b hb))
      hseen.of_append
    rw [runLoop_concat]
    cases a with
    | sink a =>
      rw [known_concat fun u hu => absurd hu (by simp)]
      exact hprevious
    | turn t =>
      rw [stores_turn]
      by_cases hp : p = t.period
      · rw [hp, Function.update_self]
        unfold LoopState.turned
        rw [keyspace_runLoop, cycle_lossCustomers]
        have hsees := hseen steps t [] rfl
        have hpast : ∀ b ∈ sinksOf steps, b.Fired := fun b hb => hfired b (hold b hb)
        have hpast' : ∀ b ∈ sinksOf steps, b.Plain P := fun b hb => hplain b (hold b hb)
        obtain ⟨report, hreport, -⟩ := found_rootCause cfg hs hpast hpast' hsees
        by_cases hurl : t.url = ""
        · rw [if_neg (fun h => h.1 hurl), known_concat fun u hu _ => (LoopStep.turn.inj hu) ▸ hurl,
            ← hp]
          exact hprevious
        · rw [if_pos ⟨hurl, by rw [hreport]; rfl⟩, Option.getD_some, mem_sorted,
            mem_losses_found hs hpast hpast' hsees, known_turn hurl]
      · rw [Function.update_of_ne hp,
          known_concat fun u hu hperiod => absurd (by rw [LoopStep.turn.inj hu, hperiod]) hp]
        exact hprevious

end Run

/-- A turn that finds the customer of the sample to pay nothing. -/
def sampleTurn : Turn where
  url := "https://a"
  nowMs := 0
  second := 0
  scan := sampleReads.scan
  walk := id
  revenue := fun _ _ => some 0
  attempts := fun _ _ => .response 200

private theorem seen_sample : Seen sampleProjection (fun _ => 0) {}
    (sampleSteps.map LoopStep.sink ++ [.turn sampleTurn]) := by
  intro past t later heq
  have hlater : later = [] := by
    by_contra hne
    obtain ⟨front, y, rfl⟩ := List.eq_nil_or_concat later |>.resolve_left hne
    rw [List.concat_eq_append, ← List.cons_append, ← List.append_assoc] at heq
    obtain ⟨hall, -⟩ := List.append_inj' heq rfl
    have hmem : LoopStep.turn t ∈ sampleSteps.map LoopStep.sink := by
      rw [hall]
      exact List.mem_append_right _ List.mem_cons_self
    obtain ⟨a, -, ha⟩ := List.mem_map.mp hmem
    cases ha
  rw [hlater] at heq
  obtain ⟨rfl, hturn⟩ := List.append_inj' heq rfl
  rw [← LoopStep.turn.inj (List.cons.inj hturn).1]
  refine ⟨by decide +kernel, by decide +kernel, complete_sample ?_⟩
  decide +kernel

end FluxMeter.Intelligence
