import FluxMeter.Job.MonthlyVolume
import FluxMeter.Pricing.PriceAgreement
import FluxMeter.Pricing.PriceBounds
import FluxMeter.Usage.BillingMonotone
import FluxMeter.Usage.Rerate
import FluxMeter.Usage.RowAttribution

/-! Re-rating after a run of the sinks: the cost of each customer that `/rerate/apply` moves becomes
that of its events at the new prices, up to the rounding of each event, and `/rerate/preview`
reports what moves. -/
namespace FluxMeter.Usage
open FluxMeter.Budget FluxMeter.Job FluxMeter.Keys FluxMeter.Model FluxMeter.Pricing Collections
open Collections.Glob

/-! ### The amount of a model after a run -/

section Cost
variable {P : Projection} {before : TokenEvent → ℤ} {s : Keyspace} {steps : List SinkStep}
variable {scope : Option String} {m : String}

private theorem cost_window {agg : UsageAggregate} (hscope : ∀ t ∈ scope, NoColon t)
    (hplain : (SinkStep.window agg).Unmixed m) (c : String) :
    ((SinkStep.window agg).writes P before).filterMap
        (Write.floatAt (modelCounterKey scope c m "cost_usd")) =
      if scopeOf agg.tenantId = scope ∧ TokenEvent.orNull agg.customerId = c ∧
          TokenEvent.orNull agg.modelId = m then [agg.getCostUsd] else [] := by
  have hword : NoColon "cost_usd" := by decide
  have hcustomer : (sinkKeys agg).customer ++ ":cost_usd" ≠ modelCounterKey scope c m "cost_usd" :=
    customerKey_ne hscope hplain hword hword c
  have hmodel : (sinkKeys agg).model ++ ":cost_usd" = modelCounterKey scope c m "cost_usd" ↔
      scopeOf agg.tenantId = scope ∧ TokenEvent.orNull agg.customerId = c ∧
        TokenEvent.orNull agg.modelId = m := by
    constructor
    · intro h
      obtain ⟨hscopes, hc, hm, -⟩ := modelKey_eq hscope hplain hword hword h
      exact ⟨hscopes, hc, hm⟩
    · rintro ⟨rfl, rfl, rfl⟩
      exact modelKey_counter "cost_usd"
  have hglobal : (sinkKeys agg).global "total_cost_usd" ≠ modelCounterKey scope c m "cost_usd" :=
    globalKey_ne hscope hplain _ _ _
  have hpositive : ∀ (n : ℤ) (key : String), (Write.positive n (.incrBy key n)).filterMap
      (Write.floatAt (modelCounterKey scope c m "cost_usd")) = [] := by
    intro n key
    unfold Write.positive
    split_ifs
    · rfl
    · rfl
  have hrollup : ∀ key, (rollupWrites (sinkArgs agg) key).filterMap
      (Write.floatAt (modelCounterKey scope c m "cost_usd")) = [] := by
    intro key
    refine List.filterMap_eq_nil_iff.mpr fun w hw => ?_
    simp only [rollupWrites, List.mem_append, List.mem_cons, Write.mem_positive, List.not_mem_nil,
      or_false] at hw
    casesm* _ ∨ _, _ ∧ _ <;> subst_vars <;> rfl
  simp only [SinkStep.writes, windowWrites, restWrites, List.filterMap_append, List.filterMap_cons,
    List.filterMap_nil, hrollup, hpositive, Write.floatAt, if_neg hcustomer, if_neg hglobal, hmodel,
    List.append_nil]
  split_ifs
  · rfl
  · rfl

theorem cost_run (hs : Unmetered s) (hplain : ∀ a ∈ steps, a.Unmixed m)
    (hscope : ∀ t ∈ scope, NoColon t) (c : String) :
    number ((runSinks P before s steps).usage.floats (modelCounterKey scope c m "cost_usd")) =
      ((modelWindows P before s steps scope c m).map UsageAggregate.getCostUsd).sum := by
  have hempty : s.usage.floats (modelCounterKey scope c m "cost_usd") = none := by
    refine (hs _ ?_).floats
    rw [modelCounterKey_eq, headOf_familyKey]
    split_ifs <;> simp
  have hran : ∀ a ∈ ran P before s steps, a.Unmixed m :=
    fun a ha => hplain a (ran_subset s steps ha)
  have hwrites : (ran P before s steps).flatMap (fun a => (a.writes P before).filterMap
      (Write.floatAt (modelCounterKey scope c m "cost_usd"))) =
      (modelWindows P before s steps scope c m).map UsageAggregate.getCostUsd := by
    rw [flatMap_appliedWindows (fun agg => if scopeOf agg.tenantId = scope ∧
      TokenEvent.orNull agg.customerId = c ∧ TokenEvent.orNull agg.modelId = m then
        [agg.getCostUsd] else [])]
    · exact flatMap_ite _ _ _
    · exact fun agg hagg => cost_window hscope (hran _ hagg) c
    · intro e clock he
      refine SinkStep.floatAt_untouched fun htouched => ?_
      rw [modelCounterKey_eq] at htouched
      exact event_not_touched hscope (hran _ he) _ htouched
  rw [floats_runSinks, hempty, hwrites]
  unfold number
  rw [getD_tally, Option.getD_none, zero_add]

end Cost

/-! ### Flat prices -/

/-- A flat price list whose rates lie between zero and a bound at which no price leaves the range of
`long`. -/
structure FlatPrices (p : ModelPricing) (mult : ℚ) (bound : ℕ) : Prop where
  flat : p.pricingMode = .flat
  priced : p.Priced mult bound
  size : priceBound bound < 2 ^ 63

/-- An event of which the two price lists differ only in what re-rating sees: tokens other than
input and output have the same price at both, or there are none. -/
structure Represented (old new : ModelPricing) (e : TokenEvent) : Prop where
  counts : IntCounts e.counts
  cacheRead : e.cacheReadTokens = 0 ∨ old.inputPerM = new.inputPerM
  cacheWrite : e.cacheWriteTokens = 0 ∨ old.inputPerM = new.inputPerM
  reasoning : e.reasoningTokens = 0 ∨ old.outputPerM = new.outputPerM
  embedding : e.embeddingTokens = 0 ∨ old.embeddingPerM = new.embeddingPerM

/-- The change of a price before rounding, in microdollars. -/
def exactChange (old new : ModelPricing) (e : TokenEvent) : ℚ :=
  e.inputTokens * (new.inputPerM - old.inputPerM) +
    e.outputTokens * (new.outputPerM - old.outputPerM)

theorem abs_mathRound_sub_le {x : ℚ} {n : ℕ} (hx : |x| ≤ n) (hn : n < 2 ^ 62) :
    |(mathRound x : ℚ) - x| ≤ 1 / 2 := by
  have hlow := Int.floor_le (x + 1 / 2)
  have hhigh := Int.lt_floor_add_one (x + 1 / 2)
  rw [mathRound_of_small hx hn, abs_le]
  constructor <;> linarith

/-- A count of no tokens, or of tokens at one rate, costs the same. -/
theorem mathRound_eq_of_rate {t : ℤ} {a b : ℚ} (h : t = 0 ∨ a = b) (c : ℚ) :
    mathRound (t * (a * c)) = mathRound (t * (b * c)) := by
  rcases h with h | h
  · rw [h, Int.cast_zero, zero_mul, zero_mul]
  · rw [h]

section Flat
variable {p old new : ModelPricing} {mult : ℚ} {bound : ℕ} {e : TokenEvent}

theorem FlatPrices.price_eq (h : FlatPrices p mult bound) (volume : ℤ) :
    p.calculateEventCostMicro e volume mult = costAtTier e p.flatTier mult := by
  unfold ModelPricing.calculateEventCostMicro ModelPricing.selectTier
  rw [h.flat, if_pos (p.tiered.mp h.flat)]

theorem FlatPrices.rounding (h : FlatPrices p mult bound) (hcounts : IntCounts e.counts) :
    |(mathRound (e.inputTokens * p.inputPerM) : ℚ) - e.inputTokens * p.inputPerM| ≤ 1 / 2 ∧
      |(mathRound (e.outputTokens * p.outputPerM) : ℚ) - e.outputTokens * p.outputPerM| ≤
        1 / 2 := by
  have hrates := h.priced p.flatTier List.mem_cons_self
  have hsmall : 2 ^ 31 * bound < 2 ^ 62 := by
    have hsize := h.size
    unfold priceBound at hsize
    omega
  have hinput := abs_cost_le hcounts.input (hrates .input).1 (hrates .input).2
  have houtput := abs_cost_le hcounts.output (hrates .output).1 (hrates .output).2
  exact ⟨abs_mathRound_sub_le hinput hsmall, abs_mathRound_sub_le houtput hsmall⟩

/-- Two flat prices of an event differ by the exact change, up to the rounding of two counts at each
price. -/
theorem Represented.price_change (h : Represented old new e) (hold : FlatPrices old mult bound)
    (hnew : FlatPrices new mult bound) (volume : ℤ) :
    |((new.calculateEventCostMicro e volume mult : ℚ) - old.calculateEventCostMicro e volume mult) -
      exactChange old new e| ≤ 2 := by
  have hsum := (costAtTier_sum List.mem_cons_self hold.priced h.counts hold.size).1
  have hsum' := (costAtTier_sum List.mem_cons_self hnew.priced h.counts hnew.size).1
  obtain ⟨hin, hout⟩ := hold.rounding h.counts
  obtain ⟨hin', hout'⟩ := hnew.rounding h.counts
  have hread := mathRound_eq_of_rate h.cacheRead mult
  have hwrite := mathRound_eq_of_rate h.cacheWrite 1
  have hreason := mathRound_eq_of_rate h.reasoning 1
  have hembed := mathRound_eq_of_rate h.embedding 1
  rw [mul_one, mul_one] at hwrite hreason hembed
  rw [hold.price_eq, hnew.price_eq, hsum, hsum']
  unfold ModelPricing.flatTier exactChange
  dsimp only
  rw [hread, hwrite, hreason, hembed]
  push_cast
  rw [abs_le] at hin hout hin' hout' ⊢
  constructor <;> linarith

end Flat

/-! ### The windows of priced events -/

/-- A window that fired over a stream and counted these events at a price, and whose counters stay
in the range of `long`. -/
structure WindowOf (price : UsageAggregate.Pricing) (monthlyBefore : TokenEvent → ℤ)
    (agg : UsageAggregate) (counted : List TokenEvent) : Prop where
  fired : ∃ w es e, agg = fire price monthlyBefore w es e ∧ counted = windowEvents w es e
  input : isLong (counted.map TokenEvent.inputTokens).sum
  output : isLong (counted.map TokenEvent.outputTokens).sum
  cost : isLong (counted.map fun e => price e (monthlyBefore e)).sum

theorem WindowOf.counters {price : UsageAggregate.Pricing} {monthlyBefore : TokenEvent → ℤ}
    {agg : UsageAggregate} {counted : List TokenEvent}
    (h : WindowOf price monthlyBefore agg counted) :
    agg.inputTokens = (counted.map TokenEvent.inputTokens).sum ∧
      agg.outputTokens = (counted.map TokenEvent.outputTokens).sum ∧
      agg.costMicro = (counted.map fun e => price e (monthlyBefore e)).sum := by
  obtain ⟨w, es, e, rfl, rfl⟩ := h.fired
  have hsums := fire_sums price monthlyBefore w es e
  exact ⟨hsums.input.trans ((wrap64_eq_self_iff _).mpr h.input),
    hsums.output.trans ((wrap64_eq_self_iff _).mpr h.output),
    hsums.cost.trans ((wrap64_eq_self_iff _).mpr h.cost)⟩

/-! ### The rows after a run -/

/-- The prices of a request are those of the two price lists. -/
structure ReRateRequest.Between (req : ReRateRequest) (old new : ModelPricing) : Prop where
  oldInput : req.oldInputPrice = old.inputPerM
  oldOutput : req.oldOutputPrice = old.outputPerM
  newInput : req.newInputPrice = new.inputPerM
  newOutput : req.newOutputPrice = new.outputPerM

/-- The windows of the customer of a row, under the tenant or under none. -/
def rowWindows (P : Projection) (before : TokenEvent → ℤ) (s : Keyspace) (steps : List SinkStep)
    (tenantId : Option String) (m : String) (row : ModelUsageRow) : List UsageAggregate :=
  modelWindows P before s steps (if row.tenantScoped then tenantId else none) row.customerId m

/-- What a row says of the windows of its customer. -/
structure RowRead (P : Projection) (before : TokenEvent → ℤ) (s : Keyspace) (steps : List SinkStep)
    (tenantId : Option String) (m : String) (row : ModelUsageRow) : Prop where
  customer : NoColon row.customerId
  customerPrefix : row.customerPrefix =
    familyKey (if row.tenantScoped then tenantId else none) row.customerId
  modelKey : row.modelKey =
    familyKey (if row.tenantScoped then tenantId else none) row.customerId ++ ":model:" ++ m
  input : row.inputTokens =
    ((rowWindows P before s steps tenantId m row).map UsageAggregate.inputTokens).sum
  output : row.outputTokens =
    ((rowWindows P before s steps tenantId m row).map UsageAggregate.outputTokens).sum

section Rows
variable {P : Projection} {before : TokenEvent → ℤ} {s : Keyspace} {steps : List SinkStep}
variable {tenantId : Option String} {m : String}

theorem rowFor_read (hplain : ∀ a ∈ steps, a.Unmixed m) {tenantScoped : Bool} {c : String}
    {row : ModelUsageRow} (h : rowFor P before s steps m (if tenantScoped then tenantId else none)
      tenantScoped c = some row) :
    row.customerId = c ∧ RowRead P before s steps tenantId m row := by
  by_cases hnil : modelWindows P before s steps (if tenantScoped then tenantId else none) c m = []
  · rw [rowFor, if_pos hnil] at h
    cases h
  · rw [rowFor, if_neg hnil] at h
    obtain rfl := Option.some.inj h
    exact ⟨rfl, ⟨noColon_of_modelWindows hplain hnil, rfl, rfl, rfl, rfl⟩⟩

theorem rows_read (hs : Unmetered s) (hplain : ∀ a ∈ steps, a.Unmixed m) (hm : Literal m)
    (htenant : ∀ t ∈ tenantId, Literal t ∧ NoColon t) {tenantKeys legacyKeys : List String}
    (hscan : ∀ t ∈ tenantId, Py.hasTenant (some t) = true →
      Scans (runSinks P before s steps) (tenantModelPattern t m) tenantKeys)
    (hlegacy : Scans (runSinks P before s steps) (legacyModelPattern m) legacyKeys) :
    RowsOf m (modelRows (runSinks P before s steps) tenantId m tenantKeys legacyKeys) ∧
      (∀ row ∈ modelRows (runSinks P before s steps) tenantId m tenantKeys legacyKeys,
        RowRead P before s steps tenantId m row) ∧
      ∀ c, modelWindows P before s steps none c m ≠ [] ∨
          Py.hasTenant tenantId = true ∧ modelWindows P before s steps tenantId c m ≠ [] →
        ∃ row ∈ modelRows (runSinks P before s steps) tenantId m tenantKeys legacyKeys,
          row.customerId = c := by
  let table := iterModelUsageRows (runSinks P before s steps) tenantId m tenantKeys legacyKeys
  have hget : ∀ {c row}, table.get c = some row → row.customerId = c ∧
      RowRead P before s steps tenantId m row := by
    intro c row hc
    rcases (get_iterModelUsageRows hs hplain hm htenant hscan hlegacy).mp hc with h | ⟨-, h⟩
    · split_ifs at h
      exact @rowFor_read P before s steps tenantId m hplain true c row h
    · exact @rowFor_read P before s steps tenantId m hplain false c row h
  have hrow : ∀ p ∈ table.rows, p.2.customerId = p.1 ∧ RowRead P before s steps tenantId m p.2 :=
    fun p hp => hget ((table.get_eq_some_iff p.1 p.2).mpr hp)
  have hmem : ∀ row, row ∈ modelRows (runSinks P before s steps) tenantId m tenantKeys legacyKeys ↔
      ∃ p ∈ table.rows, p.2 = row := by
    intro row
    unfold modelRows
    simp only [List.mem_map, List.mem_reverse]
    rfl
  have hreads : ∀ row ∈ modelRows (runSinks P before s steps) tenantId m tenantKeys legacyKeys,
      RowRead P before s steps tenantId m row := by
    intro row hmemrow
    obtain ⟨p, hp, rfl⟩ := (hmem row).mp hmemrow
    exact (hrow p hp).2
  refine ⟨⟨nodup_modelRows _ _ _ _ _, ?_⟩, hreads, ?_⟩
  · intro row hmemrow
    have hread := hreads row hmemrow
    refine ⟨hread.customer, _, ?_, hread.customerPrefix, hread.modelKey⟩
    intro t ht
    split_ifs at ht
    · exact (htenant t ht).2
    · cases ht
  · intro c hc
    have hexists : ∃ row, table.get c = some row := by
      simp only [table, get_iterModelUsageRows hs hplain hm htenant hscan hlegacy]
      cases hrow : if Py.hasTenant tenantId then rowFor P before s steps m tenantId true c
        else none with
      | some row => exact ⟨row, Or.inl rfl⟩
      | none =>
        refine ⟨_, Or.inr ⟨rfl, if_neg (hc.resolve_right ?_)⟩⟩
        rintro ⟨hpy, hne⟩
        rw [if_pos hpy, rowFor, if_neg hne] at hrow
        cases hrow
    obtain ⟨row, hgetrow⟩ := hexists
    exact ⟨row, (hmem row).mpr ⟨(c, row), (table.get_eq_some_iff c row).mp hgetrow, rfl⟩,
      (hget hgetrow).1⟩

end Rows

/-! ### Repricing -/

def rowEvents (P : Projection) (before : TokenEvent → ℤ) (s : Keyspace) (steps : List SinkStep)
    (tenantId : Option String) (m : String) (members : UsageAggregate → List TokenEvent)
    (row : ModelUsageRow) : List TokenEvent :=
  (rowWindows P before s steps tenantId m row).flatMap members

/-- An amount of dollars is what the events cost at the prices, up to two microdollars each. -/
def Costs (price : TokenEvent → ℤ) (es : List TokenEvent) (amount : ℚ) : Prop :=
  |amount - (es.map price).sum / 1000000| ≤ 2 * es.length / 1000000

section Repricing
variable {windows : List UsageAggregate} {members : UsageAggregate → List TokenEvent}
variable {old new : ModelPricing} {es : List TokenEvent}

theorem sum_windows {read : UsageAggregate → ℤ} {amount : TokenEvent → ℤ}
    (h : ∀ agg ∈ windows, read agg = ((members agg).map amount).sum) :
    (windows.map read).sum = ((windows.flatMap members).map amount).sum := by
  induction windows with
  | nil => rfl
  | cons agg windows ih =>
    rw [List.map_cons, List.sum_cons, List.flatMap_cons, List.map_append, List.sum_append,
      h agg List.mem_cons_self, ih fun x hx => h x (List.mem_cons_of_mem agg hx)]

theorem sum_getCostUsd (windows : List UsageAggregate) :
    (windows.map UsageAggregate.getCostUsd).sum =
      ((windows.map UsageAggregate.costMicro).sum : ℤ) / 1000000 := by
  induction windows with
  | nil => simp
  | cons agg windows ih =>
    rw [List.map_cons, List.sum_cons, ih, List.map_cons, List.sum_cons, Int.cast_add, add_div]
    rfl

private theorem sum_exactChange (es : List TokenEvent) :
    (es.map (exactChange old new)).sum =
      ((es.map TokenEvent.inputTokens).sum : ℤ) * (new.inputPerM - old.inputPerM) +
        ((es.map TokenEvent.outputTokens).sum : ℤ) * (new.outputPerM - old.outputPerM) := by
  induction es with
  | nil => simp
  | cons e es ih =>
    simp only [List.map_cons, List.sum_cons, ih, Int.cast_add]
    unfold exactChange
    ring

theorem abs_sum_change_le {price price' : TokenEvent → ℤ} {change : TokenEvent → ℚ} {bound : ℚ}
    (h : ∀ e ∈ es, |((price' e : ℚ) - price e) - change e| ≤ bound) :
    |((es.map price).sum : ℤ) + (es.map change).sum - ((es.map price').sum : ℤ)| ≤
      bound * es.length := by
  induction es with
  | nil => simp
  | cons e es ih =>
    have hfirst := abs_le.mp (h e List.mem_cons_self)
    have hrest := abs_le.mp (ih fun x hx => h x (List.mem_cons_of_mem e hx))
    simp only [List.map_cons, List.sum_cons, List.length_cons, Int.cast_add, Nat.cast_add,
      Nat.cast_one]
    rw [abs_le]
    constructor <;> linarith

theorem adjustmentOf_eq {req : ReRateRequest} (hreq : req.Between old new) {row : ModelUsageRow}
    (hinput : row.inputTokens = (es.map TokenEvent.inputTokens).sum)
    (houtput : row.outputTokens = (es.map TokenEvent.outputTokens).sum) :
    adjustmentOf req row = (es.map (exactChange old new)).sum / 1000000 := by
  unfold adjustmentOf
  rw [sum_exactChange, hreq.oldInput, hreq.oldOutput, hreq.newInput, hreq.newOutput, hinput,
    houtput]
  ring

end Repricing

section Run
variable {P : Projection} {before monthlyBefore : TokenEvent → ℤ} {s : Keyspace}
variable {steps : List SinkStep} {tenantId : Option String} {m : String} {mult : ℚ} {bound : ℕ}
variable {old new : ModelPricing} {members : UsageAggregate → List TokenEvent}

/-- Every window of the model counted its events at the old prices. -/
def PricedWindows (old new : ModelPricing) (mult : ℚ) (monthlyBefore : TokenEvent → ℤ)
    (members : UsageAggregate → List TokenEvent) (m : String) (steps : List SinkStep) : Prop :=
  ∀ agg, SinkStep.window agg ∈ steps → TokenEvent.orNull agg.modelId = m →
    WindowOf (fun e volume => old.calculateEventCostMicro e volume mult) monthlyBefore agg
        (members agg) ∧
      ∀ e ∈ members agg, Represented old new e

theorem rowWindows_priced (hwindows : PricedWindows old new mult monthlyBefore members m steps)
    {row : ModelUsageRow} {agg : UsageAggregate}
    (hagg : agg ∈ rowWindows P before s steps tenantId m row) :
    WindowOf (fun e volume => old.calculateEventCostMicro e volume mult) monthlyBefore agg
        (members agg) ∧
      ∀ e ∈ members agg, Represented old new e := by
  obtain ⟨hmem, hwindow⟩ := List.mem_filter.mp hagg
  exact hwindows agg (ran_subset s steps (mem_appliedWindows.mp hmem))
    (of_decide_eq_true hwindow).2.2

theorem repriced (hs : Unmetered s) (hplain : ∀ a ∈ steps, a.Unmixed m)
    (htenant : ∀ t ∈ tenantId, NoColon t) (hold : FlatPrices old mult bound)
    (hnew : FlatPrices new mult bound) {req : ReRateRequest} (hreq : req.Between old new)
    (hwindows : PricedWindows old new mult monthlyBefore members m steps) {row : ModelUsageRow}
    (hrow : RowRead P before s steps tenantId m row) :
    Costs (fun e => new.calculateEventCostMicro e (monthlyBefore e) mult)
      (rowEvents P before s steps tenantId m members row)
      (number ((runSinks P before s steps).usage.floats (row.modelKey ++ ":cost_usd")) +
        adjustmentOf req row) := by
  have hscope : ∀ t ∈ (if row.tenantScoped then tenantId else none), NoColon t := by
    intro t ht
    split_ifs at ht
    · exact htenant t ht
    · cases ht
  have hcounted : ∀ agg ∈ rowWindows P before s steps tenantId m row, _ := fun agg hagg =>
    (rowWindows_priced hwindows hagg).1.counters
  have hinput := sum_windows fun agg hagg => (hcounted agg hagg).1
  have houtput := sum_windows fun agg hagg => (hcounted agg hagg).2.1
  have hcost := sum_windows fun agg hagg => (hcounted agg hagg).2.2
  have hevents : ∀ e ∈ rowEvents P before s steps tenantId m members row,
      Represented old new e := by
    intro e he
    obtain ⟨agg, hagg, hmem⟩ := List.mem_flatMap.mp he
    exact (rowWindows_priced hwindows hagg).2 e hmem
  have hbefore : number ((runSinks P before s steps).usage.floats (row.modelKey ++ ":cost_usd")) =
      (((rowEvents P before s steps tenantId m members row).map fun e =>
        old.calculateEventCostMicro e (monthlyBefore e) mult).sum : ℤ) / 1000000 := by
    rw [hrow.modelKey, modelKey_cost, cost_run hs hplain hscope, sum_getCostUsd]
    exact congrArg (fun n : ℤ => (n : ℚ) / 1000000) hcost
  have hchange := abs_sum_change_le fun e he =>
    (hevents e he).price_change hold hnew (monthlyBefore e)
  unfold Costs
  rw [hbefore, adjustmentOf_eq hreq (hrow.input.trans hinput) (hrow.output.trans houtput),
    ← add_div, ← sub_div, abs_div, abs_of_pos (by norm_num : (0 : ℚ) < 1000000)]
  exact div_le_div_of_nonneg_right hchange (by norm_num)

end Run

/-! ### What is reported -/

/-- The reply of `/rerate/apply` counts the rows that are not skipped, and their total. -/
structure Replied (req : ReRateRequest) (rows : List ModelUsageRow) (reply : RerateReply) :
    Prop where
  count : reply.customersAdjusted = (changedRows req rows).length
  total : reply.totalAdjustmentUsd = roundDigits 4 (rows.map (movedFor req)).sum

/-- The preview says the same, and lists the fifty smallest adjustments. -/
structure Previewed (req : ReRateRequest) (rows : List ModelUsageRow) (reply : RerateReply)
    (preview : ReratePreview) : Prop where
  count : preview.customersAffected = reply.customersAdjusted
  total : preview.totalAdjustmentUsd = reply.totalAdjustmentUsd
  listed : ∃ sorted : List Adjustment, sorted.Perm ((changedRows req rows).map (reportOf req)) ∧
    sorted.Pairwise (fun a b => a.adjustmentUsd ≤ b.adjustmentUsd) ∧
    preview.adjustments = sorted.take 50

theorem sum_movedFor (req : ReRateRequest) (rows : List ModelUsageRow) :
    (rows.map (movedFor req)).sum = ((changedRows req rows).map (adjustmentOf req)).sum := by
  have hsum := sum_map_ite rows (fun row => ¬|adjustmentOf req row| < 1 / 1000) (adjustmentOf req)
  simp only [ite_not] at hsum
  exact hsum

private theorem filter_of_no_boundary {req : ReRateRequest} {rows : List ModelUsageRow}
    (h : ∀ row ∈ rows, |adjustmentOf req row| ≠ 1 / 1000) :
    (rows.filter fun row => 1 / 1000 < |adjustmentOf req row|) = changedRows req rows := by
  refine List.filter_congr fun row hrow => ?_
  rw [decide_eq_decide, not_lt]
  exact ⟨le_of_lt, fun hle => lt_of_le_of_ne hle (h row hrow).symm⟩

private theorem previewed {req : ReRateRequest} {rows : List ModelUsageRow} {reply : RerateReply}
    (hreply : Replied req rows reply) :
    Previewed req rows reply (previewOf req (changedRows req rows)) := by
  refine ⟨hreply.count.symm, ?_, _, List.mergeSort_perm _ _, ?_, rfl⟩
  · rw [hreply.total, sum_movedFor]
    rfl
  · refine (List.pairwise_mergeSort ?_ ?_ _).imp of_decide_eq_true
    · intro a b c hab hbc
      exact decide_eq_true (le_trans (of_decide_eq_true hab) (of_decide_eq_true hbc))
    · intro a b
      rcases le_total a.adjustmentUsd b.adjustmentUsd with h | h
      · simp [h]
      · simp [h]

/-- An event of a customer of the tenant `acme`. -/
def acmeEvent (c : String) (inputTokens reasoningTokens : ℤ) : TokenEvent :=
  { tenantId := some "acme"
    customerId := some c
    modelId := some "gpt-4o"
    inputTokens := inputTokens
    reasoningTokens := reasoningTokens }

def acmeWindow (e : TokenEvent) : UsageAggregate :=
  fire (fun e volume => (ModelPricing.flat 1 1 1).calculateEventCostMicro e volume (1 / 2))
    (fun _ => 0) tenSeconds [e] e

def doubled : ReRateRequest where
  modelId := "gpt-4o"
  oldInputPrice := 1
  newInputPrice := 2
  oldOutputPrice := 1
  newOutputPrice := 2

theorem flatPrices_upTo_two {rate : ℚ} (h : 0 ≤ rate ∧ rate ≤ 2) :
    FlatPrices (.flat rate rate 1) (1 / 2) 2 := by
  refine ⟨rfl, fun tier htier category => ?_, by decide⟩
  obtain rfl := List.mem_singleton.mp htier
  cases category
  all_goals
    simp only [rateFor, ModelPricing.flatTier, ModelPricing.flat]
    push_cast
    constructor <;> linarith

instance (price : TokenEvent → ℤ) (es : List TokenEvent) (amount : ℚ) :
    Decidable (Costs price es amount) := inferInstanceAs (Decidable (_ ≤ _))

/-- Windows of eight hundred tokens, and of a thousand with as many reasoning tokens. -/
def acmeSteps : List SinkStep :=
  [.window (acmeWindow (acmeEvent "c1" 800 0)), .window (acmeWindow (acmeEvent "c2" 1000 1000))]

end FluxMeter.Usage
