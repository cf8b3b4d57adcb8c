import FluxMeter.Job.Admitted
import FluxMeter.Job.WindowAttribution
import FluxMeter.Usage.Monotone

/-! Admitted events on their way through deserialization, pricing, projection and the window
sink: billing gives nothing back exactly for the events whose token counts balance. -/
namespace FluxMeter.Usage
open FluxMeter.Budget FluxMeter.Custody FluxMeter.Job FluxMeter.Keys FluxMeter.Model
open FluxMeter.Pricing FluxMeter.Wire

/-! ### The counters of a window -/

/-- The events that an accumulator counts: the first one under each event id. -/
def distinctEvents : List String → List TokenEvent → List TokenEvent
  | _, [] => []
  | seen, e :: es =>
    match e.eventId with
    | some id => if id ∈ seen then distinctEvents seen es else e :: distinctEvents (id :: seen) es
    | none => e :: distinctEvents seen es

/-- The accumulator holds the sums of the events, wrapped at 64 bits. -/
structure Sums (price : TokenEvent → ℤ) (es : List TokenEvent) (acc : UsageAggregate) : Prop where
  input : acc.inputTokens = wrap64 (es.map TokenEvent.inputTokens).sum
  output : acc.outputTokens = wrap64 (es.map TokenEvent.outputTokens).sum
  total : acc.totalTokens = wrap64 (es.map TokenEvent.getTotalTokens).sum
  events : acc.eventCount = wrap64 es.length
  cost : acc.costMicro = wrap64 (es.map price).sum

/-- An event whose id was seen is found to be a duplicate, any other one is counted. -/
theorem addEvent_cases (price : UsageAggregate.Pricing) (acc : UsageAggregate) (e : TokenEvent)
    (monthlyTokensBefore : ℤ) :
    (acc.addEvent price e monthlyTokensBefore =
        { acc with deduplicatedCount := wrap64 (acc.deduplicatedCount + 1) } ∧
      ∀ ms, distinctEvents acc.seenEventIds (e :: ms) = distinctEvents acc.seenEventIds ms) ∨
    ∃ seen, acc.addEvent price e monthlyTokensBefore =
        UsageAggregate.count price { acc with seenEventIds := seen } e monthlyTokensBefore ∧
      ∀ ms, distinctEvents acc.seenEventIds (e :: ms) = e :: distinctEvents seen ms := by
  cases hid : e.eventId with
  | none =>
    refine Or.inr ⟨acc.seenEventIds, ?_, fun ms => ?_⟩
    · rw [UsageAggregate.addEvent, hid]
    · rw [distinctEvents, hid]
  | some id =>
    by_cases hseen : id ∈ acc.seenEventIds
    · refine Or.inl ⟨?_, fun ms => ?_⟩
      · rw [UsageAggregate.addEvent, hid]
        exact if_pos hseen
      · rw [distinctEvents, hid]
        exact if_pos hseen
    · refine Or.inr ⟨id :: acc.seenEventIds, ?_, fun ms => ?_⟩
      · rw [UsageAggregate.addEvent, hid]
        exact if_neg hseen
      · rw [distinctEvents, hid]
        exact if_neg hseen

/-- A `long` field to which every event that is counted adds its amount. -/
structure Meter (price : UsageAggregate.Pricing) (before : TokenEvent → ℤ)
    (g : UsageAggregate → ℤ) (f : TokenEvent → ℤ) : Prop where
  count : ∀ acc seen e, wrap64 (g acc) = g acc →
    g (UsageAggregate.count price { acc with seenEventIds := seen } e (before e)) =
      wrap64 (g acc + f e)
  duplicate : ∀ acc n, g { acc with deduplicatedCount := n } = g acc

namespace Meter
variable {price : UsageAggregate.Pricing} {before : TokenEvent → ℤ} {g : UsageAggregate → ℤ}
  {f : TokenEvent → ℤ} {es : List TokenEvent} {acc : UsageAggregate}

theorem count_append (h : Meter price before g f) (hacc : g acc = wrap64 (es.map f).sum)
    (seen : List String) (e : TokenEvent) :
    g (UsageAggregate.count price { acc with seenEventIds := seen } e (before e)) =
      wrap64 ((es ++ [e]).map f).sum := by
  have hlong : wrap64 (g acc) = g acc := by
    have hwrap := wrap64_add (es.map f).sum 0
    rw [add_zero, add_zero] at hwrap
    rw [hacc, hwrap]
  rw [h.count acc seen e hlong, hacc, wrap64_add, List.map_append, List.sum_append,
    List.map_singleton, List.sum_singleton]

theorem addEvent (h : Meter price before g f) (hacc : g acc = wrap64 (es.map f).sum)
    (e : TokenEvent) (ms : List TokenEvent) :
    ∃ counted, g (acc.addEvent price e (before e)) = wrap64 ((es ++ counted).map f).sum ∧
      distinctEvents acc.seenEventIds (e :: ms) =
        counted ++ distinctEvents (acc.addEvent price e (before e)).seenEventIds ms := by
  rcases addEvent_cases price acc e (before e) with ⟨hadd, hdistinct⟩ | ⟨seen, hadd, hdistinct⟩
  · rw [hadd, hdistinct, h.duplicate]
    refine ⟨[], ?_, rfl⟩
    rw [List.append_nil]
    exact hacc
  · rw [hadd, hdistinct]
    exact ⟨[e], h.count_append hacc seen e, rfl⟩

/-- Folding events into an accumulator adds the distinct ones to the field. -/
theorem foldl (h : Meter price before g f) (ms : List TokenEvent) :
    ∀ (es : List TokenEvent) (acc : UsageAggregate), g acc = wrap64 (es.map f).sum →
      g (ms.foldl (fun acc x => acc.addEvent price x (before x)) acc) =
        wrap64 ((es ++ distinctEvents acc.seenEventIds ms).map f).sum := by
  induction ms with
  | nil =>
    intro es acc hacc
    rw [distinctEvents, List.append_nil]
    exact hacc
  | cons e ms ih =>
    intro es acc hacc
    obtain ⟨counted, hcounted, hdistinct⟩ := h.addEvent hacc e ms
    rw [List.foldl_cons, hdistinct, ← List.append_assoc]
    exact ih _ _ hcounted

end Meter

/-- A `long` counter of an accumulator, whose names and window it does not depend on. -/
structure Counter (price : UsageAggregate.Pricing) (before : TokenEvent → ℤ)
    (g : UsageAggregate → ℤ) (f : TokenEvent → ℤ) : Prop where
  count : ∀ acc seen e, g (UsageAggregate.count price { acc with seenEventIds := seen } e
    (before e)) = wrap64 (g acc + f e)
  duplicate : ∀ acc n, g { acc with deduplicatedCount := n } = g acc
  named : ∀ acc tenantId customerId modelId windowStart windowEnd,
    g { acc with tenantId, customerId, modelId, windowStart, windowEnd } = g acc
  fresh : g {} = 0

theorem Counter.meter {price : UsageAggregate.Pricing} {before : TokenEvent → ℤ}
    {g : UsageAggregate → ℤ} {f : TokenEvent → ℤ} (h : Counter price before g f) :
    Meter price before g f where
  count acc seen e _ := h.count acc seen e
  duplicate := h.duplicate

/-- The events of the window of `e`. -/
def windowMembers (w : TumblingWindows) (es : List TokenEvent) (e : TokenEvent) :
    List TokenEvent :=
  es.filter fun x =>
    x.getAggregationKey = e.getAggregationKey ∧ w.start x.timestamp = w.start e.timestamp

/-- The events that the window of `e` counts. -/
def windowEvents (w : TumblingWindows) (es : List TokenEvent) (e : TokenEvent) :
    List TokenEvent := distinctEvents [] (windowMembers w es e)

theorem Counter.applyKeyAndWindow {price : UsageAggregate.Pricing} {before : TokenEvent → ℤ}
    {g : UsageAggregate → ℤ} {f : TokenEvent → ℤ} (h : Counter price before g f) (key : String)
    (agg : UsageAggregate) (windowStart windowEnd : ℤ) :
    g (applyKeyAndWindow key agg windowStart windowEnd) = g agg := by
  unfold Job.applyKeyAndWindow
  dsimp only
  split
  · exact h.named agg _ _ _ _ _
  · exact h.named agg _ _ _ _ _
  · exact h.named agg _ _ _ _ _

/-- A counter of a window holds the sum over the events that the window counts. -/
theorem Counter.fire {price : UsageAggregate.Pricing} {before : TokenEvent → ℤ}
    {g : UsageAggregate → ℤ} {f : TokenEvent → ℤ} (h : Counter price before g f)
    (w : TumblingWindows) (es : List TokenEvent) (e : TokenEvent) :
    g (fire price before w es e) = wrap64 ((windowEvents w es e).map f).sum := by
  have hfold := h.meter.foldl (windowMembers w es e) [] {} h.fresh
  rw [List.nil_append] at hfold
  exact (h.applyKeyAndWindow _ _ _ _).trans hfold

theorem fire_sums (price : UsageAggregate.Pricing) (before : TokenEvent → ℤ) (w : TumblingWindows)
    (es : List TokenEvent) (e : TokenEvent) :
    Sums (fun x => price x (before x)) (windowEvents w es e) (fire price before w es e) := by
  have hevents : Counter price before UsageAggregate.eventCount fun _ => 1 :=
    ⟨fun _ _ _ => rfl, fun _ _ => rfl, fun _ _ _ _ _ _ => rfl, rfl⟩
  have hlength := hevents.fire w es e
  rw [List.map_const', List.sum_replicate, nsmul_eq_mul, mul_one] at hlength
  exact
    { input := Counter.fire ⟨fun _ _ _ => rfl, fun _ _ => rfl, fun _ _ _ _ _ _ => rfl, rfl⟩ w es e
      output := Counter.fire ⟨fun _ _ _ => rfl, fun _ _ => rfl, fun _ _ _ _ _ _ => rfl, rfl⟩ w es e
      total := Counter.fire ⟨fun _ _ _ => rfl, fun _ _ => rfl, fun _ _ _ _ _ _ => rfl, rfl⟩ w es e
      events := hlength
      cost := Counter.fire ⟨fun _ _ _ => rfl, fun _ _ => rfl, fun _ _ _ _ _ _ => rfl, rfl⟩ w es e }

private theorem distinctEvents_subset (ms : List TokenEvent) :
    ∀ seen, ∀ e ∈ distinctEvents seen ms, e ∈ ms := by
  induction ms with
  | nil =>
    intro seen e he
    simp [distinctEvents] at he
  | cons x ms ih =>
    intro seen e he
    unfold distinctEvents at he
    split at he
    · split_ifs at he
      · exact List.mem_cons_of_mem x (ih _ e he)
      · rcases List.mem_cons.mp he with rfl | he
        · exact List.mem_cons_self
        · exact List.mem_cons_of_mem x (ih _ e he)
    · rcases List.mem_cons.mp he with rfl | he
      · exact List.mem_cons_self
      · exact List.mem_cons_of_mem x (ih _ e he)

theorem mem_of_windowEvents {w : TumblingWindows} {es : List TokenEvent} {e x : TokenEvent}
    (h : x ∈ windowEvents w es e) : x ∈ es :=
  (List.mem_filter.mp (distinctEvents_subset _ _ x h)).1

theorem foldl_names (price price' : UsageAggregate.Pricing) (before before' : TokenEvent → ℤ)
    (ms : List TokenEvent) : ∀ acc acc' : UsageAggregate,
      acc.tenantId = acc'.tenantId → acc.seenEventIds = acc'.seenEventIds →
      (ms.foldl (fun acc x => acc.addEvent price x (before x)) acc).tenantId =
        (ms.foldl (fun acc x => acc.addEvent price' x (before' x)) acc').tenantId := by
  induction ms with
  | nil => exact fun _ _ htenant _ => htenant
  | cons e ms ih =>
    intro acc acc' htenant hseen
    rw [List.foldl_cons, List.foldl_cons]
    apply ih
    · unfold UsageAggregate.addEvent UsageAggregate.count
      rw [htenant, hseen]
      split
      · split_ifs <;> rfl
      · rfl
    · unfold UsageAggregate.addEvent UsageAggregate.count
      rw [hseen]
      split
      · split_ifs <;> rfl
      · rfl

theorem sinkKeys_congr {agg agg' : UsageAggregate} (htenant : agg.tenantId = agg'.tenantId)
    (hcustomer : agg.customerId = agg'.customerId) (hmodel : agg.modelId = agg'.modelId)
    (hstart : agg.windowStart = agg'.windowStart) (hend : agg.windowEnd = agg'.windowEnd) :
    sinkKeys agg = sinkKeys agg' := by
  unfold sinkKeys
  rw [htenant, hcustomer, hmodel, hstart, hend]

/-- The keys under which the window of `e` is charged. -/
def windowKeys (w : TumblingWindows) (es : List TokenEvent) (e : TokenEvent) : SinkKeys :=
  sinkKeys (fire (fun _ _ => 0) (fun _ => 0) w es e)

theorem sinkKeys_fire (price : UsageAggregate.Pricing) (before : TokenEvent → ℤ)
    (w : TumblingWindows) (es : List TokenEvent) (e : TokenEvent) :
    sinkKeys (fire price before w es e) = windowKeys w es e := by
  have htenant := foldl_names price (fun _ _ => 0) before (fun _ => 0) (windowMembers w es e) {} {}
    rfl rfl
  unfold windowKeys fire applyKeyAndWindow
  dsimp only
  split
  · exact sinkKeys_congr rfl rfl rfl rfl rfl
  · exact sinkKeys_congr htenant rfl rfl rfl rfl
  · exact sinkKeys_congr htenant rfl rfl rfl rfl

/-! ### Flat catalogs -/

theorem mathRound_int {n : ℤ} (h : |n| ≤ (2 ^ 31 : ℕ)) : mathRound n = n := by
  have hcast : |(n : ℚ)| ≤ (2 ^ 31 : ℕ) := by exact_mod_cast h
  rw [mathRound_of_small hcast (by norm_num), Int.floor_eq_iff]
  constructor <;> linarith

/-- A count of `int` size is priced at nothing where the rate is small enough. -/
theorem mathRound_tiny {n : ℤ} (h : |n| ≤ (2 ^ 31 : ℕ)) : mathRound (n * (1 / 2 ^ 33)) = 0 := by
  have hcast : |(n : ℚ)| ≤ (2 ^ 31 : ℕ) := by exact_mod_cast h
  obtain ⟨hlo, hhi⟩ := abs_le.mp hcast
  push_cast at hlo hhi
  have hsmall : |(n : ℚ) * (1 / 2 ^ 33)| ≤ ((1 : ℕ) : ℚ) := by
    rw [abs_le]
    push_cast
    constructor <;> linarith
  rw [mathRound_of_small hsmall (by norm_num), Int.floor_eq_iff]
  constructor
  · push_cast
    linarith
  · push_cast
    linarith

def flatCatalog (input output embedding cacheReadMultiplier : ℚ) : PricingCatalog where
  models := .empty
  defaults := .flat input output embedding
  prefixModels := []
  cacheReadMultiplier := cacheReadMultiplier

section Flat
variable {input output embedding mult : ℚ} {e : TokenEvent}

theorem flatCatalog_priced {bound : ℕ} (hinput : 0 ≤ input ∧ input ≤ bound)
    (houtput : 0 ≤ output ∧ output ≤ bound) (hembedding : 0 ≤ embedding ∧ embedding ≤ bound)
    (hread : 0 ≤ input * mult ∧ input * mult ≤ bound) :
    (flatCatalog input output embedding mult).Priced bound := by
  intro m hm tier htier category
  have hdefault : m = .flat input output embedding := by
    simpa [flatCatalog, Collections.Table.empty] using hm
  subst hdefault
  have hflat : tier = (ModelPricing.flat input output embedding).flatTier := by
    simpa [ModelPricing.flat] using htier
  subst hflat
  cases category with
  | input => exact hinput
  | output => exact houtput
  | cacheRead => exact hread
  | reasoning => exact houtput
  | cacheWrite => exact hinput
  | embedding => exact hembedding

private theorem flatCatalog_price (hint : IntCounts e.counts) (before : ℤ)
    (hpriced : (flatCatalog input output embedding mult).Priced 1) :
    (flatCatalog input output embedding mult).calculateEventCostMicro e before =
      mathRound (e.inputTokens * input) + mathRound (e.outputTokens * output) +
        mathRound (e.cacheReadTokens * (input * mult)) + mathRound (e.reasoningTokens * output) +
        mathRound (e.cacheWriteTokens * input) + mathRound (e.embeddingTokens * embedding) :=
  (costAtTier_sum (m := .flat input output embedding) List.mem_cons_self
    (hpriced _ List.mem_cons_self) hint (by decide)).1

end Flat

theorem payable_of_prices {e : TokenEvent} (hint : IntCounts e.counts) (hinput : 0 ≤ e.inputTokens)
    (houtput : 0 ≤ e.outputTokens)
    (h : ∀ catalog : PricingCatalog, catalog.Priced 1 → 0 ≤ catalog.calculateEventCostMicro e 0) :
    Payable e.counts := by
  have hzero : mathRound 0 = 0 := by decide +kernel
  have hunit : (1 / 2 ^ 33 * 2 ^ 33 : ℚ) = 1 := by norm_num
  have htiny : mathRound (e.inputTokens * (1 / 2 ^ 33)) = 0 := mathRound_tiny hint.input
  have htiny' : mathRound (e.cacheWriteTokens * (1 / 2 ^ 33)) = 0 := mathRound_tiny hint.cacheWrite
  have hrounded : mathRound (e.inputTokens : ℚ) = e.inputTokens ∧
      mathRound (e.outputTokens : ℚ) = e.outputTokens ∧
      mathRound (e.cacheReadTokens : ℚ) = e.cacheReadTokens ∧
      mathRound (e.cacheWriteTokens : ℚ) = e.cacheWriteTokens ∧
      mathRound (e.reasoningTokens : ℚ) = e.reasoningTokens ∧
      mathRound (e.embeddingTokens : ℚ) = e.embeddingTokens :=
    ⟨mathRound_int hint.input, mathRound_int hint.output, mathRound_int hint.cacheRead,
      mathRound_int hint.cacheWrite, mathRound_int hint.reasoning, mathRound_int hint.embedding⟩
  obtain ⟨hin, hout, hcacheRead, hcacheWrite, hreasoning, hembedding⟩ := hrounded
  have hpriced : ∀ input output embedding mult : ℚ, (0 ≤ input ∧ input ≤ (1 : ℕ)) →
      (0 ≤ output ∧ output ≤ (1 : ℕ)) → (0 ≤ embedding ∧ embedding ≤ (1 : ℕ)) →
      (0 ≤ input * mult ∧ input * mult ≤ (1 : ℕ)) →
      0 ≤ mathRound (e.inputTokens * input) + mathRound (e.outputTokens * output) +
        mathRound (e.cacheReadTokens * (input * mult)) + mathRound (e.reasoningTokens * output) +
        mathRound (e.cacheWriteTokens * input) + mathRound (e.embeddingTokens * embedding) := by
    intro input output embedding mult h₁ h₂ h₃ h₄
    have hcatalog : (flatCatalog input output embedding mult).Priced 1 :=
      flatCatalog_priced h₁ h₂ h₃ h₄
    rw [← flatCatalog_price hint 0 hcatalog]
    exact h _ hcatalog
  -- the least input rate with the largest multiplier prices the cache reads alone
  have hread := hpriced (1 / 2 ^ 33) 0 0 (2 ^ 33) (by norm_num) (by norm_num) (by norm_num)
    (by norm_num)
  have hembed := hpriced 0 0 1 0 (by norm_num) (by norm_num) (by norm_num) (by norm_num)
  have hwrite := hpriced 1 0 0 0 (by norm_num) (by norm_num) (by norm_num) (by norm_num)
  have hreason := hpriced 0 1 0 0 (by norm_num) (by norm_num) (by norm_num) (by norm_num)
  rw [htiny, htiny', hunit] at hread
  simp only [mul_zero, mul_one, hzero, add_zero, zero_add] at hread hembed hwrite hreason
  rw [hcacheRead] at hread
  rw [hembedding] at hembed
  rw [hin, hcacheWrite] at hwrite
  rw [hout, hreasoning] at hreason
  exact ⟨hinput, houtput, hread, hembed, hwrite, hreason⟩

/-! ### Admitted events -/

/-- The counts balance within each rate, and the sum of all of them as an `int` is not
negative. -/
def Balanced (c : TokenCounts) : Prop := Payable c ∧ 0 ≤ wrap32 c.total

/-- The sums of the events as `long` values are not negative. -/
structure WindowSums (es : List TokenEvent) : Prop where
  input : 0 ≤ wrap64 (es.map TokenEvent.inputTokens).sum
  output : 0 ≤ wrap64 (es.map TokenEvent.outputTokens).sum
  total : 0 ≤ wrap64 (es.map TokenEvent.getTotalTokens).sum
  events : 0 ≤ wrap64 es.length

/-- Whatever is charged within the range of `long`, neither the projection of the event nor its
window gives anything back. -/
structure BillsUpward (P : Projection) (w : TumblingWindows) (s : Keyspace) (es : List TokenEvent)
    (e : TokenEvent) : Prop where
  projection : ∀ (catalog : PricingCatalog) (bound : ℕ), catalog.Priced bound →
    priceBound bound < 2 ^ 63 → ∀ before now,
    Charged s (({ P with catalog } : Projection).apply s e before now).1
  window : ∀ (catalog : PricingCatalog) (bound : ℕ), catalog.Priced bound →
    (windowEvents w es e).length * priceBound bound < 2 ^ 63 → ∀ volumes,
    Charged s (applyWindow s (fire catalog.calculateEventCostMicro volumes w es e))

section Admitted
variable {P : Projection} {w : TumblingWindows} {s : Keyspace} {es : List TokenEvent}

theorem projection_upward {e : TokenEvent} {catalog : PricingCatalog} {bound : ℕ}
    (hint : IntCounts e.counts) (hbalanced : Balanced e.counts) (hfunded : PackageFunded s e)
    (hcatalog : catalog.Priced bound) (hsize : priceBound bound < 2 ^ 63) (before : ℤ)
    (now : String) : Charged s (({ P with catalog } : Projection).apply s e before now).1 :=
  apply_charged hfunded (price_bounds hcatalog hint hbalanced.1 hsize before).1 hbalanced.1.input
    hbalanced.1.output hbalanced.2

theorem window_cost {e : TokenEvent} {catalog : PricingCatalog} {bound : ℕ}
    (hint : ∀ x ∈ es, IntCounts x.counts) (hpay : ∀ x ∈ es, Payable x.counts)
    (hcatalog : catalog.Priced bound)
    (hsize : (windowEvents w es e).length * priceBound bound < 2 ^ 63) (volumes : TokenEvent → ℤ) :
    0 ≤ (fire catalog.calculateEventCostMicro volumes w es e).costMicro := by
  rw [(fire_sums _ _ _ _ _).cost]
  have hprices : ∀ x ∈ windowEvents w es e,
      0 ≤ catalog.calculateEventCostMicro x (volumes x) ∧
        catalog.calculateEventCostMicro x (volumes x) ≤ priceBound bound := by
    intro x hx
    have hmem := mem_of_windowEvents hx
    have hlength : 0 < (windowEvents w es e).length := List.length_pos_of_mem hx
    have hone : priceBound bound ≤ (windowEvents w es e).length * priceBound bound :=
      Nat.le_mul_of_pos_left _ hlength
    exact price_bounds hcatalog (hint x hmem) (hpay x hmem) (by omega) _
  have hlow : 0 ≤ ((windowEvents w es e).map fun x =>
      catalog.calculateEventCostMicro x (volumes x)).sum := by
    apply List.sum_nonneg
    intro price hprice
    obtain ⟨x, hx, rfl⟩ := List.mem_map.mp hprice
    exact (hprices x hx).1
  have hhigh : ((windowEvents w es e).map fun x =>
      catalog.calculateEventCostMicro x (volumes x)).sum ≤
        ((windowEvents w es e).length * priceBound bound : ℕ) := by
    have hsum := List.sum_le_card_nsmul ((windowEvents w es e).map fun x =>
      catalog.calculateEventCostMicro x (volumes x)) (priceBound bound) (by
        intro price hprice
        obtain ⟨x, hx, rfl⟩ := List.mem_map.mp hprice
        exact (hprices x hx).2)
    rw [List.length_map, nsmul_eq_mul] at hsum
    push_cast
    exact hsum
  rw [wrap64_of_small (abs_lt.mpr (by omega))]
  exact hlow

theorem window_upward {e : TokenEvent} {catalog : PricingCatalog} {bound : ℕ}
    (hint : ∀ x ∈ es, IntCounts x.counts) (hpay : ∀ x ∈ es, Payable x.counts)
    (hfunded : BalanceFunded s (windowKeys w es e).budget)
    (hsums : WindowSums (windowEvents w es e)) (hcatalog : catalog.Priced bound)
    (hsize : (windowEvents w es e).length * priceBound bound < 2 ^ 63) (volumes : TokenEvent → ℤ) :
    Charged s (applyWindow s (fire catalog.calculateEventCostMicro volumes w es e)) := by
  have hfire := fire_sums catalog.calculateEventCostMicro volumes w es e
  apply window_charged
  · rw [sinkKeys_fire]
    exact hfunded
  · constructor
    case input => rw [hfire.input]; exact hsums.input
    case output => rw [hfire.output]; exact hsums.output
    case total => rw [hfire.total]; exact hsums.total
    case events => rw [hfire.events]; exact hsums.events
    case cost =>
      have hcost := window_cost (e := e) hint hpay hcatalog hsize volumes
      exact div_nonneg (Int.cast_nonneg hcost) (by norm_num)

theorem of_projection_upward {e : TokenEvent} (hint : IntCounts e.counts)
    (hfresh : s.projected (P.projectionKey e.eventId) = false) (h : BillsUpward P w s es e) :
    Balanced e.counts ∧ PackageFunded s e := by
  have hprices : ∀ catalog : PricingCatalog, catalog.Priced 1 →
      0 ≤ e.inputTokens ∧ 0 ≤ e.outputTokens ∧ 0 ≤ e.getTotalTokens ∧
        0 ≤ catalog.calculateEventCostMicro e 0 :=
    fun catalog hcatalog => of_apply_charged (P := { P with catalog }) hfresh
      (h.projection catalog 1 hcatalog (by decide) 0 "")
  have hcheap : (flatCatalog 0 0 0 0).Priced 1 :=
    flatCatalog_priced (by norm_num) (by norm_num) (by norm_num) (by norm_num)
  obtain ⟨hinput, houtput, htotal, -⟩ := hprices _ hcheap
  have hpay := payable_of_prices hint hinput houtput fun catalog hcatalog =>
    (hprices catalog hcatalog).2.2.2
  exact ⟨⟨hpay, htotal⟩, funded_of_apply_charged (P := { P with catalog := flatCatalog 0 0 0 0 })
    hfresh (h.projection _ 1 hcheap (by decide) 0 "") htotal⟩

private theorem of_window_upward {e : TokenEvent} (hint : ∀ x ∈ es, IntCounts x.counts)
    (hpay : ∀ x ∈ es, Payable x.counts)
    (hfresh : s.applied (windowKeys w es e).windowId = false) (h : BillsUpward P w s es e) :
    BalanceFunded s (windowKeys w es e).budget ∧ WindowSums (windowEvents w es e) := by
  have hfree : (flatCatalog 0 0 0 0).Priced 0 :=
    flatCatalog_priced (by norm_num) (by norm_num) (by norm_num) (by norm_num)
  have hsize : (windowEvents w es e).length * priceBound 0 < 2 ^ 63 := by simp [priceBound]
  have hfire := fire_sums (flatCatalog 0 0 0 0).calculateEventCostMicro (fun _ => 0) w es e
  have hcost := window_cost (e := e) hint hpay hfree hsize fun _ => 0
  have hkeys := sinkKeys_fire (flatCatalog 0 0 0 0).calculateEventCostMicro (fun _ => 0) w es e
  obtain ⟨hcharge, hbalance⟩ := of_window_charged (by rw [hkeys]; exact hfresh)
    (h.window _ 0 hfree hsize fun _ => 0) (div_nonneg (Int.cast_nonneg hcost) (by norm_num))
  rw [hkeys] at hbalance
  refine ⟨hbalance, ?_⟩
  constructor
  case input => rw [← hfire.input]; exact hcharge.input
  case output => rw [← hfire.output]; exact hcharge.output
  case total => rw [← hfire.total]; exact hcharge.total
  case events => rw [← hfire.events]; exact hcharge.events

end Admitted

/-- The events that the admissions become for the sinks. -/
def decodedEvents (py : Python) (T : JsonText) (D : Databind) (clock : ℤ)
    (admissions : List Admission) : List TokenEvent :=
  admissions.filterMap (Admission.decoded py T D clock)

/-- Processing the admitted events gives nothing back exactly when the counts of every event
that the job can read balance, and the package and the balance that it draws on are not
overdrawn. -/
theorem billing_monotone_iff (py : Python) (T : JsonText) (D : Databind) (P : Projection)
    (w : TumblingWindows) (clock : ℤ) (admissions : List Admission) (s : Keyspace)
    (hfresh : ∀ e ∈ decodedEvents py T D clock admissions,
      s.projected (P.projectionKey e.eventId) = false ∧
        s.applied (windowKeys w (decodedEvents py T D clock admissions) e).windowId =
          false) :
    (∀ e ∈ decodedEvents py T D clock admissions,
        BillsUpward P w s (decodedEvents py T D clock admissions) e) ↔
      (∀ a ∈ admissions, a.Readable py T → Balanced a.event.counts) ∧
        ∀ e ∈ decodedEvents py T D clock admissions, PackageFunded s e ∧
          BalanceFunded s
            (windowKeys w (decodedEvents py T D clock admissions) e).budget ∧
          WindowSums (windowEvents w (decodedEvents py T D clock admissions) e) := by
  have hadmitted : ∀ e ∈ decodedEvents py T D clock admissions, ∃ a ∈ admissions,
      a.Readable py T ∧ e.counts = a.event.counts := by
    intro e he
    obtain ⟨a, ha, hdecoded⟩ := List.mem_filterMap.mp he
    exact ⟨a, ha, Admission.decoded_iff e hdecoded⟩
  have hint : ∀ e ∈ decodedEvents py T D clock admissions, IntCounts e.counts := by
    intro e he
    obtain ⟨a, -, hreadable, hcounts⟩ := hadmitted e he
    rw [hcounts]
    exact hreadable.intCounts
  constructor
  · intro h
    have hprojection : ∀ e ∈ decodedEvents py T D clock admissions,
        Balanced e.counts ∧ PackageFunded s e :=
      fun e he => of_projection_upward (hint e he) (hfresh e he).1 (h e he)
    refine ⟨fun a ha hreadable => ?_, fun e he => ?_⟩
    · obtain ⟨e, hdecoded⟩ := Admission.decoded_of_readable D clock hreadable
      have he := List.mem_filterMap.mpr ⟨a, ha, hdecoded⟩
      rw [← (Admission.decoded_iff e hdecoded).2]
      exact (hprojection e he).1
    · exact ⟨(hprojection e he).2, of_window_upward hint
        (fun x hx => (hprojection x hx).1.1) (hfresh e he).2 (h e he)⟩
  · rintro ⟨hbalanced, hfunded⟩ e he
    have hcounts : ∀ x ∈ decodedEvents py T D clock admissions, Balanced x.counts := by
      intro x hx
      obtain ⟨a, ha, hreadable, heq⟩ := hadmitted x hx
      rw [heq]
      exact hbalanced a ha hreadable
    obtain ⟨hpackage, hbalance, hsums⟩ := hfunded e he
    constructor
    case projection =>
      exact fun catalog bound hcatalog hsize before now =>
        projection_upward (hint e he) (hcounts e he) hpackage hcatalog hsize before now
    case window =>
      exact fun catalog bound hcatalog hsize volumes =>
        window_upward hint (fun x hx => (hcounts x hx).1) hbalance hsums hcatalog hsize volumes

/-- What an admission of `Admission.inputOnly` becomes. -/
def usedTokens (inputTokens : ℤ) : TokenEvent where
  eventId := some "e1"
  tenantId := some "t"
  customerId := some "acme"
  modelId := some "gpt"
  inputTokens := inputTokens
  ingestSource := some "http"
  ingestTraceId := some "trace"
  receivedAt := 1000
  timestamp := 1000

/-- One microdollar for an input token and three for an output token, and SHA-256
on the ids `e1` and `e2`. -/
def flatProjection : Projection where
  catalog := flatCatalog 1 3 0 1
  sha256 text :=
    if text = "e1" then "8b5cc4df7eec7d32a7814eca4af047ae33b2d52342667715682e19c25b0b9faa"
    else "ac0f09c0f8bf5e7a4b063d863255f16d8ce9abe600e288d934cf313bcbff63eb"
  allowedDimensions := []
  windowMillis := 10000

def prepaid : Keyspace where
  budgets _ := { balanceUsd := some 1 }
  usage := { ints := Function.update (fun _ => none) (packageKey (some "t") "acme") (some 20) }

theorem billing_monotone_twelve :
    decodedEvents .ofEventId .tree .fieldwise 0 [Admission.inputOnly 12] = [usedTokens 12] ∧
      BillsUpward flatProjection tenSeconds prepaid [usedTokens 12] (usedTokens 12) := by
  have hdecoded : decodedEvents .ofEventId .tree .fieldwise 0 [Admission.inputOnly 12] =
      [usedTokens 12] := by decide +kernel
  have hcounted : windowEvents tenSeconds [usedTokens 12] (usedTokens 12) = [usedTokens 12] := by
    decide +kernel
  have hiff := billing_monotone_iff .ofEventId .tree .fieldwise flatProjection tenSeconds 0
    [Admission.inputOnly 12] prepaid fun e he => ⟨rfl, rfl⟩
  rw [hdecoded] at hiff
  refine ⟨hdecoded, hiff.mpr ⟨fun a ha _ => ?_, fun e he => ?_⟩ _ List.mem_cons_self⟩
  · rw [List.mem_singleton.mp ha]
    exact ⟨by decide, by decide⟩
  · rw [List.mem_singleton.mp he, hcounted]
    refine ⟨by unfold PackageFunded; decide +kernel, fun q hq => ?_,
      ⟨by decide, by decide, by decide, by decide⟩⟩
    have hq' : (1 : ℚ) = q := Option.some.inj hq
    rw [← hq']
    norm_num

/-- An admitted event of minus five input tokens adds five tokens to the package and five
microdollars to the balance. -/
theorem not_billing_monotone :
    decodedEvents .ofEventId .tree .fieldwise 0 [Admission.inputOnly (-5)] = [usedTokens (-5)] ∧
      ¬ Charged prepaid (flatProjection.apply prepaid (usedTokens (-5)) 0 "1000").1 ∧
      ¬ Charged prepaid (applyWindow prepaid
        (fire flatProjection.catalog.calculateEventCostMicro (fun _ => 0) tenSeconds
          [usedTokens (-5)] (usedTokens (-5)))) := by
  refine ⟨by decide +kernel, fun h => ?_, fun h => ?_⟩
  · have hafter : (flatProjection.apply prepaid (usedTokens (-5)) 0 "1000").1.usage.ints
        (packageKey (some "t") "acme") = some 25 := by decide +kernel
    have hbefore : prepaid.usage.ints (packageKey (some "t") "acme") = some 20 := by decide +kernel
    obtain ⟨n, hn, hle⟩ := h.usage.packages (some "t") "acme" 25 hafter
    rw [hbefore] at hn
    have hn' : 20 = n := Option.some.inj hn
    omega
  · have hafter : ((applyWindow prepaid (fire flatProjection.catalog.calculateEventCostMicro
        (fun _ => 0) tenSeconds [usedTokens (-5)] (usedTokens (-5)))).budgets
          ⟨some "t", "acme"⟩).balanceUsd = some (1 + 5 / 1000000) := by decide +kernel
    obtain ⟨q, hq, hle⟩ := h.balances ⟨some "t", "acme"⟩ _ hafter
    have hq' : (1 : ℚ) = q := Option.some.inj hq
    linarith

end FluxMeter.Usage
