import FluxMeter.Usage.PeriodReaders

/-! What the readers of monthly costs return after a run of the sinks, against what the sinks wrote
in the month. -/
namespace FluxMeter.Usage
open FluxMeter.Budget FluxMeter.Keys FluxMeter.Model Collections Collections.Glob PeriodReader

/-- The dimensions of an event that are counted. -/
def Projection.countedDims (P : Projection) (e : TokenEvent) : List (String × String) :=
  (e.metadata.getD []).filter fun entry =>
    entry.1 ∈ P.allowedDimensions ∧ isBlank entry.2 = false

namespace SinkStep

def Fired : SinkStep → Prop
  | .window agg => 0 < agg.eventCount
  | .event .. => True

instance : DecidablePred Fired
  | .window agg => inferInstanceAs (Decidable (0 < agg.eventCount))
  | .event .. => isTrue trivial

/-- The names that the step writes into its keys have no colon. -/
def Plain (P : Projection) : SinkStep → Prop
  | .window agg => NoColon (TokenEvent.orNull agg.customerId)
  | .event e _ => NoColon (TokenEvent.orNull e.customerId) ∧
      NoColon (P.catalog.normalizeModelId e.modelId) ∧
      ∀ entry ∈ P.countedDims e, NoColon entry.1 ∧ NoColon entry.2

instance (P : Projection) : DecidablePred (Plain P)
  | .window _ => inferInstanceAs (Decidable (NoColon _))
  | .event .. => inferInstanceAs (Decidable (_ ∧ _))

end SinkStep

/-- There is no rollup, no index of customers and no dimension yet. -/
def Untouched (s : Keyspace) : Prop :=
  ∀ key, headOf key ∈ [some 'r', some 'i', some 'd'] → SameAt key s.usage {}

section Written
variable (P : Projection) (before : TokenEvent → ℤ) (s : Keyspace) (steps : List SinkStep)

/-- The price that the sink writes for an event. -/
def eventCost (e : TokenEvent) : ℚ := (P.catalog.calculateEventCostMicro e (before e) : ℚ) / 1000000

def customerCharges (c p : String) : List ℚ :=
  ((appliedWindows (ran P before s steps)).filter fun agg =>
    TokenEvent.orNull agg.customerId = c ∧ monthUtc agg.windowEnd = p).map UsageAggregate.getCostUsd

/-- The events of a month that a model is charged for, of one customer or of all. -/
def modelEvents (scope : Option String) (m p : String) : List TokenEvent :=
  (projectedEvents (ran P before s steps)).filter fun e =>
    (∀ c ∈ scope, TokenEvent.orNull e.customerId = c) ∧
      P.catalog.normalizeModelId e.modelId = m ∧ monthUtc (Projection.accountingTime e) = p

def dimCharges (k v p : String) : List ℚ :=
  (projectedEvents (ran P before s steps)).flatMap fun e =>
    ((P.countedDims e).filter fun entry =>
      entry = (k, v) ∧ monthUtc (Projection.accountingTime e) = p).map fun _ => eventCost P before e

end Written

/-! ### Months in patterns -/

theorem literal_monthUtc (t : ℤ) : Literal (monthUtc t) := by
  intro c hc hspecial
  rcases numeral_monthUtc t c hc with hdigit | rfl
  · simp only [special, List.mem_cons, List.not_mem_nil, or_false] at hspecial
    rcases hspecial with rfl | rfl | rfl | rfl <;> exact absurd hdigit (by decide)
  · exact absurd hspecial (by decide)

theorem literal_periodTail (t : ℤ) : Literal (":period:" ++ monthUtc t) :=
  literal_append (by decide) (literal_monthUtc t)

private theorem rollupMonthKey_split (c p : String) :
    rollupMonthKey c p = "rollup:" ++ c ++ (":period:" ++ p) := by
  unfold rollupMonthKey
  simp only [String.append_assoc]

theorem customerPattern_iff (t : ℤ) (key : String) :
    globMatch (customerPattern (monthUtc t)) key = true ↔
      ∃ x, key = rollupMonthKey x (monthUtc t) := by
  unfold customerPattern
  rw [globMatch_star (by decide) (literal_periodTail t)]
  simp only [rollupMonthKey_split]

/-! ### Buckets -/

section Buckets
variable {s : Keyspace} {key : String}

theorem readUsageBucket_cost : (readUsageBucket s key).map UsageFields.costUsd =
    if RollupField.eventCount.read s.usage key = 0 ∧ RollupField.totalTokens.read s.usage key = 0 then
      none
    else some (RollupField.costUsd.read s.usage key) := by
  have hcount : RollupField.eventCount.read s.usage key = 0 ↔
      integer (s.usage.hashInts key "event_count") = 0 := Int.cast_eq_zero
  have htotal : RollupField.totalTokens.read s.usage key = 0 ↔
      integer (s.usage.hashInts key "total_tokens") = 0 := Int.cast_eq_zero
  unfold readUsageBucket
  dsimp only
  simp only [hcount, htotal]
  split_ifs <;> rfl

theorem entry_eq_some {name k : String} {q : ℚ} :
    ((readUsageBucket s key).map fun data => (name, data.costUsd)) = some (k, q) ↔
      name = k ∧ (readUsageBucket s key).map UsageFields.costUsd = some q := by
  cases readUsageBucket s key with
  | none => simp
  | some data => simp

theorem has_of_bucket {q : ℚ} (h : (readUsageBucket s key).map UsageFields.costUsd = some q) :
    UsageStore.Has s.usage key := by
  rw [readUsageBucket_cost] at h
  split_ifs at h with hempty
  by_contra hmissing
  unfold UsageStore.Has at hmissing
  push Not at hmissing
  obtain ⟨-, -, hints, -⟩ := hmissing
  apply hempty
  constructor
  · show ((integer (s.usage.hashInts key "event_count") : ℤ) : ℚ) = 0
    rw [hints]
    rfl
  · show ((integer (s.usage.hashInts key "total_tokens") : ℤ) : ℚ) = 0
    rw [hints]
    rfl

end Buckets

/-! ### The two ways to the customers -/

section Customers
variable {s : Keyspace}

theorem customerCostsByIndex_get (p c : String) (q : ℚ) :
    (customerCostsByIndex s p).get c = some q ↔ c ∈ s.usage.sets (periodCustomersIndex p) ∧
      (readUsageBucket s (rollupMonthKey c p)).map UsageFields.costUsd = some q := by
  unfold customerCostsByIndex
  rw [Table.get_gather]
  · constructor
    · rintro ⟨cid, hcid, hdata⟩
      obtain ⟨rfl, hcost⟩ := entry_eq_some.mp hdata
      exact ⟨hcid, hcost⟩
    · rintro ⟨hc, hcost⟩
      exact ⟨c, hc, entry_eq_some.mpr ⟨rfl, hcost⟩⟩
  · intro a _ b _ k v w ha hb
    obtain ⟨rfl, hcost⟩ := entry_eq_some.mp ha
    obtain ⟨rfl, hcost'⟩ := entry_eq_some.mp hb
    exact Option.some.inj (hcost.symm.trans hcost')

private theorem customerOfKey_iff {t : ℤ} {keys : List String}
    (hscan : Scans s (customerPattern (monthUtc t)) keys) {key c : String} (hkey : key ∈ keys) :
    customerOfKey key = some c ↔ NoColon c ∧ key = rollupMonthKey c (monthUtc t) := by
  obtain ⟨x, rfl⟩ := (customerPattern_iff t _).mp ((hscan key).mp hkey).2
  constructor
  · intro h
    obtain ⟨hc, p, hp, heq⟩ := customerOfKey_eq_some h
    rw [rollupMonthKey_eq, rollupMonthKey_eq] at heq
    obtain ⟨-, rfl⟩ := last_part (colon_notMem_monthUtc t) hp heq
    refine ⟨hc, ?_⟩
    rw [rollupMonthKey_eq, rollupMonthKey_eq]
    exact heq
  · rintro ⟨hc, hkey⟩
    rw [hkey]
    exact customerOfKey_rollup hc (colon_notMem_monthUtc t)

theorem customerCostsByScan_get {t : ℤ} {keys : List String}
    (hscan : Scans s (customerPattern (monthUtc t)) keys) (c : String) (q : ℚ) :
    (customerCostsByScan s keys).get c = some q ↔ NoColon c ∧
      (readUsageBucket s (rollupMonthKey c (monthUtc t))).map UsageFields.costUsd = some q := by
  have hentry : ∀ key ∈ keys, ∀ c q, ((customerOfKey key).bind fun cid =>
      (readUsageBucket s key).map fun data => (cid, data.costUsd)) = some (c, q) ↔
      (NoColon c ∧ key = rollupMonthKey c (monthUtc t)) ∧
        (readUsageBucket s key).map UsageFields.costUsd = some q := by
    intro key hkey c q
    rw [← customerOfKey_iff hscan hkey]
    constructor
    · intro h
      obtain ⟨cid, hcid, hdata⟩ := Option.bind_eq_some_iff.mp h
      obtain ⟨rfl, hcost⟩ := entry_eq_some.mp hdata
      exact ⟨hcid, hcost⟩
    · rintro ⟨hc, hcost⟩
      rw [hc, Option.bind_some]
      exact entry_eq_some.mpr ⟨rfl, hcost⟩
  unfold customerCostsByScan
  rw [Table.get_gather]
  · constructor
    · rintro ⟨key, hkey, h⟩
      obtain ⟨⟨hc, rfl⟩, hdata⟩ := (hentry key hkey c q).mp h
      exact ⟨hc, hdata⟩
    · rintro ⟨hc, hdata⟩
      have hkey := (hscan _).mpr ⟨has_of_bucket hdata, (customerPattern_iff t _).mpr ⟨c, rfl⟩⟩
      exact ⟨_, hkey, (hentry _ hkey c q).mpr ⟨⟨hc, rfl⟩, hdata⟩⟩
  · intro a ha b hb k v w hav hbw
    obtain ⟨⟨-, rfl⟩, hdata⟩ := (hentry a ha k v).mp hav
    obtain ⟨⟨-, rfl⟩, hdata'⟩ := (hentry b hb k w).mp hbw
    exact Option.some.inj (hdata.symm.trans hdata')

/-- What the endpoint model of the reader answers for one customer is the entry of the dictionary. -/
theorem listCustomerPeriodCosts_get {t : ℤ} {keys : List String}
    (hscan : Scans s (customerPattern (monthUtc t)) keys) (c : String) :
    (PeriodReader.listCustomerPeriodCosts s (monthUtc t) keys).get c =
      FluxMeter.Usage.listCustomerPeriodCosts s (monthUtc t) c := by
  unfold PeriodReader.listCustomerPeriodCosts FluxMeter.Usage.listCustomerPeriodCosts
  dsimp only
  split_ifs with hmembers hc hcolon
  · refine Option.ext fun q => ?_
    rw [customerCostsByIndex_get, and_iff_right hc]
  · refine Option.eq_none_iff_forall_ne_some.mpr fun q hq => ?_
    exact hc ((customerCostsByIndex_get _ c q).mp hq).1
  · refine Option.eq_none_iff_forall_ne_some.mpr fun q hq => ?_
    exact hcolon.elim ((customerCostsByScan_get hscan c q).mp hq).1 (colon_notMem_monthUtc t)
  · have hc : NoColon c := fun h => hcolon (Or.inl h)
    refine Option.ext fun q => ?_
    rw [customerCostsByScan_get hscan, and_iff_right hc]

end Customers

section Run
variable {P : Projection} {before : TokenEvent → ℤ} {s : Keyspace} {steps : List SinkStep}

theorem RollupField.read_untouched {key : String} (h : SameAt key s.usage {}) (field : RollupField) :
    field.read s.usage key = 0 := by
  have hints : ∀ name, integer (s.usage.hashInts key name) = 0 := by
    intro name
    rw [h.hashInts]
    rfl
  have hfloats : number (s.usage.hashFloats key "cost_usd") = 0 := by
    rw [h.hashFloats]
    rfl
  cases field with
  | costUsd => exact hfloats
  | _ => exact Int.cast_eq_zero.mpr (hints _)

/-- A month of a customer holds what its windows wrote. -/
theorem customerRollup_run (hs : Untouched s) {c : String} (hc : NoColon c) (t : ℤ)
    (field : RollupField) :
    field.read (runSinks P before s steps).usage (rollupMonthKey c (monthUtc t)) =
      (((appliedWindows (ran P before s steps)).filter fun agg =>
        TokenEvent.orNull agg.customerId = c ∧ monthUtc agg.windowEnd = monthUtc t).map
          field.ofWindow).sum := by
  have hhead : headOf (rollupMonthKey c (monthUtc t)) = some 'r' := by
    rw [rollupMonthKey_eq]
    simp only [headOf_append]
    rfl
  have hwindow : ∀ agg : UsageAggregate,
      ((if (sinkKeys agg).periodRollup = rollupMonthKey c (monthUtc t) then field.ofWindow agg else 0) +
        if (sinkKeys agg).dayRollup = rollupMonthKey c (monthUtc t) then field.ofWindow agg else 0) =
      if TokenEvent.orNull agg.customerId = c ∧ monthUtc agg.windowEnd = monthUtc t then
        field.ofWindow agg
      else 0 := by
    intro agg
    have hperiod : (sinkKeys agg).periodRollup = rollupMonthKey c (monthUtc t) ↔
        TokenEvent.orNull agg.customerId = c ∧ monthUtc agg.windowEnd = monthUtc t :=
      rollupMonthKey_iff
    have hday : (sinkKeys agg).dayRollup ≠ rollupMonthKey c (monthUtc t) :=
      rollupDayKey_ne _ _ _ _
    rw [if_neg hday, add_zero]
    exact if_congr hperiod rfl rfl
  have hevent : ∀ e : TokenEvent, (P.keys e).modelRollup ≠ rollupMonthKey c (monthUtc t) := by
    intro e heq
    have hmodel : (P.keys e).modelRollup = rollupMonthKey (TokenEvent.orNull e.customerId ++
        ":model:" ++ P.catalog.normalizeModelId e.modelId) (monthUtc (Projection.accountingTime e)) :=
      modelPeriodKey_eq _ _ _
    rw [hmodel] at heq
    exact noColon_model _ _ ((rollupMonthKey_iff.mp heq).1 ▸ hc)
  have hevents : ((projectedEvents (ran P before s steps)).map fun e =>
      if (P.keys e).modelRollup = rollupMonthKey c (monthUtc t) then
        field.ofEvent (P.catalog.calculateEventCostMicro e (before e)) e
      else 0).sum = 0 := by
    apply List.sum_eq_zero
    intro q hq
    obtain ⟨e, -, rfl⟩ := List.mem_map.mp hq
    exact if_neg (hevent e)
  rw [read_runSinks, RollupField.read_untouched (hs _ (by rw [hhead]; simp)), zero_add, hevents,
    add_zero, funext hwindow]
  exact sum_map_ite _ _ _

theorem customerBucket_run (hs : Untouched s) (hfired : ∀ a ∈ steps, a.Fired) {c : String}
    (hc : NoColon c) (t : ℤ) :
    (readUsageBucket (runSinks P before s steps) (rollupMonthKey c (monthUtc t))).map
        UsageFields.costUsd = tally none (customerCharges P before s steps c (monthUtc t)) := by
  rw [readUsageBucket_cost, customerRollup_run hs hc, customerRollup_run hs hc,
    customerRollup_run hs hc, tally_eq]
  unfold customerCharges
  rw [Option.getD_none, zero_add]
  refine if_congr (Iff.trans ⟨?_, ?_⟩ List.map_eq_nil_iff.symm) rfl rfl
  · rintro ⟨hcount, -⟩
    by_contra hne
    refine (List.sum_pos _ ?_ (mt List.map_eq_nil_iff.mp hne)).ne' hcount
    intro q hq
    obtain ⟨agg, hagg, rfl⟩ := List.mem_map.mp hq
    have hran := mem_appliedWindows.mp (List.mem_filter.mp hagg).1
    have hpos : 0 < agg.eventCount := hfired _ (ran_subset s steps hran)
    exact Int.cast_pos.mpr hpos
  · intro hnil
    rw [hnil]
    exact ⟨rfl, rfl⟩

private theorem periodCustomersIndex_inj {p p' : String}
    (h : periodCustomersIndex p = periodCustomersIndex p') : p = p' := by
  unfold periodCustomersIndex at h
  exact (String.append_right_inj _).mp ((String.append_left_inj _).mp h)

/-- The index of a month has the customers that were charged in it. -/
theorem mem_index_run (hs : Untouched s) (c : String) (t : ℤ) :
    c ∈ (runSinks P before s steps).usage.sets (periodCustomersIndex (monthUtc t)) ↔
      customerCharges P before s steps c (monthUtc t) ≠ [] := by
  have hempty : s.usage.sets (periodCustomersIndex (monthUtc t)) = [] := by
    refine (hs _ ?_).sets
    have hhead : headOf "idx:period:" = some 'i' := rfl
    unfold periodCustomersIndex
    simp [hhead]
  rw [mem_sets_runSinks, hempty]
  unfold customerCharges
  rw [Ne, List.map_eq_nil_iff, List.filter_eq_nil_iff]
  push Not
  constructor
  · rintro (hc | ⟨a, ha, hw⟩)
    · exact absurd hc List.not_mem_nil
    · obtain ⟨agg, rfl, hindex, hc⟩ := SinkStep.sadd_mem_writes.mp hw
      have hmonth : monthUtc agg.windowEnd = monthUtc t := (periodCustomersIndex_inj hindex).symm
      exact ⟨agg, mem_appliedWindows.mpr ha, by simp [hc, hmonth]⟩
  · rintro ⟨agg, hagg, hwindow⟩
    obtain ⟨hc, hmonth⟩ := of_decide_eq_true hwindow
    refine Or.inr ⟨.window agg, mem_appliedWindows.mp hagg, SinkStep.sadd_mem_writes.mpr ?_⟩
    refine ⟨agg, rfl, ?_, hc.symm⟩
    rw [← hmonth]
    rfl

private theorem noColon_of_charges (hplain : ∀ a ∈ steps, a.Plain P) {c p : String}
    (h : customerCharges P before s steps c p ≠ []) : NoColon c := by
  obtain ⟨q, hq⟩ := List.exists_mem_of_ne_nil _ h
  obtain ⟨agg, hagg, -⟩ := List.mem_map.mp hq
  obtain ⟨hmem, hwindow⟩ := List.mem_filter.mp hagg
  have hran := mem_appliedWindows.mp hmem
  have hnoColon : NoColon (TokenEvent.orNull agg.customerId) := hplain _ (ran_subset s steps hran)
  exact (of_decide_eq_true hwindow).1 ▸ hnoColon

/-- The index and the scan find the same customers with what was written for them. -/
theorem customerCosts_run (hs : Untouched s) (hfired : ∀ a ∈ steps, a.Fired)
    (hplain : ∀ a ∈ steps, a.Plain P) (t : ℤ) {keys : List String}
    (hscan : Scans (runSinks P before s steps) (customerPattern (monthUtc t)) keys) (c : String) :
    (customerCostsByIndex (runSinks P before s steps) (monthUtc t)).get c =
        tally none (customerCharges P before s steps c (monthUtc t)) ∧
      (customerCostsByScan (runSinks P before s steps) keys).get c =
        tally none (customerCharges P before s steps c (monthUtc t)) := by
  by_cases hcharges : customerCharges P before s steps c (monthUtc t) = []
  · rw [hcharges, tally_nil]
    constructor
    · refine Option.eq_none_iff_forall_ne_some.mpr fun q hq => ?_
      exact (mem_index_run hs c t).mp ((customerCostsByIndex_get _ c q).mp hq).1 hcharges
    · refine Option.eq_none_iff_forall_ne_some.mpr fun q hq => ?_
      obtain ⟨hc, hbucket⟩ := (customerCostsByScan_get hscan c q).mp hq
      rw [customerBucket_run hs hfired hc, hcharges] at hbucket
      cases hbucket
  · have hc := noColon_of_charges hplain hcharges
    have hmem := (mem_index_run hs c t).mpr hcharges
    constructor
    · refine Option.ext fun q => ?_
      rw [customerCostsByIndex_get, and_iff_right hmem, customerBucket_run hs hfired hc]
    · refine Option.ext fun q => ?_
      rw [customerCostsByScan_get hscan, and_iff_right hc, customerBucket_run hs hfired hc]

/-! ### Models -/

private theorem shared_of_touched {a : SinkStep} {key : String} (hkey : key ∈ a.touched P before)
    (hhead : headOf key ∈ [some 'r', some 'i', some 'd']) :
    key ∈ (a.stamped before).sharedWrites P := by
  refine (List.mem_append.mp hkey).resolve_left fun htenant => ?_
  have h := headOf_tenantWrites htenant
  revert h hhead
  generalize headOf key = letter
  simp only [List.mem_cons, List.not_mem_nil, or_false]
  rintro (rfl | rfl | rfl) h <;> revert h <;> decide

/-- A key that is there after a run from an untouched store was written by it. -/
theorem written_of_has (hs : Untouched s) {key : String}
    (hhead : headOf key ∈ [some 'r', some 'i', some 'd'])
    (h : UsageStore.Has (runSinks P before s steps).usage key) :
    ∃ a ∈ ran P before s steps, key ∈ (a.stamped before).sharedWrites P := by
  have hbeat : key ≠ heartbeatKey := by
    rintro rfl
    revert hhead
    decide
  rcases has_runSinks hbeat h with hbefore | ⟨a, ha, hkey⟩
  · refine absurd ((has_congr (hs key hhead)).mp hbefore) ?_
    simp [UsageStore.Has]
  · exact ⟨a, ha, shared_of_touched hkey hhead⟩

theorem window_not_model (hplain : ∀ a ∈ steps, a.Plain P) {key m : String}
    (hkey : modelOfKey key = some m) {agg : UsageAggregate}
    (hagg : .window agg ∈ ran P before s steps) :
    (sinkKeys agg).periodRollup ≠ key ∧ (sinkKeys agg).dayRollup ≠ key := by
  have hc : NoColon (TokenEvent.orNull agg.customerId) := hplain _ (ran_subset s steps hagg)
  constructor
  · intro h
    have hnone : modelOfKey (sinkKeys agg).periodRollup = none :=
      modelOfKey_rollupMonthKey hc (colon_notMem_monthUtc _)
    rw [h, hkey] at hnone
    cases hnone
  · intro h
    have hnone : modelOfKey (sinkKeys agg).dayRollup = none :=
      modelOfKey_rollupDayKey hc (colon_notMem_dayUtc _)
    rw [h, hkey] at hnone
    cases hnone

/-- A rollup of a model holds what its events wrote. -/
theorem modelRollup_run (hplain : ∀ a ∈ steps, a.Plain P) {key m : String}
    (hkey : modelOfKey key = some m) (hs : SameAt key s.usage {}) (field : RollupField) :
    field.read (runSinks P before s steps).usage key =
      (((projectedEvents (ran P before s steps)).filter fun e => (P.keys e).modelRollup = key).map
        fun e => field.ofEvent (P.catalog.calculateEventCostMicro e (before e)) e).sum := by
  have hwindows : ((appliedWindows (ran P before s steps)).map fun agg =>
      (if (sinkKeys agg).periodRollup = key then field.ofWindow agg else 0) +
        if (sinkKeys agg).dayRollup = key then field.ofWindow agg else 0).sum = 0 := by
    apply List.sum_eq_zero
    intro q hq
    obtain ⟨agg, hagg, rfl⟩ := List.mem_map.mp hq
    obtain ⟨hmonth, hday⟩ := window_not_model hplain hkey (mem_appliedWindows.mp hagg)
    rw [if_neg hmonth, if_neg hday, add_zero]
  rw [read_runSinks, RollupField.read_untouched hs, hwindows, zero_add, zero_add]
  exact sum_map_ite _ _ _

theorem modelBucket_run (hplain : ∀ a ∈ steps, a.Plain P) {key m : String}
    (hkey : modelOfKey key = some m) (hs : SameAt key s.usage {}) :
    (readUsageBucket (runSinks P before s steps) key).map UsageFields.costUsd =
      tally none (((projectedEvents (ran P before s steps)).filter fun e =>
        (P.keys e).modelRollup = key).map (eventCost P before)) := by
  rw [readUsageBucket_cost, modelRollup_run hplain hkey hs, modelRollup_run hplain hkey hs,
    modelRollup_run hplain hkey hs, tally_eq, Option.getD_none, zero_add]
  refine if_congr (Iff.trans ⟨?_, ?_⟩ List.map_eq_nil_iff.symm) rfl rfl
  · rintro ⟨hcount, -⟩
    by_contra hne
    refine (List.sum_pos _ ?_ (mt List.map_eq_nil_iff.mp hne)).ne' hcount
    intro q hq
    obtain ⟨e, -, rfl⟩ := List.mem_map.mp hq
    exact one_pos
  · intro hnil
    rw [hnil]
    exact ⟨rfl, rfl⟩

theorem modelPattern_iff {scope : Option String} (hscope : ∀ c ∈ restriction scope, Literal c) (t : ℤ)
    (key : String) : globMatch (modelPattern scope (monthUtc t)) key = true ↔
      ∃ c m, (∀ c' ∈ restriction scope, c = c') ∧ key = modelPeriodKey c m (monthUtc t) := by
  unfold modelPattern modelPeriodKey
  cases hrestriction : restriction scope with
  | none =>
    dsimp only
    rw [globMatch_two_stars (by decide) (by decide) (literal_periodTail t)]
    simp [String.append_assoc]
  | some c =>
    dsimp only
    have hliteral : Literal ("rollup:" ++ c ++ ":model:") :=
      literal_append (literal_append (by decide) (hscope c (by rw [hrestriction]; rfl))) (by decide)
    rw [globMatch_star hliteral (literal_periodTail t)]
    simp [String.append_assoc]

theorem headOf_modelPeriodKey (c m p : String) :
    headOf (modelPeriodKey c m p) ∈ [some 'r', some 'i', some 'd'] := by
  have hhead : headOf "rollup:" = some 'r' := rfl
  unfold modelPeriodKey
  simp [hhead]

theorem event_of_modelKey (hplain : ∀ a ∈ steps, a.Plain P) {a : SinkStep}
    (ha : a ∈ ran P before s steps) {c m p m' : String}
    (hmodel : modelOfKey (modelPeriodKey c m p) = some m')
    (hkey : modelPeriodKey c m p ∈ (a.stamped before).sharedWrites P) :
    ∃ e clock, a = .event e clock ∧ (P.keys e).modelRollup = modelPeriodKey c m p := by
  have hhead : headOf (modelPeriodKey c m p) = some 'r' := by
    have hr : headOf "rollup:" = some 'r' := rfl
    unfold modelPeriodKey
    simp [hr]
  cases a with
  | window agg =>
    exfalso
    obtain ⟨hmonth, hday⟩ := window_not_model hplain hmodel ha
    simp only [SinkStep.stamped, UsageStep.sharedWrites, windowSharedWrites, List.mem_cons,
      List.not_mem_nil, or_false] at hkey
    rcases hkey with h | h | h
    · exact hmonth h.symm
    · exact hday h.symm
    · have hindex : headOf (sinkKeys agg).periodCustomers = some 'i' := by
        have hi : headOf "idx:period:" = some 'i' := rfl
        simp [sinkKeys, hi]
      rw [h, hindex] at hhead
      cases hhead
  | event e clock =>
    refine ⟨e, clock, rfl, ?_⟩
    have hapi : headOf "apikey:" = some 'a' := rfl
    have hdim : headOf "dim:" = some 'd' := rfl
    simp only [SinkStep.stamped, UsageStep.sharedWrites, projectionSharedWrites, Projection.keys,
      Projection.dims, List.mem_cons, List.mem_append, Option.mem_toList, Option.map_eq_some_iff,
      List.mem_flatMap] at hkey
    rcases hkey with h | (⟨id, -, h⟩ | ⟨id, -, h⟩) | ⟨base, ⟨entry, -, hbase⟩, h⟩
    · exact h.symm
    · rw [← h] at hhead
      simp [hapi] at hhead
    · rw [← h] at hhead
      simp [hapi] at hhead
    · simp only [List.not_mem_nil, or_false] at hbase
      simp only [dimWrites, List.mem_cons, List.not_mem_nil, or_false] at h
      rcases h with h | h <;> rw [h] at hhead <;> rcases hbase with rfl | rfl <;>
        simp [hdim] at hhead

private theorem event_of_scan {scope : Option String} (hscope : ∀ c ∈ restriction scope, NoColon c)
    {t : ℤ}
    {c m : String} (hc : ∀ c' ∈ restriction scope, c = c') {e : TokenEvent}
    (hplain : NoColon (TokenEvent.orNull e.customerId))
    (hkey : (P.keys e).modelRollup = modelPeriodKey c m (monthUtc t)) :
    (∀ c' ∈ restriction scope, TokenEvent.orNull e.customerId = c') ∧
      monthUtc (Projection.accountingTime e) = monthUtc t := by
  have hevent : modelPeriodKey (TokenEvent.orNull e.customerId)
      (P.catalog.normalizeModelId e.modelId) (monthUtc (Projection.accountingTime e)) =
      modelPeriodKey c m (monthUtc t) := hkey
  constructor
  · intro c' hc'
    obtain rfl := hc c' hc'
    have hsplit : ∀ c m p, modelPeriodKey c m p =
        "rollup:" ++ (c ++ ":" ++ ("model:" ++ m ++ ":period:" ++ p)) := by
      intro c m p
      unfold modelPeriodKey
      apply String.ext
      simp [String.toList_append]
    rw [hsplit, hsplit] at hevent
    exact (first_part hplain (hscope c hc') ((String.append_right_inj _).mp hevent)).1
  · rw [modelPeriodKey_eq, modelPeriodKey_eq] at hevent
    exact (rollupMonthKey_iff.mp hevent).2

theorem noColon_of_projected (hplain : ∀ a ∈ steps, a.Plain P) {e : TokenEvent}
    (he : e ∈ projectedEvents (ran P before s steps)) : NoColon (TokenEvent.orNull e.customerId) ∧
      modelOfKey (P.keys e).modelRollup = some (P.catalog.normalizeModelId e.modelId) := by
  obtain ⟨clock, hran⟩ := mem_projectedEvents.mp he
  obtain ⟨hc, hm, -⟩ := hplain _ (ran_subset s steps hran)
  exact ⟨hc, modelOfKey_rollup hc hm (colon_notMem_monthUtc _)⟩

section Scanned
variable {scope : Option String} {t : ℤ} {keys : List String} {m : String}

private theorem modelEvents_of_key (hplain : ∀ a ∈ steps, a.Plain P)
    (hscope : ∀ c ∈ restriction scope, Literal c ∧ NoColon c)
    (hscan : Scans (runSinks P before s steps) (modelPattern scope (monthUtc t)) keys) {key : String}
    (hkey : key ∈ keys) (hmodel : modelOfKey key = some m) :
    (projectedEvents (ran P before s steps)).filter (fun e => (P.keys e).modelRollup = key) =
      (modelEvents P before s steps (restriction scope) m (monthUtc t)).filter
        fun e => (P.keys e).modelRollup = key := by
  obtain ⟨c, x, hc, rfl⟩ := (modelPattern_iff (fun c hc => (hscope c hc).1) t key).mp
    ((hscan key).mp hkey).2
  unfold modelEvents
  rw [List.filter_filter]
  refine List.filter_congr fun e he => ?_
  rw [Bool.eq_iff_iff]
  simp only [decide_eq_true_eq, Bool.and_eq_true]
  refine ⟨fun h => ⟨h, ?_⟩, And.left⟩
  obtain ⟨hcolon, hname⟩ := noColon_of_projected hplain he
  obtain ⟨hcustomer, hmonth⟩ := event_of_scan (fun c hc => (hscope c hc).2) hc hcolon h
  rw [h, hmodel] at hname
  exact ⟨hcustomer, (Option.some.inj hname).symm, hmonth⟩

private theorem scanned_of_modelEvent (hs : Untouched s) (hplain : ∀ a ∈ steps, a.Plain P)
    (hscope : ∀ c ∈ restriction scope, Literal c ∧ NoColon c)
    (hscan : Scans (runSinks P before s steps) (modelPattern scope (monthUtc t)) keys)
    {e : TokenEvent} (he : e ∈ modelEvents P before s steps (restriction scope) m (monthUtc t)) :
    (P.keys e).modelRollup ∈ keys.filter fun key => modelOfKey key = some m := by
  obtain ⟨hmem, hdecide⟩ := List.mem_filter.mp he
  obtain ⟨hcustomer, hname, hmonth⟩ := of_decide_eq_true hdecide
  have hkey : (P.keys e).modelRollup = modelPeriodKey (TokenEvent.orNull e.customerId)
      (P.catalog.normalizeModelId e.modelId) (monthUtc t) := by
    rw [← hmonth]
    rfl
  have hmodel := (noColon_of_projected hplain hmem).2
  rw [hname] at hmodel
  refine List.mem_filter.mpr ⟨(hscan _).mpr ⟨?_, ?_⟩, decide_eq_true hmodel⟩
  · have hstart : SameAt (P.keys e).modelRollup s.usage {} :=
      hs _ (by rw [hkey]; exact headOf_modelPeriodKey _ _ _)
    refine has_of_bucket ((modelBucket_run hplain hmodel hstart).trans (tally_of_ne_nil none ?_))
    refine mt List.map_eq_nil_iff.mp (List.ne_nil_of_mem (a := e) ?_)
    exact List.mem_filter.mpr ⟨hmem, decide_eq_true rfl⟩
  · exact (modelPattern_iff (fun c hc => (hscope c hc).1) t _).mpr ⟨_, _, hcustomer, hkey⟩

theorem modelBucket_of_scanned (hs : Untouched s) (hplain : ∀ a ∈ steps, a.Plain P)
    (hscope : ∀ c ∈ restriction scope, Literal c ∧ NoColon c)
    (hscan : Scans (runSinks P before s steps) (modelPattern scope (monthUtc t)) keys) {key : String}
    (hkey : key ∈ keys) (hmodel : modelOfKey key = some m) :
    let es := (modelEvents P before s steps (restriction scope) m (monthUtc t)).filter
      fun e => (P.keys e).modelRollup = key
    es ≠ [] ∧ (readUsageBucket (runSinks P before s steps) key).map UsageFields.costUsd =
      some (es.map (eventCost P before)).sum := by
  intro es
  have hevents := modelEvents_of_key hplain hscope hscan hkey hmodel
  obtain ⟨hthere, hmatch⟩ := (hscan key).mp hkey
  obtain ⟨c, x, -, rfl⟩ := (modelPattern_iff (fun c hc => (hscope c hc).1) t key).mp hmatch
  obtain ⟨a, ha, hwrites⟩ := written_of_has hs (headOf_modelPeriodKey _ _ _) hthere
  obtain ⟨e, clock, rfl, he⟩ := event_of_modelKey hplain ha hmodel hwrites
  have hmem : e ∈ (projectedEvents (ran P before s steps)).filter fun e =>
      (P.keys e).modelRollup = modelPeriodKey c x (monthUtc t) :=
    List.mem_filter.mpr ⟨mem_projectedEvents.mpr ⟨clock, ha⟩, decide_eq_true he⟩
  rw [hevents] at hmem
  have hne : es ≠ [] := List.ne_nil_of_mem hmem
  refine ⟨hne, ?_⟩
  rw [modelBucket_run hplain hmodel (hs _ (headOf_modelPeriodKey _ _ _)), hevents,
    tally_of_ne_nil none (mt List.map_eq_nil_iff.mp hne), Option.getD_none, zero_add]

/-- The models of a month, of one customer or of all, with what was written for them. -/
theorem modelCosts_run (hs : Untouched s) (hplain : ∀ a ∈ steps, a.Plain P)
    (hscope : ∀ c ∈ restriction scope, Literal c ∧ NoColon c)
    (hscan : Scans (runSinks P before s steps) (modelPattern scope (monthUtc t)) keys)
    (hnodup : keys.Nodup) (m : String) :
    (listModelPeriodCosts (runSinks P before s steps) keys).get m =
      tally none ((modelEvents P before s steps (restriction scope) m (monthUtc t)).map
        (eventCost P before)) := by
  have hfound : ∀ e ∈ modelEvents P before s steps (restriction scope) m (monthUtc t),
      (P.keys e).modelRollup ∈ keys.filter fun key => modelOfKey key = some m := fun e he =>
    scanned_of_modelEvent hs hplain hscope hscan he
  unfold listModelPeriodCosts
  rw [Table.get_accumulate, Table.valuesAt_eq_map (q := fun key => modelOfKey key = some m)
    (h := fun key => (((modelEvents P before s steps (restriction scope) m (monthUtc t)).filter
      fun e => (P.keys e).modelRollup = key).map (eventCost P before)).sum)]
  · refine tally_congr none ?_ (sum_fibers (hnodup.filter _) hfound _)
    rw [List.map_eq_nil_iff, List.map_eq_nil_iff]
    constructor
    · intro hnone
      rw [hnone] at hfound
      exact List.eq_nil_iff_forall_not_mem.mpr fun e he => List.not_mem_nil (hfound e he)
    · intro hnone
      refine List.eq_nil_iff_forall_not_mem.mpr fun key hkey => ?_
      obtain ⟨hmem, hmodel⟩ := List.mem_filter.mp hkey
      have hne := (modelBucket_of_scanned hs hplain hscope hscan hmem (of_decide_eq_true hmodel)).1
      rw [hnone] at hne
      exact hne rfl
  · intro key hkey hmodel
    rw [hmodel, Option.bind_some]
    exact entry_eq_some.mpr
      ⟨rfl, (modelBucket_of_scanned hs hplain hscope hscan hkey hmodel).2⟩
  · intro key hkey hmodel v hv
    obtain ⟨name, hname, hentry⟩ := Option.bind_eq_some_iff.mp hv
    obtain ⟨rfl, -⟩ := entry_eq_some.mp hentry
    exact hmodel hname

end Scanned

end Run

end FluxMeter.Usage
