import FluxMeter.Usage.DimensionTotals

/-! The readers of daily costs of `intelligence/native_reader.py`, and what they return for a month
after a run of the sinks. -/
namespace FluxMeter.Usage
open FluxMeter.Budget FluxMeter.Keys FluxMeter.Model Collections Collections.Glob

namespace PeriodReader

/-- The pattern of `list_customer_daily_costs`. -/
def customerDailyPattern (customerId datePrefix : String) : String :=
  ("rollup:" ++ customerId ++ ":d:" ++ datePrefix) ++ "*" ++ ""

/-- The pattern of `list_global_daily_costs`. -/
def globalDailyPattern (datePrefix : String) : String :=
  "rollup:" ++ "*" ++ (":d:" ++ datePrefix) ++ "*" ++ ""

def dateOfKey (key : String) : Option String :=
  match colonParts key with
  | ["rollup", _, "d", date] => some date
  | _ => none

/-- What a key of a scan contributes. -/
def dailyCost (s : Keyspace) (key : String) : Option (String × ℚ) :=
  (dateOfKey key).bind fun date => (readUsageBucket s key).map fun data => (date, data.costUsd)

/-- `list_customer_daily_costs`; `keys` is what the scan returns. -/
def listCustomerDailyCosts (s : Keyspace) (keys : List String) : Table String ℚ :=
  .gather (dailyCost s) keys

/-- `list_global_daily_costs`, which adds up over the customers. -/
def listGlobalDailyCosts (s : Keyspace) (keys : List String) : Table String ℚ :=
  .accumulate (dailyCost s) keys

/-- `sum(costs.values())`. -/
def total (costs : Table String ℚ) : ℚ := costs.weight fun _ cost => cost

/-- `list_global_period_costs`; `scan` answers each scan. -/
def listGlobalPeriodCosts (s : Keyspace) (scan : String → List String) (periods : List String) :
    List (String × ℚ) :=
  periods.map fun period =>
    (period, total (listCustomerPeriodCosts s period (scan (customerPattern period))))

end PeriodReader

open PeriodReader

/-! ### Keys of days -/

theorem dateOfKey_eq_some {key d : String} (h : dateOfKey key = some d) :
    ∃ c, NoColon c ∧ NoColon d ∧ key = rollupDayKey c d := by
  unfold dateOfKey at h
  split at h
  · rename_i c date hparts
    obtain rfl := Option.some.inj h
    have hmem : ∀ part ∈ [c, date], NoColon part := by
      intro part hpart
      apply @noColon_of_mem_colonParts key
      rw [hparts]
      simp only [List.mem_cons, List.not_mem_nil, or_false] at hpart ⊢
      tauto
    refine ⟨c, hmem c (by simp), hmem date (by simp), String.ext ?_⟩
    rw [toList_colonParts, hparts]
    simp [rollupDayKey, String.toList_append, List.intercalate]
  · cases h

theorem dateOfKey_rollup {c d : String} (hc : NoColon c) (hd : NoColon d) :
    dateOfKey (rollupDayKey c d) = some d := by
  unfold dateOfKey
  rw [colonParts_rollupDayKey hc hd]
  rfl

theorem dateOfKey_rollupMonthKey {c p : String} (hc : NoColon c) (hp : NoColon p) :
    dateOfKey (rollupMonthKey c p) = none := by
  unfold dateOfKey
  rw [colonParts_rollupMonthKey hc hp]
  rfl

theorem dateOfKey_modelPeriodKey {c m p : String} (hc : NoColon c) (hm : NoColon m)
    (hp : NoColon p) : dateOfKey (modelPeriodKey c m p) = none := by
  have hkey : modelPeriodKey c m p =
      "rollup" ++ ":" ++ (c ++ ":" ++ ("model" ++ ":" ++ (m ++ ":" ++ ("period" ++ ":" ++ p)))) := by
    unfold modelPeriodKey
    apply String.ext
    simp [String.toList_append]
  unfold dateOfKey
  rw [hkey, colonParts_append (by decide), colonParts_append hc, colonParts_append (by decide),
    colonParts_append hm, colonParts_append (by decide), colonParts_last hp]
  rfl

theorem rollupDayKey_inj {c c' d d' : String} (hd : NoColon d) (hd' : NoColon d')
    (h : rollupDayKey c d = rollupDayKey c' d') : c = c' ∧ d = d' := by
  rw [rollupDayKey_eq, rollupDayKey_eq] at h
  obtain ⟨hfront, hday⟩ := last_part hd hd' h
  have hname : "rollup:" ++ c = "rollup:" ++ c' := (String.append_left_inj ":d").mp hfront
  exact ⟨(String.append_right_inj "rollup:").mp hname, hday⟩

theorem headOf_rollupDayKey (c d : String) :
    headOf (rollupDayKey c d) ∈ [some 'r', some 'i', some 'd'] := by
  have hhead : headOf "rollup:" = some 'r' := rfl
  unfold rollupDayKey
  simp [hhead]

/-- The keys of days without colons that a pattern of days asks for. -/
theorem customerDailyPattern_iff {c' : String} (hc' : Literal c' ∧ NoColon c') (t : ℤ)
    {c d : String} (hc : NoColon c) :
    globMatch (customerDailyPattern c' (monthUtc t)) (rollupDayKey c d) = true ↔
      c = c' ∧ (monthUtc t).toList <+: d.toList := by
  have hliteral : Literal ("rollup:" ++ c' ++ ":d:" ++ monthUtc t) :=
    literal_append (literal_append (literal_append (by decide) hc'.1) (by decide))
      (literal_monthUtc t)
  unfold customerDailyPattern
  rw [globMatch_star hliteral (by decide)]
  constructor
  · rintro ⟨x, hx⟩
    have hparts : c ++ ":" ++ ("d:" ++ d) = c' ++ ":" ++ ("d:" ++ (monthUtc t ++ x)) := by
      apply (String.append_right_inj "rollup:").mp
      apply String.ext
      have hchars := congrArg String.toList hx
      unfold rollupDayKey at hchars
      simpa [String.toList_append] using hchars
    obtain ⟨rfl, hdays⟩ := first_part hc hc'.2 hparts
    have hday : d = monthUtc t ++ x := (String.append_right_inj "d:").mp hdays
    refine ⟨rfl, x.toList, ?_⟩
    rw [hday, String.toList_append]
  · rintro ⟨rfl, rest, hrest⟩
    refine ⟨String.ofList rest, String.ext ?_⟩
    unfold rollupDayKey
    simp [String.toList_append, ← hrest]

theorem globalDailyPattern_iff (t : ℤ) {c d : String} (hc : NoColon c) (hd : NoColon d) :
    globMatch (globalDailyPattern (monthUtc t)) (rollupDayKey c d) = true ↔
      (monthUtc t).toList <+: d.toList := by
  have hliteral : Literal (":d:" ++ monthUtc t) := literal_append (by decide) (literal_monthUtc t)
  unfold globalDailyPattern
  rw [globMatch_two_stars (by decide) hliteral (by decide)]
  constructor
  · rintro ⟨x, y, hxy⟩
    have hparts : c ++ ":" ++ ("d:" ++ d) = x ++ ":" ++ ("d:" ++ (monthUtc t ++ y)) := by
      apply (String.append_right_inj "rollup:").mp
      apply String.ext
      have hchars := congrArg String.toList hxy
      unfold rollupDayKey at hchars
      simpa [String.toList_append] using hchars
    -- the key has no colons besides those of the pattern
    have hx : NoColon x := by
      have hcount := congrArg (fun key : String => key.toList.count ':') hparts
      have hword : "d:".toList.count ':' = 1 := rfl
      have hcolon : ":".toList.count ':' = 1 := rfl
      simp only [String.toList_append, List.count_append, hword, hcolon,
        List.count_eq_zero.mpr hc, List.count_eq_zero.mpr hd] at hcount
      exact List.count_eq_zero.mp (by omega)
    obtain ⟨-, hdays⟩ := first_part hc hx hparts
    have hday : d = monthUtc t ++ y := (String.append_right_inj "d:").mp hdays
    refine ⟨y.toList, ?_⟩
    rw [hday, String.toList_append]
  · rintro ⟨rest, hrest⟩
    refine ⟨c, String.ofList rest, String.ext ?_⟩
    unfold rollupDayKey
    simp [String.toList_append, ← hrest]

section Run
variable {P : Projection} {before : TokenEvent → ℤ} {s : Keyspace} {steps : List SinkStep}

def monthWindows (P : Projection) (before : TokenEvent → ℤ) (s : Keyspace) (steps : List SinkStep)
    (p : String) : List UsageAggregate :=
  (appliedWindows (ran P before s steps)).filter fun agg => monthUtc agg.windowEnd = p

/-- A day of a customer holds what its windows wrote. -/
theorem dayRollup_run (hs : Untouched s) (hplain : ∀ a ∈ steps, a.Plain P) {c d : String}
    (hc : NoColon c) (hd : NoColon d) (field : RollupField) :
    field.read (runSinks P before s steps).usage (rollupDayKey c d) =
      (((appliedWindows (ran P before s steps)).filter fun agg =>
        TokenEvent.orNull agg.customerId = c ∧ dayUtc agg.windowEnd = d).map field.ofWindow).sum := by
  have hdate := dateOfKey_rollup hc hd
  have hwindow : ∀ agg ∈ appliedWindows (ran P before s steps),
      ((if (sinkKeys agg).periodRollup = rollupDayKey c d then field.ofWindow agg else 0) +
        if (sinkKeys agg).dayRollup = rollupDayKey c d then field.ofWindow agg else 0) =
      if TokenEvent.orNull agg.customerId = c ∧ dayUtc agg.windowEnd = d then field.ofWindow agg
      else 0 := by
    intro agg hagg
    have hcolon : NoColon (TokenEvent.orNull agg.customerId) :=
      hplain _ (ran_subset s steps (mem_appliedWindows.mp hagg))
    have hmonth : (sinkKeys agg).periodRollup ≠ rollupDayKey c d := by
      intro h
      have hnone : dateOfKey (sinkKeys agg).periodRollup = none :=
        dateOfKey_rollupMonthKey hcolon (colon_notMem_monthUtc _)
      rw [h, hdate] at hnone
      cases hnone
    have hday : (sinkKeys agg).dayRollup = rollupDayKey c d ↔
        TokenEvent.orNull agg.customerId = c ∧ dayUtc agg.windowEnd = d := by
      constructor
      · exact fun h => rollupDayKey_inj (colon_notMem_dayUtc _) hd h
      · rintro ⟨rfl, rfl⟩
        rfl
    rw [if_neg hmonth, zero_add]
    exact if_congr hday rfl rfl
  have hevents : ((projectedEvents (ran P before s steps)).map fun e =>
      if (P.keys e).modelRollup = rollupDayKey c d then
        field.ofEvent (P.catalog.calculateEventCostMicro e (before e)) e
      else 0).sum = 0 := by
    apply List.sum_eq_zero
    intro q hq
    obtain ⟨e, he, rfl⟩ := List.mem_map.mp hq
    obtain ⟨clock, hran⟩ := mem_projectedEvents.mp he
    obtain ⟨hcustomer, hmodel, -⟩ := hplain _ (ran_subset s steps hran)
    refine if_neg fun h => ?_
    have hnone : dateOfKey (P.keys e).modelRollup = none :=
      dateOfKey_modelPeriodKey hcustomer hmodel (colon_notMem_monthUtc _)
    rw [h, hdate] at hnone
    cases hnone
  rw [read_runSinks, RollupField.read_untouched (hs _ (headOf_rollupDayKey c d)), zero_add, hevents,
    add_zero, List.map_congr_left hwindow]
  exact sum_map_ite _ _ _

def dayWindows (P : Projection) (before : TokenEvent → ℤ) (s : Keyspace) (steps : List SinkStep)
    (c d : String) : List UsageAggregate :=
  (appliedWindows (ran P before s steps)).filter fun agg =>
    TokenEvent.orNull agg.customerId = c ∧ dayUtc agg.windowEnd = d

theorem dayBucket_run (hs : Untouched s) (hfired : ∀ a ∈ steps, a.Fired)
    (hplain : ∀ a ∈ steps, a.Plain P) {c d : String} (hc : NoColon c) (hd : NoColon d) :
    (readUsageBucket (runSinks P before s steps) (rollupDayKey c d)).map UsageFields.costUsd =
      tally none ((dayWindows P before s steps c d).map UsageAggregate.getCostUsd) := by
  rw [readUsageBucket_cost, dayRollup_run hs hplain hc hd, dayRollup_run hs hplain hc hd,
    dayRollup_run hs hplain hc hd, tally_eq, Option.getD_none, zero_add]
  refine if_congr (Iff.trans ⟨?_, ?_⟩ List.map_eq_nil_iff.symm) rfl rfl
  · rintro ⟨hcount, -⟩
    by_contra hne
    refine (List.sum_pos _ ?_ (mt List.map_eq_nil_iff.mp hne)).ne' hcount
    intro q hq
    obtain ⟨agg, hagg, rfl⟩ := List.mem_map.mp hq
    have hran := mem_appliedWindows.mp (List.mem_filter.mp hagg).1
    have hpos : 0 < agg.eventCount := hfired _ (ran_subset s steps hran)
    exact Int.cast_pos.mpr hpos
  · intro hnil
    have hnone : (appliedWindows (ran P before s steps)).filter (fun agg =>
        TokenEvent.orNull agg.customerId = c ∧ dayUtc agg.windowEnd = d) = [] := hnil
    rw [hnone]
    exact ⟨rfl, rfl⟩

def customerWindows (P : Projection) (before : TokenEvent → ℤ) (s : Keyspace)
    (steps : List SinkStep) (c p : String) : List UsageAggregate :=
  (monthWindows P before s steps p).filter fun agg => TokenEvent.orNull agg.customerId = c

theorem customerCharges_eq (c p : String) : customerCharges P before s steps c p =
    (customerWindows P before s steps c p).map UsageAggregate.getCostUsd := by
  unfold customerCharges customerWindows monthWindows
  rw [List.filter_filter]
  simp only [Bool.decide_and]

/-- On a day of the month the windows of the day are windows of the month. -/
theorem dayWindows_eq {t : ℤ} {c d : String} (hstarts : (monthUtc t).toList <+: d.toList) :
    dayWindows P before s steps c d = (customerWindows P before s steps c (monthUtc t)).filter
      fun agg => dayUtc agg.windowEnd = d := by
  unfold dayWindows customerWindows monthWindows
  rw [List.filter_filter, List.filter_filter]
  refine List.filter_congr fun agg _ => ?_
  rw [Bool.eq_iff_iff]
  simp only [decide_eq_true_eq, Bool.and_eq_true]
  constructor
  · rintro ⟨hc, rfl⟩
    exact ⟨⟨rfl, hc⟩, monthUtc_prefix_dayUtc.mp hstarts⟩
  · exact fun h => ⟨h.1.2, h.1.1⟩

theorem day_of_monthWindow {t : ℤ} {agg : UsageAggregate}
    (h : agg ∈ monthWindows P before s steps (monthUtc t)) :
    NoColon (dayUtc agg.windowEnd) ∧ (monthUtc t).toList <+: (dayUtc agg.windowEnd).toList :=
  ⟨colon_notMem_dayUtc _, monthUtc_prefix_dayUtc.mpr (of_decide_eq_true (List.mem_filter.mp h).2)⟩

theorem dailyCost_eq_some {s : Keyspace} {key d : String} {q : ℚ} :
    dailyCost s key = some (d, q) ↔
      dateOfKey key = some d ∧ (readUsageBucket s key).map UsageFields.costUsd = some q := by
  unfold dailyCost
  rw [Option.bind_eq_some_iff]
  constructor
  · rintro ⟨date, hdate, hentry⟩
    obtain ⟨rfl, hcost⟩ := entry_eq_some.mp hentry
    exact ⟨hdate, hcost⟩
  · rintro ⟨hdate, hcost⟩
    exact ⟨d, hdate, entry_eq_some.mpr ⟨rfl, hcost⟩⟩

theorem customerDaily_run (hs : Untouched s) (hfired : ∀ a ∈ steps, a.Fired)
    (hplain : ∀ a ∈ steps, a.Plain P) {c : String} (hc : Literal c ∧ NoColon c) (t : ℤ)
    {keys : List String}
    (hscan : Scans (runSinks P before s steps) (customerDailyPattern c (monthUtc t)) keys)
    (d : String) :
    (listCustomerDailyCosts (runSinks P before s steps) keys).get d =
      tally none (((customerWindows P before s steps c (monthUtc t)).filter fun agg =>
        dayUtc agg.windowEnd = d).map UsageAggregate.getCostUsd) := by
  have hkey : ∀ key ∈ keys, ∀ d, dateOfKey key = some d →
      NoColon d ∧ (monthUtc t).toList <+: d.toList ∧ key = rollupDayKey c d := by
    intro key hmem d hdate
    obtain ⟨c', hc', hd, rfl⟩ := dateOfKey_eq_some hdate
    obtain ⟨rfl, hstarts⟩ := (customerDailyPattern_iff hc t hc').mp ((hscan _).mp hmem).2
    exact ⟨hd, hstarts, rfl⟩
  refine Option.ext fun q => ?_
  unfold listCustomerDailyCosts
  rw [Table.get_gather]
  · constructor
    · rintro ⟨key, hmem, hentry⟩
      obtain ⟨hdate, hcost⟩ := dailyCost_eq_some.mp hentry
      obtain ⟨hd, hstarts, rfl⟩ := hkey key hmem d hdate
      rw [← dayWindows_eq hstarts, ← dayBucket_run hs hfired hplain hc.2 hd]
      exact hcost
    · intro hcost
      have hne : (customerWindows P before s steps c (monthUtc t)).filter (fun agg =>
          dayUtc agg.windowEnd = d) ≠ [] := by
        intro hnil
        rw [hnil, List.map_nil, tally_nil] at hcost
        cases hcost
      obtain ⟨agg, hagg⟩ := List.exists_mem_of_ne_nil _ hne
      obtain ⟨hwindow, hday⟩ := List.mem_filter.mp hagg
      obtain rfl := of_decide_eq_true hday
      obtain ⟨hd, hstarts⟩ := day_of_monthWindow (List.mem_filter.mp hwindow).1
      rw [← dayWindows_eq hstarts, ← dayBucket_run hs hfired hplain hc.2 hd] at hcost
      have hmem := (hscan _).mpr ⟨has_of_bucket hcost,
        (customerDailyPattern_iff hc t hc.2).mpr ⟨rfl, hstarts⟩⟩
      exact ⟨_, hmem, dailyCost_eq_some.mpr ⟨dateOfKey_rollup hc.2 hd, hcost⟩⟩
  · intro a ha b hb k v w hav hbw
    obtain ⟨hdate, hcost⟩ := dailyCost_eq_some.mp hav
    obtain ⟨hdate', hcost'⟩ := dailyCost_eq_some.mp hbw
    obtain ⟨-, -, rfl⟩ := hkey a ha k hdate
    obtain ⟨-, -, rfl⟩ := hkey b hb k hdate'
    exact Option.some.inj (hcost.symm.trans hcost')

def windowsOn (P : Projection) (before : TokenEvent → ℤ) (s : Keyspace) (steps : List SinkStep)
    (p d : String) : List UsageAggregate :=
  (monthWindows P before s steps p).filter fun agg => dayUtc agg.windowEnd = d

private theorem dayWindows_eq_windowsOn {t : ℤ} {c d : String} (hd : NoColon d)
    (hstarts : (monthUtc t).toList <+: d.toList) : dayWindows P before s steps c d =
      (windowsOn P before s steps (monthUtc t) d).filter
        fun agg => (sinkKeys agg).dayRollup = rollupDayKey c d := by
  have hkey : ∀ agg : UsageAggregate, (sinkKeys agg).dayRollup =
      rollupDayKey (TokenEvent.orNull agg.customerId) (dayUtc agg.windowEnd) := fun _ => rfl
  unfold dayWindows windowsOn monthWindows
  rw [List.filter_filter, List.filter_filter]
  refine List.filter_congr fun agg _ => ?_
  rw [Bool.eq_iff_iff]
  simp only [decide_eq_true_eq, Bool.and_eq_true, hkey]
  constructor
  · rintro ⟨rfl, rfl⟩
    exact ⟨⟨rfl, rfl⟩, monthUtc_prefix_dayUtc.mp hstarts⟩
  · rintro ⟨⟨hkey, hday⟩, -⟩
    exact ⟨(rollupDayKey_inj (colon_notMem_dayUtc _) hd hkey).1, hday⟩

/-- A key with a bucket of the day. -/
def RecordsDay (s : Keyspace) (d key : String) : Prop :=
  dateOfKey key = some d ∧ (readUsageBucket s key).map UsageFields.costUsd ≠ none

instance (s : Keyspace) (d : String) : DecidablePred (RecordsDay s d) :=
  fun _ => inferInstanceAs (Decidable (_ ∧ _))

section Scanned
variable {t : ℤ} {keys : List String} {d : String}

theorem dayBucket_of_scanned (hs : Untouched s) (hfired : ∀ a ∈ steps, a.Fired)
    (hplain : ∀ a ∈ steps, a.Plain P)
    (hscan : Scans (runSinks P before s steps) (globalDailyPattern (monthUtc t)) keys) {key : String}
    (hkey : key ∈ keys) (hdate : dateOfKey key = some d) :
    (readUsageBucket (runSinks P before s steps) key).map UsageFields.costUsd =
      tally none (((windowsOn P before s steps (monthUtc t) d).filter fun agg =>
        (sinkKeys agg).dayRollup = key).map UsageAggregate.getCostUsd) := by
  obtain ⟨c, hc, hd, rfl⟩ := dateOfKey_eq_some hdate
  have hstarts := (globalDailyPattern_iff t hc hd).mp ((hscan _).mp hkey).2
  rw [dayBucket_run hs hfired hplain hc hd, dayWindows_eq_windowsOn hd hstarts]

private theorem scanned_of_window (hs : Untouched s) (hfired : ∀ a ∈ steps, a.Fired)
    (hplain : ∀ a ∈ steps, a.Plain P)
    (hscan : Scans (runSinks P before s steps) (globalDailyPattern (monthUtc t)) keys)
    {agg : UsageAggregate} (hagg : agg ∈ windowsOn P before s steps (monthUtc t) d) :
    (sinkKeys agg).dayRollup ∈
      keys.filter fun key => RecordsDay (runSinks P before s steps) d key := by
  obtain ⟨hwindow, hday⟩ := List.mem_filter.mp hagg
  obtain rfl := of_decide_eq_true hday
  have hc : NoColon (TokenEvent.orNull agg.customerId) :=
    hplain _ (ran_subset s steps (mem_appliedWindows.mp (List.mem_filter.mp hwindow).1))
  obtain ⟨hd, hstarts⟩ := day_of_monthWindow hwindow
  have hkey : (sinkKeys agg).dayRollup =
      rollupDayKey (TokenEvent.orNull agg.customerId) (dayUtc agg.windowEnd) := rfl
  have hne : dayWindows P before s steps (TokenEvent.orNull agg.customerId)
      (dayUtc agg.windowEnd) ≠ [] :=
    List.ne_nil_of_mem (a := agg)
      (List.mem_filter.mpr ⟨(List.mem_filter.mp hwindow).1, decide_eq_true ⟨rfl, rfl⟩⟩)
  have hcost := @dayBucket_run P before s steps hs hfired hplain _ _ hc hd
  rw [tally_of_ne_nil none (mt List.map_eq_nil_iff.mp hne)] at hcost
  have hmem := (hscan _).mpr ⟨has_of_bucket hcost, (globalDailyPattern_iff t hc hd).mpr hstarts⟩
  rw [hkey]
  refine List.mem_filter.mpr ⟨hmem, decide_eq_true ⟨dateOfKey_rollup hc hd, ?_⟩⟩
  rw [hcost]
  exact Option.some_ne_none _

private theorem globalDaily_run (hs : Untouched s) (hfired : ∀ a ∈ steps, a.Fired)
    (hplain : ∀ a ∈ steps, a.Plain P)
    (hscan : Scans (runSinks P before s steps) (globalDailyPattern (monthUtc t)) keys)
    (hnodup : keys.Nodup) (d : String) :
    (listGlobalDailyCosts (runSinks P before s steps) keys).get d =
      tally none ((windowsOn P before s steps (monthUtc t) d).map UsageAggregate.getCostUsd) := by
  have hfound : ∀ agg ∈ windowsOn P before s steps (monthUtc t) d, (sinkKeys agg).dayRollup ∈
      keys.filter fun key => RecordsDay (runSinks P before s steps) d key :=
    fun agg hagg => scanned_of_window hs hfired hplain hscan hagg
  have hsum := sum_fibers (hnodup.filter _) hfound UsageAggregate.getCostUsd
  unfold listGlobalDailyCosts
  rw [Table.get_accumulate, Table.valuesAt_eq_map (q := RecordsDay (runSinks P before s steps) d)
    (h := fun key => (((windowsOn P before s steps (monthUtc t) d).filter fun agg =>
      (sinkKeys agg).dayRollup = key).map UsageAggregate.getCostUsd).sum)]
  · refine tally_congr none ?_ hsum
    rw [List.map_eq_nil_iff, List.map_eq_nil_iff]
    constructor
    · intro hnone
      rw [hnone] at hfound
      exact List.eq_nil_iff_forall_not_mem.mpr fun agg hagg => List.not_mem_nil (hfound agg hagg)
    · intro hnone
      refine List.eq_nil_iff_forall_not_mem.mpr fun key hkey => ?_
      obtain ⟨hmem, hdecide⟩ := List.mem_filter.mp hkey
      obtain ⟨hdate, hthere⟩ := of_decide_eq_true hdecide
      rw [dayBucket_of_scanned hs hfired hplain hscan hmem hdate, hnone] at hthere
      exact hthere rfl
  · rintro key hmem ⟨hdate, hthere⟩
    refine dailyCost_eq_some.mpr ⟨hdate, ?_⟩
    rw [dayBucket_of_scanned hs hfired hplain hscan hmem hdate] at hthere ⊢
    rw [tally_of_ne_nil none (mt tally_none_eq_none.mpr hthere), Option.getD_none, zero_add]
  · intro key hmem hnot v hv
    obtain ⟨hdate, hcost⟩ := dailyCost_eq_some.mp hv
    refine hnot ⟨hdate, ?_⟩
    rw [hcost]
    exact Option.some_ne_none _

end Scanned

/-! ### What a month cost -/

section Totals
variable {t : ℤ}

/-- The days of a month add up to its windows. -/
theorem total_days (hs : Untouched s) (hfired : ∀ a ∈ steps, a.Fired)
    (hplain : ∀ a ∈ steps, a.Plain P) {keys : List String}
    (hscan : Scans (runSinks P before s steps) (globalDailyPattern (monthUtc t)) keys)
    (hnodup : keys.Nodup) :
    total (listGlobalDailyCosts (runSinks P before s steps) keys) =
      ((monthWindows P before s steps (monthUtc t)).map UsageAggregate.getCostUsd).sum :=
  Table.weight_of_fibers (l := monthWindows P before s steps (monthUtc t))
    (g := fun agg => dayUtc agg.windowEnd) fun d => globalDaily_run hs hfired hplain hscan hnodup d

/-- The days of a customer in a month add up to what was written for the customer. -/
theorem total_customerDays (hs : Untouched s) (hfired : ∀ a ∈ steps, a.Fired)
    (hplain : ∀ a ∈ steps, a.Plain P) {c : String} (hc : Literal c ∧ NoColon c) {keys : List String}
    (hscan : Scans (runSinks P before s steps) (customerDailyPattern c (monthUtc t)) keys) :
    total (listCustomerDailyCosts (runSinks P before s steps) keys) =
      (customerCharges P before s steps c (monthUtc t)).sum := by
  rw [customerCharges_eq]
  exact Table.weight_of_fibers (l := customerWindows P before s steps c (monthUtc t))
    (g := fun agg => dayUtc agg.windowEnd) fun d => customerDaily_run hs hfired hplain hc t hscan d

end Totals

end Run

end FluxMeter.Usage
