import FluxMeter.Usage.PeriodTotals

/-! The monthly costs of the values of a dimension after a run of the sinks, and with them what all
the readers of monthly costs return. -/
namespace FluxMeter.Usage
open FluxMeter.Budget FluxMeter.Keys FluxMeter.Model Collections Collections.Glob PeriodReader

section Run
variable {P : Projection} {before : TokenEvent → ℤ} {s : Keyspace} {steps : List SinkStep}

/-- The key of the cost of a value of a dimension in a month. -/
def dimCostKey (k v : String) (t : ℤ) : String := dimBase k v (some (monthUtc t)) ++ ":cost_usd"

theorem dimPattern_iff {k : String} (hk : Literal k) (t : ℤ) (key : String) :
    globMatch (dimPattern k (monthUtc t)) key = true ↔ ∃ x, key = dimCostKey k x t := by
  have htail : Literal (":period:" ++ monthUtc t ++ ":cost_usd") :=
    literal_append (literal_periodTail t) (by decide)
  unfold dimPattern dimCostKey dimBase
  rw [globMatch_star (literal_append (literal_append (by decide) hk) (by decide)) htail]
  simp [String.append_assoc]

theorem dimBase_eq (k x : String) (p : Option String) :
    dimBase k x p = "dim:" ++ (k ++ ":" ++ (x ++ (p.map fun p => ":period:" ++ p).getD "")) := by
  unfold dimBase
  cases p <;> simp [String.append_assoc]

/-- Without a colon in the names of the dimensions, the keys of a month tell the values apart. -/
theorem dimCostKey_iff {k k' x x' : String} {t t' : ℤ} (hk : NoColon k) (hk' : NoColon k') :
    dimCostKey k x t = dimCostKey k' x' t' ↔ (k = k' ∧ x = x') ∧ monthUtc t = monthUtc t' := by
  constructor
  · intro h
    have hbase := (String.append_left_inj _).mp h
    rw [dimBase_eq, dimBase_eq] at hbase
    obtain ⟨hname, hrest⟩ := first_part hk hk' ((String.append_right_inj _).mp hbase)
    have hsplit : ∀ x t, x ++ ((some (monthUtc t)).map fun p => ":period:" ++ p).getD "" =
        x ++ ":period" ++ ":" ++ monthUtc t := by
      intro x t
      apply String.ext
      simp [String.toList_append]
    rw [hsplit, hsplit] at hrest
    obtain ⟨hvalue, hmonth⟩ := last_part (colon_notMem_monthUtc t) (colon_notMem_monthUtc t') hrest
    exact ⟨⟨hname, (String.append_left_inj _).mp hvalue⟩, hmonth⟩
  · rintro ⟨⟨rfl, rfl⟩, hmonth⟩
    unfold dimCostKey
    rw [hmonth]

/-- The key of all months of a value without a colon is none of a month. -/
theorem dimBase_none_ne {k k' x x' : String} (hk : NoColon k) (hk' : NoColon k') (hx' : NoColon x')
    (t : ℤ) : dimBase k' x' none ++ ":cost_usd" ≠ dimCostKey k x t := by
  intro h
  have hbase := (String.append_left_inj _).mp h
  rw [dimBase_eq, dimBase_eq] at hbase
  obtain ⟨-, hrest⟩ := first_part hk' hk ((String.append_right_inj _).mp hbase)
  apply hx'
  rw [Option.map_none, Option.getD_none, String.append_empty] at hrest
  rw [hrest]
  simp [String.toList_append]

theorem headOf_dimCostKey (k v : String) (t : ℤ) : headOf (dimCostKey k v t) = some 'd' := by
  have hhead : headOf "dim:" = some 'd' := rfl
  unfold dimCostKey dimBase
  simp [hhead]

theorem dims_eq (e : TokenEvent) : P.dims e = (P.countedDims e).flatMap fun entry =>
    [dimBase entry.1 entry.2 none,
      dimBase entry.1 entry.2 (some (monthUtc (Projection.accountingTime e)))] := rfl

theorem window_not_dim {agg : UsageAggregate} {key : String} (hhead : headOf key = some 'd')
    (hkey : key ∈ (SinkStep.window agg).touched P before) : False := by
  have hletters := headOf_window hkey
  rw [hhead] at hletters
  revert hletters
  decide

private theorem dimCost_event {e : TokenEvent} {clock : String}
    (hplain : (SinkStep.event e clock).Plain P)
    {k : String} (hk : NoColon k) (v : String) (t : ℤ) :
    ((SinkStep.event e clock).writes P before).filterMap (Write.floatAt (dimCostKey k v t)) =
      ((P.countedDims e).filter fun entry => entry = (k, v) ∧
        monthUtc (Projection.accountingTime e) = monthUtc t).map fun _ => eventCost P before e := by
  have hhead := headOf_dimCostKey k v t
  have hsession := @floatAt_session P before (dimCostKey k v t) e clock (by rw [hhead]; decide)
  have hmodel : (modelRollupWrites (P.args e (before e) clock) (P.keys e).modelRollup).filterMap
      (Write.floatAt (dimCostKey k v t)) = [] := rfl
  have hapiKeys : (((P.keys e).apiKeyDay.toList ++ (P.keys e).apiKeyMonth.toList).map fun key =>
      Write.incrByFloat key (P.args e (before e) clock).costUsd).filterMap
        (Write.floatAt (dimCostKey k v t)) = [] := by
    refine Write.filterMap_floatAt fun w hw htarget => ?_
    obtain ⟨key, hkey, rfl⟩ := List.mem_map.mp hw
    have hapi : headOf "apikey:" = some 'a' := rfl
    rw [show key = dimCostKey k v t from htarget] at hkey
    simp only [Projection.keys, List.mem_append, Option.mem_toList, Option.map_eq_some_iff] at hkey
    rcases hkey with ⟨id, -, h⟩ | ⟨id, -, h⟩ <;> rw [← h] at hhead <;> simp [hapi] at hhead
  have hdims : ∀ entry ∈ P.countedDims e,
      ([dimBase entry.1 entry.2 none,
        dimBase entry.1 entry.2 (some (monthUtc (Projection.accountingTime e)))].flatMap
          (dimTotalsWrites (P.args e (before e) clock))).filterMap
            (Write.floatAt (dimCostKey k v t)) =
      if entry = (k, v) ∧ monthUtc (Projection.accountingTime e) = monthUtc t then
        [eventCost P before e]
      else [] := by
    intro entry hentry
    obtain ⟨hname, hvalue⟩ := hplain.2.2 entry hentry
    have hall : dimBase entry.1 entry.2 none ++ ":cost_usd" ≠ dimCostKey k v t :=
      dimBase_none_ne hk hname hvalue t
    have hmonth : dimBase entry.1 entry.2 (some (monthUtc (Projection.accountingTime e))) ++
        ":cost_usd" = dimCostKey k v t ↔
        entry = (k, v) ∧ monthUtc (Projection.accountingTime e) = monthUtc t := by
      rw [Prod.ext_iff]
      exact dimCostKey_iff hname hk
    simp only [List.flatMap_cons, List.flatMap_nil, dimTotalsWrites, List.append_nil,
      List.cons_append, List.nil_append, List.filterMap_cons, List.filterMap_nil, Write.floatAt,
      if_neg hall, hmonth]
    split_ifs <;> rfl
  unfold SinkStep.writes projectionWrites
  dsimp only
  rw [List.filterMap_append, List.filterMap_append, List.filterMap_append, List.filterMap_append,
    hsession, hmodel, hapiKeys]
  show ((P.dims e).flatMap _).filterMap _ = _
  rw [dims_eq, List.flatMap_assoc, List.filterMap_flatMap, List.flatMap_congr hdims]
  exact flatMap_ite _ _ _

theorem dimCost_run (hs : Untouched s) (hplain : ∀ a ∈ steps, a.Plain P) {k : String}
    (hk : NoColon k) (v : String) (t : ℤ) :
    (runSinks P before s steps).usage.floats (dimCostKey k v t) =
      tally none (dimCharges P before s steps k v (monthUtc t)) := by
  have hhead := headOf_dimCostKey k v t
  have hempty : s.usage.floats (dimCostKey k v t) = none := (hs _ (by rw [hhead]; simp)).floats
  rw [floats_runSinks, hempty]
  unfold dimCharges
  congr 1
  refine flatMap_projectedEvents _ ?_ ?_
  · intro agg _
    exact SinkStep.floatAt_untouched (window_not_dim hhead)
  · intro e clock he
    exact dimCost_event (hplain _ (ran_subset s steps he)) hk v t

private theorem noColon_of_dimCostKey (hplain : ∀ a ∈ steps, a.Plain P) (hs : Untouched s)
    {k x : String}
    (hk : NoColon k) {t : ℤ}
    (h : UsageStore.Has (runSinks P before s steps).usage (dimCostKey k x t)) : NoColon x := by
  have hhead := headOf_dimCostKey k x t
  obtain ⟨a, ha, hkey⟩ := written_of_has hs (by rw [hhead]; simp) h
  cases a with
  | window agg => exact (window_not_dim hhead (List.mem_append_right _ hkey)).elim
  | event e clock =>
    have hr : headOf "rollup:" = some 'r' := rfl
    have hapi : headOf "apikey:" = some 'a' := rfl
    obtain ⟨-, -, hnames⟩ := hplain _ (ran_subset s steps ha)
    have hcases : dimCostKey k x t = (P.keys e).modelRollup ∨
        dimCostKey k x t ∈ (P.keys e).apiKeyDay.toList ++ (P.keys e).apiKeyMonth.toList ∨
          dimCostKey k x t ∈ (P.dims e).flatMap dimWrites := by
      rcases List.mem_cons.mp hkey with h | h
      · exact Or.inl h
      · exact Or.inr (List.mem_append.mp h)
    rcases hcases with h | h | h
    · rw [h] at hhead
      simp [Projection.keys, hr] at hhead
    · simp only [Projection.keys, List.mem_append, Option.mem_toList, Option.map_eq_some_iff] at h
      rcases h with ⟨id, -, h⟩ | ⟨id, -, h⟩ <;> rw [← h] at hhead <;> simp [hapi] at hhead
    · rw [dims_eq, List.flatMap_assoc] at h
      obtain ⟨entry, hentry, h⟩ := List.mem_flatMap.mp h
      obtain ⟨hname, hvalue⟩ := hnames entry hentry
      have hcount : ∀ base, dimCostKey k x t ≠ base ++ ":event_count" := by
        intro base heq
        have hends := congrArg endOf heq
        unfold dimCostKey at hends
        rw [endOf_append _ (by decide), endOf_append _ (by decide)] at hends
        revert hends
        decide
      simp only [List.flatMap_cons, List.flatMap_nil, dimWrites, List.append_nil, List.cons_append,
        List.nil_append, List.mem_cons, List.not_mem_nil, or_false] at h
      rcases h with h | h | h | h
      · exact absurd h.symm (dimBase_none_ne hk hname hvalue t)
      · exact absurd h (hcount _)
      · rw [((dimCostKey_iff hk hname).mp h).1.2]
        exact hvalue
      · exact absurd h (hcount _)

private theorem colonParts_dimCostKey {k x : String} (hk : NoColon k) (hx : NoColon x) (t : ℤ) :
    (colonParts (dimCostKey k x t)).getD 2 "" = x := by
  have hkey : dimCostKey k x t =
      "dim" ++ ":" ++ (k ++ ":" ++ (x ++ ":" ++ ("period:" ++ monthUtc t ++ ":cost_usd"))) := by
    unfold dimCostKey dimBase
    apply String.ext
    simp [String.toList_append]
  rw [hkey, colonParts_append (by decide), colonParts_append hk, colonParts_append hx]
  rfl

private theorem dimCosts_run (hs : Untouched s) (hplain : ∀ a ∈ steps, a.Plain P) {k : String}
    (hk : Literal k ∧ NoColon k) (t : ℤ) {keys : List String}
    (hscan : Scans (runSinks P before s steps) (dimPattern k (monthUtc t)) keys) (v : String) :
    (listDimPeriodCosts (runSinks P before s steps) keys).get v =
      (tally none (dimCharges P before s steps k v (monthUtc t))).filter (0 < ·) := by
  have hfloats : (runSinks P before s steps).usage.floats (dimCostKey k v t) =
      tally none (dimCharges P before s steps k v (monthUtc t)) := dimCost_run hs hplain hk.2 v t
  have hentry : ∀ key ∈ keys, ∀ v q,
      (if 0 < number ((runSinks P before s steps).usage.floats key) then
        some ((colonParts key).getD 2 "", number ((runSinks P before s steps).usage.floats key))
      else none) = some (v, q) ↔
      key = dimCostKey k v t ∧ 0 < q ∧ number ((runSinks P before s steps).usage.floats key) = q := by
    intro key hkey v q
    obtain ⟨hthere, hmatch⟩ := (hscan key).mp hkey
    obtain ⟨x, rfl⟩ := (dimPattern_iff hk.1 t key).mp hmatch
    rw [colonParts_dimCostKey hk.2 (noColon_of_dimCostKey hplain hs hk.2 hthere)]
    have hvalue : dimCostKey k x t = dimCostKey k v t ↔ x = v := by
      rw [dimCostKey_iff hk.2 hk.2]
      simp
    rw [hvalue]
    constructor
    · intro h
      split_ifs at h with hpos
      obtain ⟨rfl, rfl⟩ := Prod.mk.inj (Option.some.inj h)
      exact ⟨rfl, hpos, rfl⟩
    · rintro ⟨rfl, hpos, rfl⟩
      exact if_pos hpos
  unfold listDimPeriodCosts
  refine Option.ext fun q => ?_
  rw [Table.get_gather]
  · rw [Option.filter_eq_some_iff, ← hfloats, decide_eq_true_iff]
    constructor
    · rintro ⟨key, hkey, h⟩
      obtain ⟨rfl, hpos, hcost⟩ := (hentry key hkey v q).mp h
      refine ⟨?_, hpos⟩
      cases hread : (runSinks P before s steps).usage.floats (dimCostKey k v t) with
      | none =>
        rw [hread, number_none] at hcost
        exact absurd hpos (hcost ▸ lt_irrefl 0)
      | some q' =>
        rw [hread, number_some] at hcost
        rw [hcost]
    · rintro ⟨hcost, hpos⟩
      have hkey : dimCostKey k v t ∈ keys := by
        refine (hscan _).mpr ⟨Or.inr (Or.inl ?_), (dimPattern_iff hk.1 t _).mpr ⟨v, rfl⟩⟩
        rw [hcost]
        exact Option.some_ne_none q
      exact ⟨_, hkey, (hentry _ hkey v q).mpr ⟨rfl, hpos, by rw [hcost, number_some]⟩⟩
  · intro a ha b hb x q q' hq hq'
    obtain ⟨rfl, -, hcost⟩ := (hentry a ha x q).mp hq
    obtain ⟨rfl, -, hcost'⟩ := (hentry b hb x q').mp hq'
    exact hcost.symm.trans hcost'

end Run

/-- The readers return for a month what the sinks wrote in it: each customer once and on both paths
alike, each model, and each value of a dimension where its total is positive. -/
structure PeriodReads (P : Projection) (before : TokenEvent → ℤ) (s : Keyspace)
    (steps : List SinkStep) (p : String) : Prop where
  customers : ∀ keys, Scans (runSinks P before s steps) (customerPattern p) keys → ∀ c,
    (PeriodReader.listCustomerPeriodCosts (runSinks P before s steps) p keys).get c =
      tally none (customerCharges P before s steps c p)
  paths : ∀ keys, Scans (runSinks P before s steps) (customerPattern p) keys → ∀ c,
    (customerCostsByIndex (runSinks P before s steps) p).get c =
      (customerCostsByScan (runSinks P before s steps) keys).get c
  models : ∀ scope keys, (∀ c ∈ restriction scope, Literal c ∧ NoColon c) →
    Scans (runSinks P before s steps) (modelPattern scope p) keys → keys.Nodup → ∀ m,
    (listModelPeriodCosts (runSinks P before s steps) keys).get m =
      tally none ((modelEvents P before s steps (restriction scope) m p).map (eventCost P before))
  dims : ∀ k keys, Literal k → NoColon k →
    Scans (runSinks P before s steps) (dimPattern k p) keys → ∀ v,
    (listDimPeriodCosts (runSinks P before s steps) keys).get v =
      (tally none (dimCharges P before s steps k v p)).filter (0 < ·)

theorem period_reads_written (P : Projection) (before : TokenEvent → ℤ) {s : Keyspace}
    {steps : List SinkStep} (hs : Untouched s) (hfired : ∀ a ∈ steps, a.Fired)
    (hplain : ∀ a ∈ steps, a.Plain P) (t : ℤ) : PeriodReads P before s steps (monthUtc t) where
  customers keys hscan c := by
    obtain ⟨hindex, hbyScan⟩ := customerCosts_run hs hfired hplain t hscan c
    unfold PeriodReader.listCustomerPeriodCosts
    split_ifs
    · exact hindex
    · exact hbyScan
  paths keys hscan c := by
    obtain ⟨hindex, hbyScan⟩ := customerCosts_run hs hfired hplain t hscan c
    rw [hindex, hbyScan]
  models scope keys hscope hscan hnodup m := modelCosts_run hs hplain hscope hscan hnodup m
  dims k keys hliteral hcolon hscan v := dimCosts_run hs hplain ⟨hliteral, hcolon⟩ t hscan v

theorem period_reads_written_gpt4o :
    (listModelPeriodCosts (runSinks sampleProjection (fun _ => 0) {}
      [.window (windowOfC1 "acme"), .event (eventOfC1 "acme") "5000"])
        ["rollup:c1:model:gpt-4o:period:1970-01"]).get "gpt-4o" = some (7 / 1000000) := by
  have hscan : Scans (runSinks sampleProjection (fun _ => 0) {}
      [.window (windowOfC1 "acme"), .event (eventOfC1 "acme") "5000"])
      (modelPattern none "1970-01") ["rollup:c1:model:gpt-4o:period:1970-01"] := by
    apply scans_of_touched
    · decide +kernel
    · decide +kernel
    · intro key hkey
      rw [List.mem_singleton.mp hkey]
      exact ⟨Or.inr (Or.inr (Or.inl ⟨"event_count", by decide +kernel⟩)), by decide +kernel⟩
  have hmonth : monthUtc 0 = "1970-01" := by decide +kernel
  have hreads := @period_reads_written sampleProjection (fun _ => 0) {}
    [.window (windowOfC1 "acme"), .event (eventOfC1 "acme") "5000"]
    (fun _ _ => ⟨rfl, rfl, rfl, rfl, rfl⟩) (by decide) (by decide +kernel) 0
  rw [hmonth] at hreads
  rw [hreads.models none _ (by decide) hscan (by decide)]
  decide +kernel

/-- A window of a customer, and an event with a model and a value, that have colons in their names. -/
def colonSteps : List SinkStep :=
  [.window { windowOfC1 "acme" with customerId := some "a:b" },
    .event { eventOfC1 "acme" with
      modelId := some "ft:gpt-4o:acme"
      metadata := some [("feature", "a:b")] } "5000"]

/-- The scan misses the customer that the index has, the model is missing from the costs of models,
and the cost of the value is reported under its first part. -/
theorem not_period_reads_colon :
    ¬ PeriodReads sampleProjection (fun _ => 0) {} colonSteps "1970-01" ∧
      (∃ keys, Scans (runSinks sampleProjection (fun _ => 0) {} colonSteps)
          (customerPattern "1970-01") keys ∧
        (customerCostsByIndex (runSinks sampleProjection (fun _ => 0) {} colonSteps) "1970-01").get
          "a:b" = some (7 / 1000000) ∧
        (customerCostsByScan (runSinks sampleProjection (fun _ => 0) {} colonSteps) keys).get
          "a:b" = none) ∧
      (∃ keys, Scans (runSinks sampleProjection (fun _ => 0) {} colonSteps)
          (modelPattern none "1970-01") keys ∧
        (listModelPeriodCosts (runSinks sampleProjection (fun _ => 0) {} colonSteps) keys).get
          "ft:gpt-4o:acme" = none ∧
        modelEvents sampleProjection (fun _ => 0) {} colonSteps none "ft:gpt-4o:acme" "1970-01" ≠
          []) ∧
      ∃ keys, Scans (runSinks sampleProjection (fun _ => 0) {} colonSteps)
          (dimPattern "feature" "1970-01") keys ∧
        (listDimPeriodCosts (runSinks sampleProjection (fun _ => 0) {} colonSteps) keys).get
          "a" = some (7 / 1000000) ∧
        (listDimPeriodCosts (runSinks sampleProjection (fun _ => 0) {} colonSteps) keys).get
          "a:b" = none := by
  have hcustomers : Scans (runSinks sampleProjection (fun _ => 0) {} colonSteps)
      (customerPattern "1970-01") ["rollup:a:b:period:1970-01",
        "rollup:c1:model:ft:gpt-4o:acme:period:1970-01"] := by
    apply scans_of_touched
    · decide +kernel
    · decide +kernel
    · intro key hkey
      simp only [List.mem_cons, List.not_mem_nil, or_false] at hkey
      rcases hkey with rfl | rfl
      · exact ⟨Or.inr (Or.inr (Or.inl ⟨"event_count", by decide +kernel⟩)), by decide +kernel⟩
      · exact ⟨Or.inr (Or.inr (Or.inl ⟨"event_count", by decide +kernel⟩)), by decide +kernel⟩
  have hmodels : Scans (runSinks sampleProjection (fun _ => 0) {} colonSteps)
      (modelPattern none "1970-01") ["rollup:c1:model:ft:gpt-4o:acme:period:1970-01"] := by
    apply scans_of_touched
    · decide +kernel
    · decide +kernel
    · intro key hkey
      rw [List.mem_singleton.mp hkey]
      exact ⟨Or.inr (Or.inr (Or.inl ⟨"event_count", by decide +kernel⟩)), by decide +kernel⟩
  have hdims : Scans (runSinks sampleProjection (fun _ => 0) {} colonSteps)
      (dimPattern "feature" "1970-01") ["dim:feature:a:b:period:1970-01:cost_usd"] := by
    apply scans_of_touched
    · decide +kernel
    · decide +kernel
    · intro key hkey
      rw [List.mem_singleton.mp hkey]
      exact ⟨Or.inr (Or.inl (by decide +kernel)), by decide +kernel⟩
  refine ⟨fun h => ?_, ⟨_, hcustomers, by decide +kernel, by decide +kernel⟩,
    ⟨_, hmodels, by decide +kernel, by decide +kernel⟩,
    ⟨_, hdims, by decide +kernel, by decide +kernel⟩⟩
  have hpaths := h.paths _ hcustomers "a:b"
  revert hpaths
  decide +kernel

end FluxMeter.Usage
