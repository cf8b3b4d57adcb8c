import FluxMeter.Pricing.PriceBounds
import FluxMeter.Usage.Charges

/-! One projection and one window: each charges and gives nothing back exactly when its counts
are not negative and the balance it draws on is not overdrawn. -/
namespace FluxMeter.Usage
open FluxMeter.Budget FluxMeter.Keys FluxMeter.Model FluxMeter.Pricing Transition

theorem Charged.refl (s : Keyspace) : Charged s s where
  usage := Grown.refl _
  balances _ q hq := ⟨q, hq, le_refl _⟩
  deducted _ := le_refl _
  debts _ := le_refl _

/-! ### The projection -/

/-- What a projection draws on is not overdrawn. -/
def PackageFunded (s : Keyspace) (e : TokenEvent) : Prop :=
  ∀ n ∈ s.usage.ints (packageKey e.tenantId (TokenEvent.orNull e.customerId)), 0 ≤ n

section Projection
variable {P : Projection} {e : TokenEvent} {before : ℤ} {clock : String} {s : Keyspace}

private theorem attachToWindow_budgets (r : Redis) (k : ProjectionKeys) (a : ProjectionArgs) :
    (attachToWindow r k a).budgets = r.budgets := by
  unfold attachToWindow
  cases k.window <;> rfl

theorem apply_charged (hfunded : PackageFunded s e)
    (hcost : 0 ≤ P.catalog.calculateEventCostMicro e before)
    (hinput : 0 ≤ e.inputTokens) (houtput : 0 ≤ e.outputTokens) (htotal : 0 ≤ e.getTotalTokens) :
    Charged s (P.apply s e before clock).1 := by
  have hcharge : Chargeable e.inputTokens e.outputTokens e.getTotalTokens 1
      ((P.catalog.calculateEventCostMicro e before : ℚ) / 1000000) := by
    refine ⟨hinput, houtput, htotal, by omega, ?_⟩
    exact div_nonneg (Int.cast_nonneg hcost) (by norm_num)
  unfold Projection.apply projectionScript
  split_ifs with hdone
  · exact Charged.refl s
  · have hbudgets : ∀ b, (attachToWindow s.toRedis (P.keys e) (P.args e before clock)).budgets b =
        s.budgets b := fun b => congrFun (attachToWindow_budgets _ _ _) b
    refine ⟨grown_projectUsage s.usage rfl hfunded hcharge, fun b q hq => ?_, fun b => ?_,
      fun b => ?_⟩
    · have hq' : (s.budgets b).balanceUsd = some q := (congrArg _ (hbudgets b)).symm.trans hq
      exact ⟨q, hq', le_refl _⟩
    · exact (congrArg (fun row => number (BudgetRow.totalDeductedUsd row)) (hbudgets b)).ge
    · exact (congrArg (fun row => number (BudgetRow.debtUsd row)) (hbudgets b)).ge

theorem projectUsage_hashes (u : UsageStore) (k : ProjectionKeys) (a : ProjectionArgs) :
    (projectUsage u k a).hashInts =
        (modelRollup (sessionUsage u a k.session) a k.modelRollup).hashInts ∧
      (projectUsage u k a).hashFloats =
        (modelRollup (sessionUsage u a k.session) a k.modelRollup).hashFloats := by
  have hdraw : ∀ (u : UsageStore) key, (drawPackage u a key).hashInts = u.hashInts ∧
      (drawPackage u a key).hashFloats = u.hashFloats := by
    intro u key
    unfold drawPackage
    cases u.ints key with
    | none => exact ⟨rfl, rfl⟩
    | some n => dsimp only; split_ifs <;> exact ⟨rfl, rfl⟩
  have hspend : ∀ (u : UsageStore) key, (spendApiKey u a key).hashInts = u.hashInts ∧
      (spendApiKey u a key).hashFloats = u.hashFloats := by
    intro u key
    cases key <;> exact ⟨rfl, rfl⟩
  have hdims : ∀ (keys : List String) (u : UsageStore),
      (keys.foldl (fun u key => dimTotals u a key) u).hashInts = u.hashInts ∧
        (keys.foldl (fun u key => dimTotals u a key) u).hashFloats = u.hashFloats := by
    intro keys
    induction keys with
    | nil => exact fun u => ⟨rfl, rfl⟩
    | cons key keys ih => exact fun u => ih (dimTotals u a key)
  unfold projectUsage
  dsimp only
  constructor
  · rw [(hdims _ _).1, (hspend _ _).1, (hspend _ _).1, (hdraw _ _).1]
  · rw [(hdims _ _).2, (hspend _ _).2, (hspend _ _).2, (hdraw _ _).2]

theorem sessionUsage_hashes (u : UsageStore) (a : ProjectionArgs) (key : Option String) :
    (sessionUsage u a key).hashInts = u.hashInts ∧
      (sessionUsage u a key).hashFloats = u.hashFloats := by
  have hpositive : ∀ (u : UsageStore) key n, (u.incrByPositive key n).hashInts = u.hashInts ∧
      (u.incrByPositive key n).hashFloats = u.hashFloats := by
    intro u key n
    unfold UsageStore.incrByPositive
    split_ifs <;> exact ⟨rfl, rfl⟩
  cases key with
  | none => exact ⟨rfl, rfl⟩
  | some key =>
    show (sessionCounters u a key).hashInts = _ ∧ (sessionCounters u a key).hashFloats = _
    unfold sessionCounters
    rw [(hpositive _ _ _).1, (hpositive _ _ _).1, (hpositive _ _ _).2, (hpositive _ _ _).2]
    exact ⟨rfl, rfl⟩

private theorem modelRollup_moves (u : UsageStore) (a : ProjectionArgs) (key : String) :
    integer ((modelRollup u a key).hashInts key "input_tokens") =
        integer (u.hashInts key "input_tokens") + a.inputTokens ∧
      integer ((modelRollup u a key).hashInts key "output_tokens") =
        integer (u.hashInts key "output_tokens") + a.outputTokens ∧
      integer ((modelRollup u a key).hashInts key "total_tokens") =
        integer (u.hashInts key "total_tokens") + a.totalTokens ∧
      number ((modelRollup u a key).hashFloats key "cost_usd") =
        number (u.hashFloats key "cost_usd") + a.costUsd := by
  unfold modelRollup
  refine ⟨?_, ?_, ?_, ?_⟩
  · simp [UsageStore.hincrBy, UsageStore.hincrByFloat, integer]
  · simp [UsageStore.hincrBy, UsageStore.hincrByFloat, integer]
  · simp [UsageStore.hincrBy, UsageStore.hincrByFloat, integer]
  · simp [UsageStore.hincrBy, UsageStore.hincrByFloat]

theorem apply_fresh (hfresh : s.projected (P.projectionKey e.eventId) = false) :
    (P.apply s e before clock).1.usage =
      projectUsage s.usage (P.keys e) (P.args e before clock) := by
  have hguard : s.projected (P.keys e).projection = false := hfresh
  unfold Projection.apply projectionScript
  rw [if_neg (by simp [hguard])]

theorem of_apply_charged (hfresh : s.projected (P.projectionKey e.eventId) = false)
    (h : Charged s (P.apply s e before clock).1) :
    0 ≤ e.inputTokens ∧ 0 ≤ e.outputTokens ∧ 0 ≤ e.getTotalTokens ∧
      0 ≤ P.catalog.calculateEventCostMicro e before := by
  have hgrown := h.usage
  rw [apply_fresh hfresh] at hgrown
  obtain ⟨hinput, houtput, htotal, hcost⟩ := modelRollup_moves
    (sessionUsage s.usage (P.args e before clock) (P.keys e).session) (P.args e before clock)
    (P.keys e).modelRollup
  obtain ⟨hints, hfloats⟩ := projectUsage_hashes s.usage (P.keys e) (P.args e before clock)
  obtain ⟨hints', hfloats'⟩ := sessionUsage_hashes s.usage (P.args e before clock)
    (P.keys e).session
  have hin := hgrown.hashInts (P.keys e).modelRollup "input_tokens"
  have hout := hgrown.hashInts (P.keys e).modelRollup "output_tokens"
  have htot := hgrown.hashInts (P.keys e).modelRollup "total_tokens"
  have hpaid := hgrown.hashFloats (P.keys e).modelRollup "cost_usd"
  rw [hints, hinput, hints'] at hin
  rw [hints, houtput, hints'] at hout
  rw [hints, htotal, hints'] at htot
  rw [hfloats, hcost, hfloats'] at hpaid
  have hargs : (P.args e before clock).inputTokens = e.inputTokens ∧
      (P.args e before clock).outputTokens = e.outputTokens ∧
      (P.args e before clock).totalTokens = e.getTotalTokens ∧
      (P.args e before clock).costUsd =
        (P.catalog.calculateEventCostMicro e before : ℚ) / 1000000 := ⟨rfl, rfl, rfl, rfl⟩
  rw [hargs.1] at hin
  rw [hargs.2.1] at hout
  rw [hargs.2.2.1] at htot
  rw [hargs.2.2.2] at hpaid
  refine ⟨by omega, by omega, by omega, ?_⟩
  have hmicro : (0 : ℚ) ≤ P.catalog.calculateEventCostMicro e before := by linarith
  exact_mod_cast hmicro

theorem funded_of_apply_charged (hfresh : s.projected (P.projectionKey e.eventId) = false)
    (h : Charged s (P.apply s e before clock).1) (htotal : 0 ≤ e.getTotalTokens) :
    PackageFunded s e := by
  intro n hn
  by_contra hneg
  have hdims : packageKey e.tenantId (TokenEvent.orNull e.customerId) ∉
      (P.keys e).dims.flatMap dimWrites := by
    intro hmem
    obtain ⟨key, -, hkey⟩ := List.mem_flatMap.mp hmem
    have hends : ∀ x ∈ [":cost_usd", ":event_count"], 2 ≤ x.toList.length ∧
        endOf x ≠ endOf ":tokens_remaining" := by decide
    have hkey' : ∃ x ∈ [":cost_usd", ":event_count"], key ++ x =
        packageKey e.tenantId (TokenEvent.orNull e.customerId) := by
      simpa [dimWrites, eq_comm] using hkey
    obtain ⟨x, hx, heq⟩ := hkey'
    exact ne_packageKey_suffix key (hends x hx).1 (hends x hx).2 _ _ heq
  have hspend : ∀ (u : UsageStore) a key, (spendApiKey u a key).ints = u.ints := by
    intro u a key
    cases key <;> rfl
  -- the script overwrites a negative package with zero
  have hzero : (projectUsage s.usage (P.keys e) (P.args e before clock)).ints
      (packageKey e.tenantId (TokenEvent.orNull e.customerId)) = some 0 := by
    unfold projectUsage
    dsimp only
    rw [((Footprint.foldl sameAt_equivalence (footprint_dimTotals _) (P.keys e).dims).frame _ hdims
      _).ints, hspend, hspend]
    have hkept := session_package s.usage (P.args e before clock) (P.keys e).session
      (P.keys e).modelRollup e.tenantId (TokenEvent.orNull e.customerId)
    rw [hn] at hkept
    show (drawPackage _ _ (packageKey e.tenantId (TokenEvent.orNull e.customerId))).ints _ = some 0
    unfold drawPackage
    rw [hkept]
    have htot : (P.args e before clock).totalTokens = e.getTotalTokens := rfl
    dsimp only
    rw [htot, if_pos (by omega)]
    exact Function.update_self _ _ _
  have hpackages := h.usage.packages e.tenantId (TokenEvent.orNull e.customerId)
  rw [apply_fresh hfresh] at hpackages
  obtain ⟨m, hm, hle⟩ := hpackages 0 hzero
  rw [hn] at hm
  have hmn : n = m := Option.some.inj hm
  omega

end Projection

/-! ### The window -/

/-- The balance that a window draws on is not overdrawn. -/
def BalanceFunded (s : Keyspace) (b : BudgetKey) : Prop := ∀ q ∈ (s.budgets b).balanceUsd, 0 ≤ q

section Window
variable {s : Keyspace} {agg : UsageAggregate}

private theorem deduct_charged (row : BudgetRow) {balance cost : ℚ} (hbalance : 0 ≤ balance)
    (hcost : 0 ≤ cost) :
    (∃ q, (row.deduct balance cost).balanceUsd = some q ∧ q ≤ balance) ∧
      number row.debtUsd ≤ number (row.deduct balance cost).debtUsd ∧
      (row.deduct balance cost).totalDeductedUsd = row.totalDeductedUsd := by
  unfold BudgetRow.deduct
  split_ifs with hover
  · refine ⟨⟨0, rfl, hbalance⟩, ?_, rfl⟩
    show number row.debtUsd ≤ number row.debtUsd + -(balance - cost)
    linarith
  · exact ⟨⟨balance - cost, rfl, by linarith⟩, le_refl _, rfl⟩

theorem window_charged (hfunded : BalanceFunded s (sinkKeys agg).budget)
    (hcharge : Chargeable agg.inputTokens agg.outputTokens agg.totalTokens agg.eventCount
      agg.getCostUsd) : Charged s (applyWindow s agg) := by
  have husage : Grown s.usage (applyWindow s agg).usage := by
    show Grown s.usage (sinkScript s.toRedis _ _).1.usage
    rw [(sinkScript_guarded _ _ _).1]
    split_ifs
    · exact Grown.refl _
    · exact grown_applyWindow s.usage rfl ⟨_, rfl⟩ hcharge
  have hrecorded : ∀ (row : BudgetRow) (held : Option ℚ),
      number row.totalDeductedUsd ≤
        number (row.recorded (sinkArgs agg).costUsd held).totalDeductedUsd :=
    fun row held => le_add_of_nonneg_right hcharge.cost
  have hbudgets : ∀ b, (∀ q' ∈ ((applyWindow s agg).budgets b).balanceUsd,
        ∃ q ∈ (s.budgets b).balanceUsd, q' ≤ q) ∧
      number (s.budgets b).totalDeductedUsd ≤
        number ((applyWindow s agg).budgets b).totalDeductedUsd ∧
      number (s.budgets b).debtUsd ≤ number ((applyWindow s agg).budgets b).debtUsd := by
    intro b
    show (∀ q' ∈ ((sinkScript s.toRedis _ _).1.budgets b).balanceUsd, _) ∧
      _ ≤ number ((sinkScript s.toRedis _ _).1.budgets b).totalDeductedUsd ∧
      _ ≤ number ((sinkScript s.toRedis _ _).1.budgets b).debtUsd
    by_cases hb : b = (sinkKeys agg).budget
    · subst hb
      rcases sinkScript_row_self s.toRedis (sinkKeys agg) (sinkArgs agg) with ⟨-, hrow⟩ |
        ⟨-, -, held, hrow⟩ | ⟨balance, held, -, hsome, hrow⟩
      · rw [hrow]
        exact ⟨fun q hq => ⟨q, hq, le_refl _⟩, le_refl _, le_refl _⟩
      · rw [hrow]
        exact ⟨fun q hq => ⟨q, hq, le_refl _⟩, hrecorded _ held, le_refl _⟩
      · obtain ⟨⟨q, hq, hle⟩, hmore, hsame⟩ := deduct_charged
          ((s.budgets (sinkKeys agg).budget).recorded (sinkArgs agg).costUsd held)
          (hfunded balance hsome) hcharge.cost
        rw [hrow]
        refine ⟨fun q' hq' => ⟨balance, hsome, ?_⟩, ?_, hmore⟩
        · have hqq : q = q' := Option.some.inj (hq.symm.trans hq')
          exact hqq ▸ hle
        · exact (hrecorded _ held).trans (congrArg number hsame).ge
    · obtain ⟨held, hrow⟩ := sinkScript_row_ne s.toRedis (sinkKeys agg) (sinkArgs agg) hb
      rw [hrow]
      exact ⟨fun q hq => ⟨q, hq, le_refl _⟩, le_refl _, le_refl _⟩
  exact ⟨husage, fun b => (hbudgets b).1, fun b => (hbudgets b).2.1, fun b => (hbudgets b).2.2⟩

theorem hincrBy_moves (u : UsageStore) (key field j f : String) (n : ℤ) :
    integer ((u.hincrBy key field n).hashInts j f) =
      integer (u.hashInts j f) + if j = key ∧ f = field then n else 0 := by
  show integer (Function.update u.hashInts key _ j f) = _
  by_cases hj : j = key
  · subst hj
    rw [Function.update_self]
    by_cases hf : f = field
    · subst hf
      rw [Function.update_self, if_pos ⟨rfl, rfl⟩]
      rfl
    · rw [Function.update_of_ne hf, if_neg (fun h => hf h.2), add_zero]
  · rw [Function.update_of_ne hj, if_neg (fun h => hj h.1), add_zero]

/-- The four counts that every rollup sums up. -/
def rollupCounts (a : SinkArgs) : List (String × ℤ) :=
  [("input_tokens", a.inputTokens), ("output_tokens", a.outputTokens),
    ("total_tokens", a.totalTokens), ("event_count", a.eventCount)]

theorem rollup_moves (u : UsageStore) (a : SinkArgs) (key j : String) {field : String} {n : ℤ}
    (hfield : (field, n) ∈ rollupCounts a) :
    integer ((u.rollup a key).hashInts j field) =
      integer (u.hashInts j field) + if j = key then n else 0 := by
  have hother : field ≠ "cache_read_tokens" ∧ field ≠ "reasoning_tokens" := by
    simp only [rollupCounts, List.mem_cons, Prod.mk.injEq, List.not_mem_nil, or_false] at hfield
    rcases hfield with ⟨rfl, -⟩ | ⟨rfl, -⟩ | ⟨rfl, -⟩ | ⟨rfl, -⟩ <;> decide
  have hdetail : ∀ (u : UsageStore) (f : String) (m : ℤ), field ≠ f →
      integer ((if 0 < m then u.hincrBy key f m else u).hashInts j field) =
        integer (u.hashInts j field) := by
    intro u f m hf
    split_ifs
    · rw [hincrBy_moves, if_neg (fun h => hf h.2), add_zero]
    · rfl
  have hfloat : ∀ (u : UsageStore) (f : String) (q : ℚ),
      (u.hincrByFloat key f q).hashInts = u.hashInts := fun _ _ _ => rfl
  unfold UsageStore.rollup
  dsimp only
  rw [hdetail _ _ _ hother.2, hdetail _ _ _ hother.1, hfloat, hincrBy_moves, hincrBy_moves,
    hincrBy_moves, hincrBy_moves]
  simp only [rollupCounts, List.mem_cons, Prod.mk.injEq, List.not_mem_nil, or_false] at hfield
  rcases hfield with ⟨rfl, rfl⟩ | ⟨rfl, rfl⟩ | ⟨rfl, rfl⟩ | ⟨rfl, rfl⟩ <;> simp

private theorem applyWindow_hashInts (u : UsageStore) (k : SinkKeys) (a : SinkArgs) :
    ∃ u' : UsageStore, u'.hashInts = u.hashInts ∧
      (u.applyWindow k a).hashInts = ((u'.rollup a k.periodRollup).rollup a k.dayRollup).hashInts := by
  have hpositive : ∀ (u : UsageStore) key n, (u.incrByPositive key n).hashInts = u.hashInts := by
    intro u key n
    unfold UsageStore.incrByPositive
    split_ifs <;> rfl
  refine ⟨_, ?_, rfl⟩
  show (UsageStore.incrByPositive (UsageStore.incrByPositive _ _ _) _ _).hashInts = u.hashInts
  rw [hpositive, hpositive]
  rfl

/-- The rollup of a day moves by the counts of the window, twice where it is also the rollup of
the month. -/
private theorem applyWindow_moves (u : UsageStore) (k : SinkKeys) (a : SinkArgs) {field : String}
    {n : ℤ}
    (hfield : (field, n) ∈ rollupCounts a) :
    ∃ times : ℤ, 0 < times ∧ integer ((u.applyWindow k a).hashInts k.dayRollup field) =
      integer (u.hashInts k.dayRollup field) + times * n := by
  obtain ⟨u', hu', heq⟩ := applyWindow_hashInts u k a
  rw [heq, rollup_moves _ a _ _ hfield, rollup_moves _ a _ _ hfield, hu', if_pos rfl]
  by_cases hsame : k.dayRollup = k.periodRollup
  · exact ⟨2, by omega, by rw [if_pos hsame]; ring⟩
  · exact ⟨1, by omega, by rw [if_neg hsame]; ring⟩

/-- A window that only charges has counts that are not negative, and where its cost is not
negative either, the balance it draws on is not overdrawn. -/
theorem of_window_charged (hfresh : s.applied (sinkKeys agg).windowId = false)
    (h : Charged s (applyWindow s agg)) (hcost : 0 ≤ agg.getCostUsd) :
    Chargeable agg.inputTokens agg.outputTokens agg.totalTokens agg.eventCount agg.getCostUsd ∧
      BalanceFunded s (sinkKeys agg).budget := by
  have husage : (applyWindow s agg).usage =
      s.usage.applyWindow (sinkKeys agg) (sinkArgs agg) := by
    show (sinkScript s.toRedis _ _).1.usage = _
    rw [(sinkScript_guarded _ _ _).1, if_neg (by simp [hfresh])]
  have hcount : ∀ field n, (field, n) ∈ rollupCounts (sinkArgs agg) → 0 ≤ n := by
    intro field n hfield
    obtain ⟨times, htimes, heq⟩ := applyWindow_moves s.usage (sinkKeys agg) (sinkArgs agg) hfield
    have hle := h.usage.hashInts (sinkKeys agg).dayRollup field
    rw [husage, heq] at hle
    have hproduct : 0 ≤ times * n := by omega
    exact nonneg_of_mul_nonneg_right hproduct htimes
  refine ⟨⟨hcount "input_tokens" _ (by simp [rollupCounts, sinkArgs]),
    hcount "output_tokens" _ (by simp [rollupCounts, sinkArgs]),
    hcount "total_tokens" _ (by simp [rollupCounts, sinkArgs]),
    hcount "event_count" _ (by simp [rollupCounts, sinkArgs]), hcost⟩, ?_⟩
  intro q hq
  by_contra hneg
  have hneg' : q < 0 := not_le.mp hneg
  rcases sinkScript_cases s.toRedis (sinkKeys agg) (sinkArgs agg) with ⟨happlied, -⟩ |
    ⟨-, hnone, -⟩ | ⟨balance, -, hsome, heq⟩
  · rw [hfresh] at happlied
    simp at happlied
  · rw [hq] at hnone
    simp at hnone
  · have hbalance : balance = q := Option.some.inj (hsome.symm.trans hq)
    subst hbalance
    have hzero : ((applyWindow s agg).budgets (sinkKeys agg).budget).balanceUsd = some 0 := by
      show ((sinkScript s.toRedis _ _).1.budgets _).balanceUsd = some 0
      rw [heq, Redis.setBudget_self]
      unfold BudgetRow.deduct
      have hover : balance - (sinkArgs agg).costUsd < 0 := by
        have hsame : (sinkArgs agg).costUsd = agg.getCostUsd := rfl
        rw [hsame]
        linarith
      rw [if_pos hover]
    obtain ⟨q', hq', hle⟩ := h.balances (sinkKeys agg).budget 0 hzero
    have hqq : balance = q' := Option.some.inj (hsome.symm.trans hq')
    linarith

end Window

end FluxMeter.Usage
