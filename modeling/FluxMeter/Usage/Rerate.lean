import FluxMeter.Budget.Account
import FluxMeter.Pricing.PricingLoader
import FluxMeter.Usage.ModelUsageRows

/-! The two endpoints of re-rating in `main.py`: what `/rerate/preview` reports of the rows of a model,
and what `/rerate/apply` moves for them. The two times of the request are read by neither. -/
namespace FluxMeter.Usage
open FluxMeter.Budget FluxMeter.Keys FluxMeter.Pricing Collections

structure ReRateRequest where
  modelId : String
  /-- Per million tokens, as all four. -/
  oldInputPrice : ℚ
  newInputPrice : ℚ
  oldOutputPrice : ℚ
  newOutputPrice : ℚ

/-- `_assert_flat_rerate`; `false` is an `HTTPException`. -/
def assertFlatRerate (catalog : Loader.PricingCatalog) (modelId : String) : Bool :=
  (catalog.modelPricing (some modelId)).any fun pricing => pricing.pricingMode = .flat

def adjustmentOf (req : ReRateRequest) (row : ModelUsageRow) : ℚ :=
  let inputDelta := (row.inputTokens / 1000000) * (req.newInputPrice - req.oldInputPrice)
  let outputDelta := (row.outputTokens / 1000000) * (req.newOutputPrice - req.oldOutputPrice)
  inputDelta + outputDelta

/-- `round` of a number to decimal digits. -/
def roundDigits (digits : ℕ) (q : ℚ) : ℚ := Loader.pyRound (q * 10 ^ digits) / 10 ^ digits

structure Adjustment where
  customerId : String
  inputTokens : ℤ
  outputTokens : ℤ
  adjustmentUsd : ℚ
  deriving DecidableEq

structure ReratePreview where
  modelId : String
  customersAffected : ℕ
  totalAdjustmentUsd : ℚ
  adjustments : List Adjustment
  deriving DecidableEq

structure RerateReply where
  modelId : String
  customersAdjusted : ℕ
  totalAdjustmentUsd : ℚ
  deriving DecidableEq

/-- The rows in the order in which their customers were found. -/
def modelRows (s : Keyspace) (tenantId : Option String) (modelId : String)
    (tenantKeys legacyKeys : List String) : List ModelUsageRow :=
  (iterModelUsageRows s tenantId modelId tenantKeys legacyKeys).rows.reverse.map Prod.snd

def reportOf (req : ReRateRequest) (row : ModelUsageRow) : Adjustment where
  customerId := row.customerId
  inputTokens := row.inputTokens
  outputTokens := row.outputTokens
  adjustmentUsd := roundDigits 6 (adjustmentOf req row)

/-- What `/rerate/preview` reports of the rows that it does not skip. -/
def previewOf (req : ReRateRequest) (affected : List ModelUsageRow) : ReratePreview where
  modelId := req.modelId
  customersAffected := affected.length
  totalAdjustmentUsd := roundDigits 4 (affected.map (adjustmentOf req)).sum
  adjustments := ((affected.map (reportOf req)).mergeSort fun a b =>
    a.adjustmentUsd ≤ b.adjustmentUsd).take 50

/-- `/rerate/preview`. -/
def previewRerate (catalog : Loader.PricingCatalog) (s : Keyspace) (tenantId : Option String)
    (req : ReRateRequest) (tenantKeys legacyKeys : List String) : Option ReratePreview :=
  if assertFlatRerate catalog req.modelId then
    some (previewOf req ((modelRows s tenantId req.modelId tenantKeys legacyKeys).filter fun row =>
      1 / 1000 < |adjustmentOf req row|))
  else none

/-- `apply_model_cost_adjustment`. -/
def applyModelCostAdjustment (u : UsageStore) (tenantId : Option String)
    (modelKey customerPrefix : String) (adjustment : ℚ) : UsageStore :=
  ((u.incrByFloat (modelKey ++ ":cost_usd") adjustment).incrByFloat (customerPrefix ++ ":cost_usd")
    adjustment).incrByFloat (Py.inTenant tenantId "global:total_cost_usd") adjustment

/-- `INCRBYFLOAT` of a balance that exists. -/
def adjustBalance (r : Redis) (key : BudgetKey) (adjustment : ℚ) : Redis :=
  if (r.budgets key).balanceUsd.isSome then
    r.setBudget key { r.budgets key with
      balanceUsd := incrByFloat (r.budgets key).balanceUsd (-adjustment) }
  else r

/-- The adjustment of a row, and of the budget of its customer. -/
def adjustRow (s : Keyspace) (tenantId : Option String) (row : ModelUsageRow) (adjustment : ℚ) :
    Keyspace :=
  let adjusted : Keyspace := { s with
    usage := applyModelCostAdjustment s.usage tenantId row.modelKey row.customerPrefix adjustment }
  let key := budgetPrefixForRead adjusted.toRedis tenantId row.customerId
  { adjusted with toRedis := adjustBalance adjusted.toRedis key adjustment }

/-- One turn of the loop of `/rerate/apply`. -/
def applyRow (tenantId : Option String) (req : ReRateRequest) (acc : Keyspace × ℕ × ℚ)
    (row : ModelUsageRow) : Keyspace × ℕ × ℚ :=
  let (s, applied, total) := acc
  let adjustment := adjustmentOf req row
  if |adjustment| < 1 / 1000 then acc
  else (adjustRow s tenantId row adjustment, applied + 1, total + adjustment)

/-- `/rerate/apply`. -/
def applyRerate (catalog : Loader.PricingCatalog) (s : Keyspace) (tenantId : Option String)
    (req : ReRateRequest) (tenantKeys legacyKeys : List String) : Option (Keyspace × RerateReply) :=
  if assertFlatRerate catalog req.modelId then
    let (s', applied, total) :=
      (modelRows s tenantId req.modelId tenantKeys legacyKeys).foldl (applyRow tenantId req) (s, 0, 0)
    some (s', ⟨req.modelId, applied, roundDigits 4 total⟩)
  else none

/-- What `/rerate/apply` moves for a row: nothing below a tenth of a cent. -/
def movedFor (req : ReRateRequest) (row : ModelUsageRow) : ℚ :=
  if |adjustmentOf req row| < 1 / 1000 then 0 else adjustmentOf req row

def changedRows (req : ReRateRequest) (rows : List ModelUsageRow) : List ModelUsageRow :=
  rows.filter fun row => ¬|adjustmentOf req row| < 1 / 1000

theorem movedFor_of_changed {req : ReRateRequest} {rows : List ModelUsageRow} {row : ModelUsageRow}
    (h : row ∈ changedRows req rows) : movedFor req row = adjustmentOf req row :=
  if_neg (of_decide_eq_true (List.mem_filter.mp h).2)

/-! ### The loop -/

section Loop
variable {tenantId : Option String} {req : ReRateRequest}

theorem usage_adjustBalance (r : Redis) (key : BudgetKey) (q : ℚ) :
    (adjustBalance r key q).usage = r.usage := by
  unfold adjustBalance
  split_ifs
  · rfl
  · rfl

/-- A balance that exists moves; no budget appears or goes away. -/
theorem budgets_adjustBalance (r : Redis) (key k : BudgetKey) (q : ℚ) :
    (adjustBalance r key q).budgets k = { r.budgets k with
      balanceUsd := (r.budgets k).balanceUsd.map fun b => b - if k = key then q else 0 } := by
  have hsame : (r.budgets k).balanceUsd.map (fun b => b - 0) = (r.budgets k).balanceUsd := by
    simp
  unfold adjustBalance
  by_cases hk : k = key
  · subst hk
    simp only [if_true]
    cases hbalance : (r.budgets k).balanceUsd with
    | none =>
      rw [Option.isSome_none, if_neg (by simp), Option.map_none, ← hbalance]
    | some b =>
      rw [Option.isSome_some, if_pos rfl, Redis.setBudget_self, Option.map_some, sub_eq_add_neg]
      rfl
  · simp only [if_neg hk, hsame]
    split_ifs
    · exact Redis.setBudget_ne _ _ hk
    · rfl

theorem budgetPrefixForRead_adjustBalance (r : Redis) (key : BudgetKey) (q : ℚ) (t : Option String)
    (c : String) :
    budgetPrefixForRead (adjustBalance r key q) t c = budgetPrefixForRead r t c := by
  unfold budgetPrefixForRead BudgetRow.present
  simp only [budgets_adjustBalance, Option.isSome_map]

theorem number_floats_incrByFloat (u : UsageStore) (key k : String) (q : ℚ) :
    number ((u.incrByFloat k q).floats key) = number (u.floats key) + if k = key then q else 0 := by
  unfold UsageStore.incrByFloat
  dsimp only
  by_cases hk : k = key
  · subst hk
    rw [Function.update_self, if_pos rfl, number_incrByFloat]
  · rw [Function.update_of_ne (Ne.symm hk), if_neg hk, add_zero]

/-- What a row of an adjustment `q` adds to an amount. -/
def shareOf (tenantId : Option String) (key : String) (row : ModelUsageRow) (q : ℚ) : ℚ :=
  (if row.modelKey ++ ":cost_usd" = key then q else 0) +
    (if row.customerPrefix ++ ":cost_usd" = key then q else 0) +
    if Py.inTenant tenantId "global:total_cost_usd" = key then q else 0

theorem shareOf_zero (key : String) (row : ModelUsageRow) : shareOf tenantId key row 0 = 0 := by
  simp [shareOf]

theorem floats_adjustRow (s : Keyspace) (row : ModelUsageRow) (q : ℚ) (key : String) :
    number ((adjustRow s tenantId row q).usage.floats key) =
      number (s.usage.floats key) + shareOf tenantId key row q := by
  have husage : (adjustRow s tenantId row q).usage =
      applyModelCostAdjustment s.usage tenantId row.modelKey row.customerPrefix q :=
    usage_adjustBalance _ _ _
  rw [husage]
  unfold applyModelCostAdjustment shareOf
  rw [number_floats_incrByFloat, number_floats_incrByFloat, number_floats_incrByFloat]
  ring

theorem budgets_adjustRow (s : Keyspace) (row : ModelUsageRow) (q : ℚ) (k : BudgetKey) :
    (adjustRow s tenantId row q).budgets k = { s.budgets k with
      balanceUsd := (s.budgets k).balanceUsd.map fun b =>
        b - if k = budgetPrefixForRead s.toRedis tenantId row.customerId then q else 0 } :=
  budgets_adjustBalance _ _ _ _

theorem budgetPrefixForRead_adjustRow (s : Keyspace) (row : ModelUsageRow) (q : ℚ) (c : String) :
    budgetPrefixForRead (adjustRow s tenantId row q).toRedis tenantId c =
      budgetPrefixForRead s.toRedis tenantId c :=
  budgetPrefixForRead_adjustBalance _ _ _ _ _

theorem applyRow_skipped {row : ModelUsageRow} (h : |adjustmentOf req row| < 1 / 1000)
    (acc : Keyspace × ℕ × ℚ) : applyRow tenantId req acc row = acc := if_pos h

theorem applyRow_changed {row : ModelUsageRow} (h : ¬|adjustmentOf req row| < 1 / 1000)
    (s : Keyspace) (applied : ℕ) (total : ℚ) :
    applyRow tenantId req (s, applied, total) row =
      (adjustRow s tenantId row (adjustmentOf req row), applied + 1, total + adjustmentOf req row) :=
  if_neg h

/-- The loop counts the rows that are not skipped and adds them up. -/
theorem counts_foldl_applyRow (rows : List ModelUsageRow) (s : Keyspace) (applied : ℕ) (total : ℚ) :
    (rows.foldl (applyRow tenantId req) (s, applied, total)).2 =
      (applied + (changedRows req rows).length,
        total + ((changedRows req rows).map (adjustmentOf req)).sum) := by
  induction rows generalizing s applied total with
  | nil => simp [changedRows]
  | cons row rows ih =>
    rw [List.foldl_cons]
    by_cases hskip : |adjustmentOf req row| < 1 / 1000
    · have hchanged : changedRows req (row :: rows) = changedRows req rows :=
        List.filter_cons_of_neg (by simpa using hskip)
      rw [applyRow_skipped hskip, hchanged]
      exact ih s applied total
    · have hchanged : changedRows req (row :: rows) = row :: changedRows req rows :=
        List.filter_cons_of_pos (by simpa using hskip)
      rw [applyRow_changed hskip, hchanged, ih, List.length_cons, List.map_cons, List.sum_cons,
        add_assoc, add_assoc, add_comm 1 (changedRows req rows).length]

theorem floats_foldl_applyRow (rows : List ModelUsageRow) (s : Keyspace) (applied : ℕ) (total : ℚ)
    (key : String) :
    number ((rows.foldl (applyRow tenantId req) (s, applied, total)).1.usage.floats key) =
      number (s.usage.floats key) +
        (rows.map fun row => shareOf tenantId key row (movedFor req row)).sum := by
  induction rows generalizing s applied total with
  | nil => simp
  | cons row rows ih =>
    rw [List.foldl_cons, List.map_cons, List.sum_cons]
    by_cases hskip : |adjustmentOf req row| < 1 / 1000
    · have hmoved : movedFor req row = 0 := if_pos hskip
      rw [applyRow_skipped hskip, ih, hmoved, shareOf_zero, zero_add]
    · have hmoved : movedFor req row = adjustmentOf req row := if_neg hskip
      rw [applyRow_changed hskip, ih, floats_adjustRow, hmoved, add_assoc]

/-- The loop takes the adjustment of a customer from the budget that the customer reads. -/
theorem budgets_foldl_applyRow (rows : List ModelUsageRow) (s : Keyspace) (applied : ℕ) (total : ℚ)
    (k : BudgetKey) :
    (rows.foldl (applyRow tenantId req) (s, applied, total)).1.budgets k = { s.budgets k with
      balanceUsd := (s.budgets k).balanceUsd.map fun b =>
        b - (rows.map fun row =>
          if k = budgetPrefixForRead s.toRedis tenantId row.customerId then movedFor req row
          else 0).sum } := by
  induction rows generalizing s applied total with
  | nil => simp
  | cons row rows ih =>
    rw [List.foldl_cons, List.map_cons, List.sum_cons]
    by_cases hskip : |adjustmentOf req row| < 1 / 1000
    · have hmoved : movedFor req row = 0 := if_pos hskip
      rw [applyRow_skipped hskip, ih, hmoved, ite_self, zero_add]
    · have hmoved : movedFor req row = adjustmentOf req row := if_neg hskip
      rw [applyRow_changed hskip, ih, hmoved, budgets_adjustRow, Option.map_map]
      simp only [budgetPrefixForRead_adjustRow]
      congr 2
      funext b
      exact sub_sub _ _ _

end Loop

/-! ### What the loop moves -/

/-- Rows of different customers, each with the keys of its customer. -/
structure RowsOf (m : String) (rows : List ModelUsageRow) : Prop where
  nodup : (rows.map ModelUsageRow.customerId).Nodup
  keyed : ∀ row ∈ rows, NoColon row.customerId ∧ ∃ scope : Option String,
    (∀ t ∈ scope, NoColon t) ∧ row.customerPrefix = familyKey scope row.customerId ∧
      row.modelKey = familyKey scope row.customerId ++ ":model:" ++ m

/-- Each row moves the amounts of its model and of its customer and, the other way, the budget that
the customer reads, if it has a balance; the total moves by all of them, and nothing else does. -/
structure Moved (tenantId : Option String) (req : ReRateRequest) (rows : List ModelUsageRow)
    (s s' : Keyspace) : Prop where
  model : ∀ row ∈ rows, number (s'.usage.floats (row.modelKey ++ ":cost_usd")) =
    number (s.usage.floats (row.modelKey ++ ":cost_usd")) + movedFor req row
  customer : ∀ row ∈ rows, number (s'.usage.floats (row.customerPrefix ++ ":cost_usd")) =
    number (s.usage.floats (row.customerPrefix ++ ":cost_usd")) + movedFor req row
  global : number (s'.usage.floats (Py.inTenant tenantId "global:total_cost_usd")) =
    number (s.usage.floats (Py.inTenant tenantId "global:total_cost_usd")) +
      (rows.map (movedFor req)).sum
  other : ∀ key, key ≠ Py.inTenant tenantId "global:total_cost_usd" →
    (∀ row ∈ rows, key ≠ row.modelKey ++ ":cost_usd" ∧ key ≠ row.customerPrefix ++ ":cost_usd") →
    number (s'.usage.floats key) = number (s.usage.floats key)
  budget : ∀ row ∈ rows, ∀ k, k = budgetPrefixForRead s.toRedis tenantId row.customerId →
    s'.budgets k = { s.budgets k with
      balanceUsd := (s.budgets k).balanceUsd.map fun b => b - movedFor req row }
  otherBudget : ∀ k, (∀ row ∈ rows, k ≠ budgetPrefixForRead s.toRedis tenantId row.customerId) →
    s'.budgets k = s.budgets k

theorem budgetPrefixForRead_customer (r : Redis) (t : Option String) (c : String) :
    (budgetPrefixForRead r t c).customer = c := by
  unfold budgetPrefixForRead
  dsimp only
  repeat' split
  all_goals rfl

section Moved
variable {tenantId : Option String} {req : ReRateRequest} {m : String} {rows : List ModelUsageRow}
variable {row row' : ModelUsageRow}

/-- Rows of different customers read different budgets. -/
theorem sum_movedFor_read (hnodup : (rows.map ModelUsageRow.customerId).Nodup) (hrow : row ∈ rows)
    (r : Redis) :
    (rows.map fun row' => if budgetPrefixForRead r tenantId row.customerId =
      budgetPrefixForRead r tenantId row'.customerId then movedFor req row' else 0).sum =
      movedFor req row := by
  rw [← sum_map_ite_key hnodup hrow (movedFor req)]
  refine congrArg List.sum (List.map_congr_left fun row' hrow' => if_congr ?_ rfl rfl)
  constructor
  · intro heq
    have hname := congrArg BudgetKey.customer heq
    rw [budgetPrefixForRead_customer, budgetPrefixForRead_customer] at hname
    exact hname.symm
  · intro heq
    rw [heq]

theorem sum_movedFor_unread {r : Redis} {k : BudgetKey}
    (hk : ∀ row ∈ rows, k ≠ budgetPrefixForRead r tenantId row.customerId) :
    (rows.map fun row => if k = budgetPrefixForRead r tenantId row.customerId then
      movedFor req row else 0).sum = 0 := by
  apply List.sum_eq_zero
  intro q hq
  obtain ⟨row, hrow, rfl⟩ := List.mem_map.mp hq
  exact if_neg (hk row hrow)

/-- A customer has one row. -/
theorem nodup_modelRows (s : Keyspace) (tenantId : Option String) (modelId : String)
    (tenantKeys legacyKeys : List String) :
    ((modelRows s tenantId modelId tenantKeys legacyKeys).map ModelUsageRow.customerId).Nodup := by
  let table := iterModelUsageRows s tenantId modelId tenantKeys legacyKeys
  have hentry : ∀ (isTenantPattern : Bool) (keys : List String), ∀ key ∈ keys, ∀ c row,
      modelUsageRow s modelId isTenantPattern key = some (c, row) → row.customerId = c := by
    intro isTenantPattern keys key _ c row hrow
    obtain ⟨parsed, -, heq⟩ := Option.map_eq_some_iff.mp hrow
    obtain ⟨rfl, rfl⟩ := Prod.mk.inj heq
    rfl
  have hget : ∀ c row, table.get c = some row → row.customerId = c := by
    refine Table.complete_forall (fun c row hrow => ?_) (hentry false legacyKeys)
    split_ifs at hrow
    · exact Table.gather_forall (hentry true tenantKeys) c row hrow
    · cases hrow
  have hnames : (table.rows.reverse.map Prod.snd).map ModelUsageRow.customerId =
      (table.rows.map Prod.fst).reverse := by
    rw [List.map_map, ← List.map_reverse]
    refine List.map_congr_left fun p hp => hget p.1 p.2 ?_
    exact (table.get_eq_some_iff p.1 p.2).mpr (List.mem_reverse.mp hp)
  unfold modelRows
  exact hnames ▸ List.nodup_reverse.mpr table.nodup

theorem RowsOf.eq_of_customer (h : RowsOf m rows) (hrow : row ∈ rows) (hrow' : row' ∈ rows)
    (hc : row'.customerId = row.customerId) : row' = row :=
  List.inj_on_of_nodup_map h.nodup hrow' hrow hc

theorem modelKey_cost (scope : Option String) (c m : String) :
    familyKey scope c ++ ":model:" ++ m ++ ":cost_usd" = modelCounterKey scope c m "cost_usd" := by
  have hlast : ":cost_usd" = ":" ++ "cost_usd" := rfl
  unfold modelCounterKey
  rw [familyKey_append, familyKey_append, hlast, ← String.append_assoc]

theorem RowsOf.modelKey_iff (h : RowsOf m rows) (hrow : row ∈ rows) (hrow' : row' ∈ rows) :
    row'.modelKey ++ ":cost_usd" = row.modelKey ++ ":cost_usd" ↔ row'.customerId = row.customerId := by
  obtain ⟨hc, scope, hscope, -, hkey⟩ := h.keyed row hrow
  obtain ⟨hc', scope', hscope', -, hkey'⟩ := h.keyed row' hrow'
  constructor
  · intro heq
    rw [hkey, hkey', modelKey_cost, modelKey_cost] at heq
    exact (modelCounterKey_inj hscope' hscope hc' hc (by decide) (by decide) heq).2.1
  · intro heq
    rw [h.eq_of_customer hrow hrow' heq]

theorem RowsOf.customerKey_iff (h : RowsOf m rows) (hrow : row ∈ rows) (hrow' : row' ∈ rows) :
    row'.customerPrefix ++ ":cost_usd" = row.customerPrefix ++ ":cost_usd" ↔
      row'.customerId = row.customerId := by
  obtain ⟨-, scope, hscope, hkey, -⟩ := h.keyed row hrow
  obtain ⟨-, scope', hscope', hkey', -⟩ := h.keyed row' hrow'
  constructor
  · intro heq
    rw [hkey, hkey'] at heq
    exact (familyKey_inj hscope' hscope ((String.append_left_inj _).mp heq)).2
  · intro heq
    rw [h.eq_of_customer hrow hrow' heq]

theorem RowsOf.modelKey_ne (h : RowsOf m rows) (hrow : row ∈ rows) (hrow' : row' ∈ rows) :
    row.modelKey ++ ":cost_usd" ≠ row'.customerPrefix ++ ":cost_usd" := by
  obtain ⟨-, scope, hscope, -, hkey⟩ := h.keyed row hrow
  obtain ⟨hc', scope', hscope', hkey', -⟩ := h.keyed row' hrow'
  intro heq
  rw [hkey, hkey', String.append_left_inj, familyKey_append, familyKey_append] at heq
  have hname := (familyKey_inj hscope hscope' heq).2
  refine absurd ?_ hc'
  rw [← hname]
  simp [String.toList_append]

theorem RowsOf.global_ne (h : RowsOf m rows) (htenant : ∀ t ∈ tenantId, NoColon t)
    (hrow : row ∈ rows) :
    Py.inTenant tenantId "global:total_cost_usd" ≠ row.modelKey ++ ":cost_usd" ∧
      Py.inTenant tenantId "global:total_cost_usd" ≠ row.customerPrefix ++ ":cost_usd" := by
  obtain ⟨-, scope, hscope, hkey, hmodel⟩ := h.keyed row hrow
  have hhead : headOf "global:total_cost_usd" = some 'g' := rfl
  have hne : ∀ x, Py.inTenant tenantId "global:total_cost_usd" ≠ familyKey scope x := by
    intro x
    unfold Py.inTenant
    cases tenantId with
    | none => exact bareKey_ne_familyKey hhead (by decide) x
    | some t =>
      dsimp only
      split_ifs
      · exact tenantKey_ne_familyKey (htenant t rfl) hscope hhead (by decide) x
      · exact bareKey_ne_familyKey hhead (by decide) x
  rw [hmodel, hkey, familyKey_append, familyKey_append, familyKey_append]
  rw [familyKey_append]
  exact ⟨hne _, hne _⟩

theorem moved_foldl_applyRow (h : RowsOf m rows) (htenant : ∀ t ∈ tenantId, NoColon t)
    (s : Keyspace) :
    Moved tenantId req rows s (rows.foldl (applyRow tenantId req) (s, 0, 0)).1 := by
  constructor
  case model =>
    intro row hrow
    rw [floats_foldl_applyRow]
    congr 1
    rw [← sum_map_ite_key h.nodup hrow (movedFor req)]
    refine congrArg List.sum (List.map_congr_left fun row' hrow' => ?_)
    unfold shareOf
    rw [if_neg (h.modelKey_ne hrow hrow').symm, if_neg (h.global_ne htenant hrow).1, add_zero,
      add_zero]
    exact if_congr (h.modelKey_iff hrow hrow') rfl rfl
  case customer =>
    intro row hrow
    rw [floats_foldl_applyRow]
    congr 1
    rw [← sum_map_ite_key h.nodup hrow (movedFor req)]
    refine congrArg List.sum (List.map_congr_left fun row' hrow' => ?_)
    unfold shareOf
    rw [if_neg (h.modelKey_ne hrow' hrow), if_neg (h.global_ne htenant hrow).2, add_zero, zero_add]
    exact if_congr (h.customerKey_iff hrow hrow') rfl rfl
  case global =>
    rw [floats_foldl_applyRow]
    congr 1
    refine congrArg List.sum (List.map_congr_left fun row' hrow' => ?_)
    unfold shareOf
    rw [if_neg (h.global_ne htenant hrow').1.symm, if_neg (h.global_ne htenant hrow').2.symm,
      if_pos rfl, zero_add, zero_add]
  case other =>
    intro key hglobal hrows
    have hnone : (rows.map fun row => shareOf tenantId key row (movedFor req row)).sum = 0 := by
      apply List.sum_eq_zero
      intro q hq
      obtain ⟨row, hrow, rfl⟩ := List.mem_map.mp hq
      unfold shareOf
      rw [if_neg (hrows row hrow).1.symm, if_neg (hrows row hrow).2.symm, if_neg hglobal.symm,
        add_zero, add_zero]
    rw [floats_foldl_applyRow, hnone, add_zero]
  case budget =>
    rintro row hrow k rfl
    rw [budgets_foldl_applyRow]
    rw [sum_movedFor_read h.nodup hrow]
  case otherBudget =>
    intro k hk
    rw [budgets_foldl_applyRow, sum_movedFor_unread hk]
    simp

end Moved

end FluxMeter.Usage
