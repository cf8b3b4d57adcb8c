import FluxMeter.Budget.Settlement

/-! Whether a window is charged to the budget that admission reads. The readers pick the key from
the keys that exist, the window sink builds it from the event's tenant. -/
namespace FluxMeter.Budget
open FluxMeter.Keys FluxMeter.Model

/-- The cost left the balance, or brought it to zero with the rest recorded as debt. -/
def Charged (costUsd : ℚ) (before after : Snapshot) : Prop :=
  (after.balanceUsd = before.balanceUsd - costUsd ∧ after.debtUsd = before.debtUsd) ∨
    (before.balanceUsd < costUsd ∧ after.balanceUsd = 0 ∧
      after.debtUsd = before.debtUsd + (costUsd - before.balanceUsd))

section Window
variable {r : Redis} {k : SinkKeys} {a : SinkArgs} {b : BudgetKey}

theorem releaseHold_heldUsd_isSome (r : Redis) (k : BudgetKey) (span : Option SpanKey) (q : ℚ)
    (b : BudgetKey) :
    ((releaseHold r k span q).1.budgets b).heldUsd.isSome = (r.budgets b).heldUsd.isSome := by
  unfold releaseHold
  dsimp only
  rw [(releaseSpan_frame _ span _).1]
  split_ifs with hpos
  · by_cases hb : b = k
    · subst hb
      have hheld : (r.budgets b).heldUsd ≠ none := by
        intro hnone
        have hzero : r.held b = 0 := by simp [Redis.held, hnone]
        rw [hzero] at hpos
        exact absurd (lt_of_lt_of_le hpos (min_le_left 0 q)) (lt_irrefl 0)
      rw [Redis.incrHeld, Redis.setBudget_self, Option.isSome_iff_ne_none.mpr hheld]
      rfl
    · rw [Redis.incrHeld, Redis.setBudget_ne _ _ hb]
  · rfl

private theorem settleWindow_heldUsd_isSome (r : Redis) (k : SinkKeys) (b : BudgetKey) :
    ((settleWindow r k).budgets b).heldUsd.isSome = (r.budgets b).heldUsd.isSome := by
  unfold settleWindow
  refine List.foldlRecOn (motive := fun s : Redis =>
    (s.budgets b).heldUsd.isSome = (r.budgets b).heldUsd.isSome) _ _ rfl fun s hs rid _ => ?_
  have hone := releaseHold_heldUsd_isSome s k.budget ((s.reservations.get rid).bind sinkSpan)
    (((s.reservations.get rid).map ReservationRecord.reservedUsd).getD 0) b
  exact hone.trans hs

theorem sinkScript_present (r : Redis) (k : SinkKeys) (a : SinkArgs) (b : BudgetKey) :
    ((sinkScript r k a).1.budgets b).present = (r.budgets b).present := by
  have hset : ((settleWindow (recordWindow r k a) k).budgets b).present = (r.budgets b).present := by
    unfold BudgetRow.present
    rw [settleWindow_heldUsd_isSome, (settleWindow_removes _ k).balances, recordWindow_budgets]
  rcases sinkScript_cases r k a with ⟨-, h⟩ | ⟨-, -, h⟩ | ⟨balance, -, hsome, h⟩
  · rw [h]
  · rw [h]
    exact hset
  · rw [h]
    by_cases hb : b = k.budget
    · subst hb
      have hafter : (((settleWindow (recordWindow r k a) k).budgets k.budget).deduct balance
          a.costUsd).present = true := by
        unfold BudgetRow.deduct BudgetRow.present
        split_ifs
        · rfl
        · rfl
      rw [Redis.setBudget_self, hafter]
      simp [BudgetRow.present, hsome]
    · rw [Redis.setBudget_ne _ _ hb]
      exact hset

theorem budgetPrefixForRead_sinkScript (r : Redis) (k : SinkKeys) (a : SinkArgs)
    (t : Option String) (c : String) :
    budgetPrefixForRead (sinkScript r k a).1 t c = budgetPrefixForRead r t c := by
  unfold budgetPrefixForRead
  dsimp only
  rw [sinkScript_present, sinkScript_present]

theorem sinkScript_heldUsd (a : SinkArgs) (hnone : r.windowReservations k.windowId = [])
    (b : BudgetKey) : ((sinkScript r k a).1.budgets b).heldUsd = (r.budgets b).heldUsd := by
  have hset : ((settleWindow (recordWindow r k a) k).budgets b).heldUsd =
      (r.budgets b).heldUsd := by
    have hempty : (recordWindow r k a).windowReservations k.windowId = [] := hnone
    unfold settleWindow
    rw [hempty]
    dsimp only [List.foldl_nil]
    rw [recordWindow_budgets]
  rcases sinkScript_cases r k a with ⟨-, h⟩ | ⟨-, -, h⟩ | ⟨balance, -, -, h⟩
  · rw [h]
  · rw [h]
    exact hset
  · rw [h]
    by_cases hb : b = k.budget
    · subst hb
      rw [Redis.setBudget_self, ← hset]
      unfold BudgetRow.deduct
      split_ifs
      · rfl
      · rfl
    · rw [Redis.setBudget_ne _ _ hb]
      exact hset

theorem sinkScript_charged {c : String} {before : Snapshot}
    (hfresh : r.applied k.windowId = false)
    (hbefore : (r.budgets k.budget).snapshot c = some before) :
    ∃ after, ((sinkScript r k a).1.budgets k.budget).snapshot c = some after ∧
      Charged a.costUsd before after := by
  unfold BudgetRow.snapshot at hbefore
  obtain ⟨balance, hsome, hvalues⟩ := Option.map_eq_some_iff.mp hbefore
  have hbalance : before.balanceUsd = balance := by rw [← hvalues]
  have hdebt : before.debtUsd = number (r.budgets k.budget).debtUsd := by rw [← hvalues]
  rcases sinkScript_row_self r k a with ⟨happ, -⟩ | ⟨-, hnone, -⟩ | ⟨balance', held, -, hsome', hrow⟩
  · rw [hfresh] at happ
    cases happ
  · rw [hnone] at hsome
    cases hsome
  · rw [hsome, Option.some.injEq] at hsome'
    subst hsome'
    rw [hrow]
    unfold BudgetRow.deduct BudgetRow.recorded
    by_cases hover : balance - a.costUsd < 0
    · rw [if_pos hover]
      refine ⟨_, rfl, .inr ⟨by linarith, rfl, ?_⟩⟩
      dsimp only
      rw [number_incrByFloat, hdebt, hbalance]
      ring
    · rw [if_neg hover]
      refine ⟨_, rfl, .inl ⟨?_, ?_⟩⟩
      · dsimp only
        rw [hbalance]
      · dsimp only
        rw [hdebt]

theorem sinkScript_uncharged {c : String} {before : Snapshot} (hb : b ≠ k.budget)
    (hbefore : (r.budgets b).snapshot c = some before) :
    ∃ after, ((sinkScript r k a).1.budgets b).snapshot c = some after ∧
      after.balanceUsd = before.balanceUsd ∧ after.debtUsd = before.debtUsd := by
  obtain ⟨hbalance, hdebt⟩ := sinkScript_other (r := r) a hb
  unfold BudgetRow.snapshot at hbefore ⊢
  obtain ⟨balance, hsome, hvalues⟩ := Option.map_eq_some_iff.mp hbefore
  rw [hbalance, hsome, hdebt]
  refine ⟨_, rfl, ?_, ?_⟩
  · rw [← hvalues]
  · rw [← hvalues]

end Window

/-- The effective balance fell by the cost of a window without reservations, unless the balance did
not cover it and the rest is debt; reservations that the window settles give back their holds. -/
def ChargedEffective (r : Redis) (agg : UsageAggregate) (before after : Snapshot) : Prop :=
  Charged agg.getCostUsd before after ∧
    (r.windowReservations (sinkKeys agg).windowId = [] →
      agg.getCostUsd ≤ before.balanceUsd →
      after.effectiveBalanceUsd = before.effectiveBalanceUsd - agg.getCostUsd)

theorem snapshot_effective {row : BudgetRow} {c : String} {s : Snapshot}
    (h : row.snapshot c = some s) : s.effectiveBalanceUsd = s.balanceUsd - number row.heldUsd := by
  unfold BudgetRow.snapshot at h
  obtain ⟨balance, -, hs⟩ := Option.map_eq_some_iff.mp h
  rw [← hs]

theorem chargedEffective_of_charged {r : Redis} {agg : UsageAggregate} {c : String}
    {before after : Snapshot} {b : BudgetKey} (hbefore : (r.budgets b).snapshot c = some before)
    (hafter : ((invoke r agg).1.budgets b).snapshot c = some after)
    (h : Charged agg.getCostUsd before after) : ChargedEffective r agg before after := by
  refine ⟨h, fun hnone hcovered => ?_⟩
  have hheld : ((invoke r agg).1.budgets b).heldUsd = (r.budgets b).heldUsd :=
    sinkScript_heldUsd (sinkArgs agg) hnone b
  rw [snapshot_effective hafter, snapshot_effective hbefore, hheld]
  rcases h with ⟨hpaid, -⟩ | ⟨hlow, -, -⟩
  · rw [hpaid]
    ring
  · linarith

/-- For every tenant and customer with a budget, the first application of a window of that tenant's
customer charges the budget that check and open read, exactly if the readers resolve to the key
that the sink builds or the window costs nothing. -/
theorem charged_iff {r : Redis} {agg : UsageAggregate} {c : String} {before : Snapshot}
    (hcustomer : agg.customerId = some c) (hfresh : r.applied (sinkKeys agg).windowId = false)
    (hbefore : snapshot r agg.tenantId c = some before) :
    (∃ after, snapshot (invoke r agg).1 agg.tenantId c = some after ∧
        ChargedEffective r agg before after) ↔
      budgetPrefixForRead r (stripTenant agg.tenantId) c =
          ⟨if hasTenant agg.tenantId then agg.tenantId else none, c⟩ ∨
        agg.getCostUsd = 0 := by
  have hkey : (sinkKeys agg).budget = ⟨if hasTenant agg.tenantId then agg.tenantId else none, c⟩ := by
    simp [sinkKeys, hcustomer, TokenEvent.orNull]
  have hread : snapshot (invoke r agg).1 agg.tenantId c =
      ((invoke r agg).1.budgets (budgetPrefixForRead r (stripTenant agg.tenantId) c)).snapshot c := by
    unfold snapshot invoke
    rw [budgetPrefixForRead_sinkScript]
  rw [hread, ← hkey]
  unfold snapshot at hbefore
  by_cases hsame : budgetPrefixForRead r (stripTenant agg.tenantId) c = (sinkKeys agg).budget
  · rw [hsame] at hbefore ⊢
    obtain ⟨after, hafter, hcharged⟩ := sinkScript_charged (a := sinkArgs agg) hfresh hbefore
    exact iff_of_true ⟨after, hafter, chargedEffective_of_charged hbefore hafter hcharged⟩ (.inl rfl)
  · obtain ⟨after, hafter, hbalance, hdebt⟩ :=
      sinkScript_uncharged (a := sinkArgs agg) hsame hbefore
    constructor
    · rintro ⟨after', hafter', hcharged, -⟩
      have heq : after' = after := Option.some.inj (hafter'.symm.trans hafter)
      rw [heq] at hcharged
      right
      rcases hcharged with ⟨hpaid, -⟩ | ⟨hlow, -, hdue⟩
      · linarith
      · linarith
    · rintro (heq | hzero)
      · exact absurd heq hsame
      · refine ⟨after, hafter, chargedEffective_of_charged hbefore hafter (.inl ⟨?_, hdebt⟩)⟩
        rw [hbalance, hzero, sub_zero]

def billedWindow : UsageAggregate :=
  { customerId := some "acme", tenantId := some "t", modelId := some "m", windowEnd := 10000,
    costMicro := 3000000 }

def ownBudget : Redis := (configure {} (some "t") "acme" 10 none none).getD {}

theorem charged_tenant :
    ∃ after, snapshot (invoke ownBudget billedWindow).1 (some "t") "acme" = some after ∧
      ChargedEffective ownBudget billedWindow ⟨"acme", 10, 0, 10, 0, none, false⟩ after := by
  have hbefore : snapshot ownBudget billedWindow.tenantId "acme" =
      some ⟨"acme", 10, 0, 10, 0, none, false⟩ := by decide +kernel
  have hfresh : ownBudget.applied (sinkKeys billedWindow).windowId = false := by decide +kernel
  exact (charged_iff rfl hfresh hbefore).mpr (.inl (by decide +kernel))

/-- A tenant that still reads the legacy budget is admitted on it, and its windows leave it as it
is. -/
theorem not_charged_legacy :
    snapshot ((configure {} none "acme" 10 none none).getD {}) (some "t") "acme" =
        some ⟨"acme", 10, 0, 10, 0, none, false⟩ ∧
      snapshot (invoke ((configure {} none "acme" 10 none none).getD {}) billedWindow).1
        (some "t") "acme" = some ⟨"acme", 10, 0, 10, 0, none, false⟩ ∧
      billedWindow.getCostUsd = 3 ∧
      ¬ Charged 3 ⟨"acme", 10, 0, 10, 0, none, false⟩ ⟨"acme", 10, 0, 10, 0, none, false⟩ := by
  refine ⟨by decide +kernel, by decide +kernel, by decide +kernel, ?_⟩
  unfold Charged
  decide +kernel

end FluxMeter.Budget
