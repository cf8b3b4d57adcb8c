import FluxMeter.Budget.Reservation

/-! `Budget.configure`, `Budget.top_up` and `Budget.snapshot` of `budget.py`. A call that raises
writes nothing. -/
namespace FluxMeter.Budget
open FluxMeter.Keys

/-- `Budget.configure`; `none` is `InvalidBudget`. -/
def configure (r : Redis) (tenantId : Option String) (customerId : String) (balanceUsd : ℚ)
    (alertThresholdUsd : Option ℚ) (maxRpm : Option ℤ) : Option Redis :=
  if balanceUsd < 0 then none
  else if alertThresholdUsd.any (· < 0) then none
  else if maxRpm.any (· < 0) then none
  else
    some (r.setBudget (budgetPrefix (stripTenant tenantId) customerId)
      { balanceUsd := some balanceUsd
        initialBalanceUsd := some balanceUsd
        heldUsd := some 0
        debtUsd := some 0
        totalDeductedUsd := some 0
        totalTopupUsd := some 0
        alertThresholdUsd := alertThresholdUsd
        maxRpm := maxRpm })

/-- The keys `top_up` copies when a tenant still reads the legacy budget. -/
def migrate (legacy target : BudgetRow) : BudgetRow :=
  { balanceUsd := legacy.balanceUsd <|> target.balanceUsd
    heldUsd := legacy.heldUsd <|> target.heldUsd
    debtUsd := legacy.debtUsd <|> target.debtUsd
    initialBalanceUsd := legacy.initialBalanceUsd <|> target.initialBalanceUsd
    totalTopupUsd := legacy.totalTopupUsd <|> target.totalTopupUsd
    totalDeductedUsd := legacy.totalDeductedUsd <|> target.totalDeductedUsd
    alertThresholdUsd := legacy.alertThresholdUsd <|> target.alertThresholdUsd
    maxRpm := legacy.maxRpm <|> target.maxRpm }

/-- `INCRBYFLOAT` of the balance and of the top-up total. -/
def BudgetRow.topUp (row : BudgetRow) (amountUsd : ℚ) : BudgetRow :=
  { row with
    balanceUsd := incrByFloat row.balanceUsd amountUsd
    totalTopupUsd := incrByFloat row.totalTopupUsd amountUsd }

inductive TopUpError
  | invalidBudget
  | budgetNotFound
  deriving DecidableEq, Repr

/-- `Budget.top_up`; returns the new balance. -/
def topUp (r : Redis) (tenantId : Option String) (customerId : String) (amountUsd : ℚ) :
    Except TopUpError (Redis × ℚ) :=
  let tenant := stripTenant tenantId
  if amountUsd ≤ 0 then .error .invalidBudget
  else
    let readKey := budgetPrefixForRead r tenant customerId
    let writeKey := budgetPrefix tenant customerId
    match (r.budgets readKey).balanceUsd with
    | none => .error .budgetNotFound
    | some _ =>
      let row :=
        if readKey ≠ writeKey ∧ (r.budgets writeKey).balanceUsd.isNone then
          migrate (r.budgets readKey) (r.budgets writeKey)
        else r.budgets writeKey
      let row' := row.topUp amountUsd
      .ok (r.setBudget writeKey row', number row'.balanceUsd)

structure Snapshot where
  customerId : String
  balanceUsd : ℚ
  heldUsd : ℚ
  effectiveBalanceUsd : ℚ
  debtUsd : ℚ
  alertThresholdUsd : Option ℚ
  isExhausted : Bool
  deriving DecidableEq, Repr

/-- The snapshot of one row; a row without a balance has none. -/
def BudgetRow.snapshot (row : BudgetRow) (customerId : String) : Option Snapshot :=
  row.balanceUsd.map fun balance =>
    { customerId
      balanceUsd := balance
      heldUsd := number row.heldUsd
      effectiveBalanceUsd := balance - number row.heldUsd
      debtUsd := number row.debtUsd
      alertThresholdUsd := row.alertThresholdUsd
      isExhausted := balance ≤ 0 }

/-- `Budget.snapshot`. -/
def snapshot (r : Redis) (tenantId : Option String) (customerId : String) : Option Snapshot :=
  (r.budgets (budgetPrefixForRead r (stripTenant tenantId) customerId)).snapshot customerId

/-- All a granted top-up can do: write one row, its own, or a copy of the legacy budget over
one without a balance. -/
theorem topUp_cases {r r' : Redis} {t : Option String} {c : String} {amount newBalance : ℚ}
    (h : topUp r t c amount = .ok (r', newBalance)) :
    0 < amount ∧ ∃ row : BudgetRow,
      r' = r.setBudget (budgetPrefix (stripTenant t) c) (row.topUp amount) ∧
      (row = r.budgets (budgetPrefix (stripTenant t) c) ∨
        (r.budgets (budgetPrefix (stripTenant t) c)).balanceUsd = none ∧
        row = migrate (r.budgets (budgetPrefixForRead r (stripTenant t) c))
          (r.budgets (budgetPrefix (stripTenant t) c))) := by
  unfold topUp at h
  dsimp only at h
  by_cases hpos : amount ≤ 0
  · rw [if_pos hpos] at h; simp at h
  · rw [if_neg hpos] at h
    cases hread : (r.budgets (budgetPrefixForRead r (stripTenant t) c)).balanceUsd with
    | none => rw [hread] at h; simp at h
    | some balance =>
      rw [hread] at h
      simp only [Except.ok.injEq, Prod.mk.injEq] at h
      refine ⟨not_le.mp hpos, _, h.1.symm, ?_⟩
      split_ifs with hmove
      · exact .inr ⟨Option.isNone_iff_eq_none.mp hmove.2, rfl⟩
      · exact .inl rfl

/-- All a configure can do: refuse, or write a row without holds. -/
theorem configure_cases {r r' : Redis} {t : Option String} {c : String} {balance : ℚ}
    {alert : Option ℚ} {rpm : Option ℤ} (h : configure r t c balance alert rpm = some r') :
    0 ≤ balance ∧ ∃ row : BudgetRow, row.balanceUsd = some balance ∧ row.heldUsd = some 0 ∧
      r' = r.setBudget (budgetPrefix (stripTenant t) c) row := by
  unfold configure at h
  split_ifs at h with hneg
  exact ⟨not_lt.mp hneg, _, rfl, rfl, (Option.some.inj h).symm⟩

end FluxMeter.Budget
