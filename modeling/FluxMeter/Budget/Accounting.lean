import FluxMeter.Budget.Settlement
import FluxMeter.Transition.Runs

/-! The money counters of one budget under configures, top-ups and window applications: what was
put in, less what the windows cost, is the balance less the debt. -/
namespace FluxMeter.Budget
open FluxMeter.Keys Transition

/-- The store and what the windows applied to a budget have cost since its last configure; `none`
before the first one. -/
structure Books where
  redis : Redis
  deductedUsd : Option ℚ := none

inductive BooksOp
  | configure (tenantId : Option String) (customerId : String) (balanceUsd : ℚ)
      (alertThresholdUsd : Option ℚ) (maxRpm : Option ℤ)
  | topUp (tenantId : Option String) (customerId : String) (amountUsd : ℚ)
  | window (k : SinkKeys) (a : SinkArgs)

namespace Books
variable {b : BudgetKey} {s s' : Books}

def step (b : BudgetKey) (s : Books) : BooksOp → Option Books
  | .configure t c balance alert rpm =>
    match configure s.redis t c balance alert rpm with
    | none => some s
    | some r => some ⟨r, if budgetPrefix (stripTenant t) c = b then some 0 else s.deductedUsd⟩
  | .topUp t c amount =>
    match topUp s.redis t c amount with
    | .error _ => some s
    | .ok (r, _) => some { s with redis := r }
  | .window k a =>
    some ⟨(sinkScript s.redis k a).1,
      if k.budget = b ∧ s.redis.applied k.windowId = false then s.deductedUsd.map (· + a.costUsd)
      else s.deductedUsd⟩

/-- Costs are not negative, and a top-up of `b` finds the budget under its own key. -/
def Regular (b : BudgetKey) (s : Books) : BooksOp → Prop
  | .configure .. => True
  | .topUp t c _ => budgetPrefix (stripTenant t) c = b →
      budgetPrefixForRead s.redis (stripTenant t) c = b
  | .window k a => k.budget = b → 0 ≤ a.costUsd

instance : ∀ op, Decidable (Regular b s op)
  | .configure .. => isTrue trivial
  | .topUp t c _ => inferInstanceAs (Decidable (budgetPrefix (stripTenant t) c = b →
      budgetPrefixForRead s.redis (stripTenant t) c = b))
  | .window k a => inferInstanceAs (Decidable (k.budget = b → 0 ≤ a.costUsd))

/-- The accounting identity of `b`, with the counter of its deductions. -/
structure Accounted (b : BudgetKey) (s : Books) : Prop where
  identity : number (s.redis.budgets b).balanceUsd - number (s.redis.budgets b).debtUsd =
    number (s.redis.budgets b).initialBalanceUsd + number (s.redis.budgets b).totalTopupUsd -
      number s.deductedUsd
  balance_nonneg : 0 ≤ number (s.redis.budgets b).balanceUsd
  debt_nonneg : 0 ≤ number (s.redis.budgets b).debtUsd
  deducted : ∀ d, s.deductedUsd = some d → (s.redis.budgets b).totalDeductedUsd = some d
  configured : (s.redis.budgets b).balanceUsd.isSome ↔ s.deductedUsd.isSome

/-- Only the row of `b` and the deductions since its last configure matter. -/
theorem Accounted.of_money (h : Accounted b s)
    (hbalance : (s'.redis.budgets b).balanceUsd = (s.redis.budgets b).balanceUsd)
    (hdebt : (s'.redis.budgets b).debtUsd = (s.redis.budgets b).debtUsd)
    (hinitial : (s'.redis.budgets b).initialBalanceUsd = (s.redis.budgets b).initialBalanceUsd)
    (htopup : (s'.redis.budgets b).totalTopupUsd = (s.redis.budgets b).totalTopupUsd)
    (htotal : ∀ d, s.deductedUsd = some d →
      (s'.redis.budgets b).totalDeductedUsd = (s.redis.budgets b).totalDeductedUsd)
    (hdeducted : s'.deductedUsd = s.deductedUsd) : Accounted b s' where
  identity := by rw [hbalance, hdebt, hinitial, htopup, hdeducted]; exact h.identity
  balance_nonneg := by rw [hbalance]; exact h.balance_nonneg
  debt_nonneg := by rw [hdebt]; exact h.debt_nonneg
  deducted d hd := by
    rw [hdeducted] at hd
    rw [htotal d hd]
    exact h.deducted d hd
  configured := by rw [hbalance, hdeducted]; exact h.configured

theorem Accounted.of_row (h : Accounted b s) {r : Redis} (hrow : r.budgets b = s.redis.budgets b) :
    Accounted b { s with redis := r } := by
  apply h.of_money <;> simp [hrow]

theorem configure_accounted {t : Option String} {c : String} {balance : ℚ} {alert : Option ℚ}
    {rpm : Option ℤ} (h : Accounted b s)
    (hstep : step b s (.configure t c balance alert rpm) = some s') : Accounted b s' := by
  simp only [step] at hstep
  cases hconf : configure s.redis t c balance alert rpm with
  | none =>
    rw [hconf] at hstep
    exact Option.some.inj hstep ▸ h
  | some r =>
    rw [hconf] at hstep
    have hs' := Option.some.inj hstep
    unfold configure at hconf
    split_ifs at hconf with hneg
    have hr := Option.some.inj hconf
    by_cases hb : budgetPrefix (stripTenant t) c = b
    · rw [if_pos hb] at hs'
      rw [hb] at hr
      subst hs' hr
      constructor
      case identity => simp
      case balance_nonneg => simpa using hneg
      case debt_nonneg => simp
      case deducted => simp
      case configured => simp
    · rw [if_neg hb] at hs'
      subst hs'
      apply h.of_row
      rw [← hr, Redis.setBudget_ne _ _ (Ne.symm hb)]

private theorem topUp_accounted {t : Option String} {c : String} {amount : ℚ} (h : Accounted b s)
    (hok : Regular b s (.topUp t c amount)) (hstep : step b s (.topUp t c amount) = some s') :
    Accounted b s' := by
  simp only [step] at hstep
  cases htop : topUp s.redis t c amount with
  | error e =>
    rw [htop] at hstep
    exact Option.some.inj hstep ▸ h
  | ok p =>
    obtain ⟨r, newBalance⟩ := p
    rw [htop] at hstep
    have hs' := Option.some.inj hstep
    subst hs'
    obtain ⟨hpos, row, rfl, hrow⟩ := topUp_cases htop
    by_cases hb : budgetPrefix (stripTenant t) c = b
    · -- the read key is the own key, so the budget is there and nothing is copied
      have hread := hok hb
      have hsome : (s.redis.budgets b).balanceUsd ≠ none := by
        intro hnone
        unfold topUp at htop
        simp only [hread, hnone] at htop
        split_ifs at htop
      rw [hb] at hrow ⊢
      have hown : row = s.redis.budgets b := by
        rcases hrow with hown | ⟨hnone, -⟩
        · exact hown
        · exact absurd hnone hsome
      subst hown
      have hid := h.identity
      have hbal := h.balance_nonneg
      constructor
      case identity =>
        simp only [Redis.setBudget_self, BudgetRow.topUp, number_incrByFloat]
        linarith
      case balance_nonneg =>
        simp only [Redis.setBudget_self, BudgetRow.topUp, number_incrByFloat]
        linarith
      case debt_nonneg =>
        rw [Redis.setBudget_self]
        exact h.debt_nonneg
      case deducted =>
        intro d hd
        rw [Redis.setBudget_self]
        exact h.deducted d hd
      case configured =>
        rw [Redis.setBudget_self, ← h.configured]
        simp [BudgetRow.topUp, incrByFloat, Option.isSome_iff_ne_none, hsome]
    · apply h.of_row
      rw [Redis.setBudget_ne _ _ (Ne.symm hb)]

private theorem window_accounted {k : SinkKeys} {a : SinkArgs} (h : Accounted b s)
    (hok : Regular b s (.window k a)) (hstep : step b s (.window k a) = some s') :
    Accounted b s' := by
  have hs' := Option.some.inj hstep
  subst hs'
  by_cases hb : k.budget = b
  · subst hb
    rcases sinkScript_row_self s.redis k a with ⟨happ, hrow⟩ | ⟨hfresh, hnone, held, hrow⟩ |
      ⟨balance, held, hfresh, hsome, hrow⟩
    · rw [if_neg (by simp [happ])]
      apply h.of_money <;> simp [hrow]
    · -- without a balance only the counter of deductions moves
      have hno : s.deductedUsd = none := by
        have := h.configured
        rw [hnone] at this
        simpa using this
      apply h.of_money <;> simp [hrow, hno, BudgetRow.recorded]
    · have hcost := hok rfl
      have hfirst := h.balance_nonneg
      have hdebt := h.debt_nonneg
      have hid := h.identity
      have hdeducted : ∃ d, s.deductedUsd = some d := by
        have := h.configured
        rw [hsome] at this
        exact Option.isSome_iff_exists.mp (this.mp rfl)
      obtain ⟨d, hd⟩ := hdeducted
      rw [hsome, number_some] at hid hfirst
      rw [hd, number_some] at hid
      rw [if_pos ⟨rfl, hfresh⟩, hd, Option.map_some]
      unfold BudgetRow.recorded at hrow
      rw [h.deducted d hd] at hrow
      -- the shortfall of an overdraft is split off into the debt
      by_cases hover : balance - a.costUsd < 0
      · unfold BudgetRow.deduct at hrow
        rw [if_pos hover] at hrow
        constructor
        case identity =>
          simp only [hrow, number_incrByFloat, number_some]
          linarith
        case balance_nonneg => simp only [hrow, number_some, le_refl]
        case debt_nonneg =>
          simp only [hrow, number_incrByFloat]
          linarith
        case deducted =>
          simp only [hrow, incrByFloat, number_some]
          exact fun e he => he
        case configured => simp only [hrow, Option.isSome_some]
      · unfold BudgetRow.deduct at hrow
        rw [if_neg hover] at hrow
        constructor
        case identity =>
          simp only [hrow, number_some]
          linarith
        case balance_nonneg =>
          simp only [hrow, number_some]
          exact not_lt.mp hover
        case debt_nonneg =>
          simp only [hrow]
          exact hdebt
        case deducted =>
          simp only [hrow, incrByFloat, number_some]
          exact fun e he => he
        case configured => simp only [hrow, Option.isSome_some]
  · obtain ⟨held, hrow⟩ := sinkScript_row_ne s.redis k a (Ne.symm hb)
    rw [if_neg (by simp [hb])]
    apply h.of_money <;> simp [hrow]

theorem step_accounted {op : BooksOp} (h : Accounted b s) (hok : Regular b s op)
    (hstep : step b s op = some s') : Accounted b s' := by
  cases op with
  | configure t c balance alert rpm => exact configure_accounted h hstep
  | topUp t c amount => exact topUp_accounted h hok hstep
  | window k a => exact window_accounted h hok hstep

/-! ### Replays -/

theorem step_window_applied {k : SinkKeys} (a : SinkArgs) (h : s.redis.applied k.windowId = true) :
    step b s (.window k a) = some s := by
  rcases sinkScript_cases s.redis k a with ⟨-, hr⟩ | ⟨hfresh, -⟩ | ⟨balance, hfresh, -⟩
  · simp only [step, hr, h]
    simp
  · simp [h] at hfresh
  · simp [h] at hfresh

theorem applied_after_window (r : Redis) (k : SinkKeys) (a : SinkArgs) :
    (sinkScript r k a).1.applied = Function.update r.applied k.windowId true := by
  cases happ : r.applied k.windowId with
  | false => exact (sinkScript_fresh a happ).1
  | true =>
    rcases sinkScript_cases r k a with ⟨-, hr⟩ | ⟨hfresh, -⟩ | ⟨balance, hfresh, -⟩
    · rw [hr, ← happ, Function.update_eq_self]
    · simp [happ] at hfresh
    · simp [happ] at hfresh

theorem step_keeps_applied {op : BooksOp} {w : String} (h : s.redis.applied w = true)
    (hstep : step b s op = some s') : s'.redis.applied w = true := by
  cases op with
  | configure t c balance alert rpm =>
    simp only [step] at hstep
    cases hconf : configure s.redis t c balance alert rpm with
    | none =>
      rw [hconf] at hstep
      exact Option.some.inj hstep ▸ h
    | some r =>
      rw [hconf] at hstep
      obtain ⟨-, row, -, -, rfl⟩ := configure_cases hconf
      exact Option.some.inj hstep ▸ h
  | topUp t c amount =>
    simp only [step] at hstep
    cases htop : topUp s.redis t c amount with
    | error e =>
      rw [htop] at hstep
      exact Option.some.inj hstep ▸ h
    | ok p =>
      rw [htop] at hstep
      obtain ⟨-, row, hr, -⟩ := topUp_cases htop
      have hs' := Option.some.inj hstep
      subst hs'
      rw [hr]
      exact h
  | window k a =>
    have hs' := Option.some.inj hstep
    subst hs'
    rw [applied_after_window]
    by_cases hw : w = k.windowId
    · rw [hw, Function.update_self]
    · rw [Function.update_of_ne hw]
      exact h

/-- After a window has been applied, applying it again changes nothing, whatever came between. -/
theorem replay_unchanged {k : SinkKeys} {a : SinkArgs} {ops : List BooksOp}
    (hrun : run (step b) s (.window k a :: ops) = some s') {k' : SinkKeys} (a' : SinkArgs)
    (hk : k'.windowId = k.windowId) : step b s' (.window k' a') = some s' := by
  obtain ⟨u, hu, hrest⟩ := run_cons_eq_some.mp hrun
  have hset : u.redis.applied k.windowId = true := by
    rw [← Option.some.inj hu, applied_after_window, Function.update_self]
  apply step_window_applied
  rw [hk]
  exact run_invariant (P := fun t : Books => t.redis.applied k.windowId = true)
    (fun _ _ _ h hstep => step_keeps_applied h hstep) hset hrest

theorem run_replicate_window (k : SinkKeys) (a : SinkArgs) (n : ℕ) :
    run (step b) s (List.replicate (n + 1) (.window k a)) = step b s (.window k a) := by
  obtain ⟨u, hu⟩ : ∃ u, step b s (.window k a) = some u := ⟨_, rfl⟩
  have honce : run (step b) s [.window k a] = some u := run_cons_eq_some.mpr ⟨u, hu, run_nil u⟩
  have hagain : step b u (.window k a) = some u := replay_unchanged honce a rfl
  have hmore : run (step b) u (List.replicate n (.window k a)) = some u := by
    induction n with
    | zero => rfl
    | succ n ih =>
      rw [List.replicate_succ]
      exact run_cons_eq_some.mpr ⟨u, hagain, ih⟩
  rw [hu, List.replicate_succ]
  exact run_cons_eq_some.mpr ⟨u, hu, hmore⟩

/-- In every state that configures, top-ups and window applications reach from a store without the
budget, the accounting identity holds, and a window counts once however often it is applied. -/
theorem accounting_identity {r : Redis} {ops : List BooksOp} (hstart : r.budgets b = {})
    (hok : Guarded (step b) (Regular b) ⟨r, none⟩ ops)
    (hrun : run (step b) ⟨r, none⟩ ops = some s) :
    Accounted b s ∧
      (∀ k a n, run (step b) s (List.replicate (n + 1) (.window k a)) = step b s (.window k a)) ∧
      ∀ k a more s', run (step b) s (.window k a :: more) = some s' →
        ∀ k' a', k'.windowId = k.windowId → step b s' (.window k' a') = some s' := by
  have hfirst : Accounted b ⟨r, none⟩ := by
    constructor <;> simp [hstart]
  refine ⟨?_, fun k a n => run_replicate_window k a n, fun k a more s' hmore k' a' hk => ?_⟩
  · exact guarded_invariant (fun _ _ _ h hreg hstep => step_accounted h hreg hstep) hfirst hok hrun
  · exact replay_unchanged hmore a' hk

theorem accounting_identity_overdraft :
    ∃ s, run (step ⟨some "t", "acme"⟩) ⟨{}, none⟩
        [.configure (some "t") "acme" 10 none none, .topUp (some "t") "acme" 5,
          .window ⟨"w", ⟨some "t", "acme"⟩, "c", "m", id, "v", "p", "d", "i"⟩ { costUsd := 18 },
          .window ⟨"w", ⟨some "t", "acme"⟩, "c", "m", id, "v", "p", "d", "i"⟩ { costUsd := 18 }] =
        some s ∧ Accounted ⟨some "t", "acme"⟩ s := by
  refine ⟨_, (Option.some_get (by decide +kernel)).symm, ?_⟩
  refine (accounting_identity (b := ⟨some "t", "acme"⟩) (r := {}) rfl ?_
    (Option.some_get (by decide +kernel)).symm).1
  decide +kernel

end Books

end FluxMeter.Budget
