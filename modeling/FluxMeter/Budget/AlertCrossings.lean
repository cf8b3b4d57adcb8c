import FluxMeter.Budget.Accounting
import FluxMeter.Budget.Alerts

/-! When the alerts of one budget are raised, over top-ups and windows in any order after a
configure. -/
namespace FluxMeter.Budget
open FluxMeter.Keys FluxMeter.Model Transition

/-- Which transition an alert reports. -/
abbrev Notice := AlertType × Option ℤ

def Alert.notice (a : Alert) : Notice := (a.type, a.warnPct)

inductive WatchEntry
  | upward
  | notice (x : Notice)
  deriving DecidableEq

/-- The money counters of a budget, and its alerts and upward moves, the newest first. -/
structure Watch where
  books : Books
  log : List WatchEntry := []

inductive WatchOp
  | topUp (tenantId : Option String) (customerId : String) (amountUsd : ℚ)
  | window (agg : UsageAggregate) (now : ℤ)

namespace Watch

/-- No upward move came after a report of `x`. -/
def Pending (x : Notice) : List WatchEntry → Prop
  | [] => False
  | .upward :: _ => False
  | .notice y :: rest => y = x ∨ Pending x rest

/-- No alert comes twice without an upward move between. -/
def NoRepeat : List WatchEntry → Prop
  | [] => True
  | .upward :: rest => NoRepeat rest
  | .notice y :: rest => ¬ Pending y rest ∧ NoRepeat rest

def balance (b : BudgetKey) (r : Redis) : ℚ := number (r.budgets b).balanceUsd

def step (b : BudgetKey) (w : Watch) : WatchOp → Option Watch
  | .topUp t c amount =>
    (Books.step b w.books (.topUp t c amount)).map fun books =>
      { books
        log := if balance b w.books.redis < balance b books.redis then .upward :: w.log else w.log }
  | .window agg now =>
    (Books.step b w.books (.window (sinkKeys agg) (sinkArgs agg))).map fun books =>
      { books
        log := if (sinkKeys agg).budget = b then
            ((raised w.books.redis agg now).map fun a => .notice a.notice).reverse ++ w.log
          else w.log }

/-- The windows of the budget cost something. -/
def Positive (b : BudgetKey) (_ : Watch) : WatchOp → Prop
  | .topUp .. => True
  | .window agg _ => (sinkKeys agg).budget = b → 0 < agg.getCostUsd

instance (b : BudgetKey) (w : Watch) : ∀ op, Decidable (Positive b w op)
  | .topUp .. => isTrue trivial
  | .window agg _ => inferInstanceAs (Decidable ((sinkKeys agg).budget = b → 0 < agg.getCostUsd))

/-- What an operation grants to the budget. -/
def grant (b : BudgetKey) : WatchOp → ℚ
  | .topUp t c amount => if budgetPrefix (stripTenant t) c = b ∧ 0 < amount then amount else 0
  | .window .. => 0

/-- What the next window of the budget raises when `grantedUsd` have been granted so far. -/
structure Exact (b : BudgetKey) (grantedUsd : ℚ) (w : Watch) (agg : UsageAggregate) (now : ℤ) :
    Prop where
  warn : ∀ pct ∈ warnPcts,
    (.budgetWarn, some pct) ∈ (raised w.books.redis agg now).map Alert.notice ↔
      number w.books.deductedUsd < pct / 100 * grantedUsd ∧
      pct / 100 * grantedUsd ≤ number w.books.deductedUsd + agg.getCostUsd
  low : (.budgetLow, none) ∈ (raised w.books.redis agg now).map Alert.notice ↔
    alertThreshold (w.books.redis.budgets b) (sinkArgs agg) < balance b w.books.redis ∧
    balance b (invoke w.books.redis agg).1 ≤ alertThreshold (w.books.redis.budgets b) (sinkArgs agg)
  exhausted : (.budgetExhausted, none) ∈ (raised w.books.redis agg now).map Alert.notice ↔
    0 < balance b w.books.redis ∧ balance b (invoke w.books.redis agg).1 = 0

/-- Every window of a run raises what it crosses, one that is already applied nothing, and nothing is
reported twice; the configure before it granted `amountUsd`. -/
structure OncePerCrossing (b : BudgetKey) (amountUsd : ℚ) (w : Watch) (ops : List WatchOp)
    (w' : Watch) : Prop where
  exact : ∀ before agg now rest u, ops = before ++ .window agg now :: rest →
    run (step b) w before = some u → (sinkKeys agg).budget = b →
      if u.books.redis.applied (sinkKeys agg).windowId then raised u.books.redis agg now = []
      else Exact b (amountUsd + (before.map (grant b)).sum) u agg now
  norepeat : NoRepeat w'.log

/-- The balance at which `pct` percent of all that was granted are spent. -/
def warnMark (row : BudgetRow) (pct : ℤ) : ℚ :=
  (number row.initialBalanceUsd + number row.totalTopupUsd) * (1 - pct / 100) + number row.debtUsd

/-- The sink and the grants disagree whether a balance is above the mark. -/
def Between (row : BudgetRow) (pct : ℤ) (x : ℚ) : Prop :=
  ¬ (warnThreshold (number row.initialBalanceUsd) pct < x ↔ warnMark row pct < x)

/-- A new window finds money, does not take all of it from above the alert threshold, and leads neither
into nor out of the stretch between a threshold of the sink and the mark of the grants. -/
def Apart (b : BudgetKey) (w : Watch) : WatchOp → Prop
  | .topUp .. => True
  | .window agg _ => (sinkKeys agg).budget = b → w.books.redis.applied (sinkKeys agg).windowId = false →
    0 < balance b w.books.redis ∧
    (balance b w.books.redis - agg.getCostUsd ≤ 0 →
      balance b w.books.redis ≤ alertThreshold (w.books.redis.budgets b) (sinkArgs agg)) ∧
    ∀ pct ∈ warnPcts, Between (w.books.redis.budgets b) pct (balance b w.books.redis) ↔
      Between (w.books.redis.budgets b) pct (balance b w.books.redis - agg.getCostUsd)

instance (row : BudgetRow) (pct : ℤ) : DecidablePred (Between row pct) := fun _ =>
  inferInstanceAs (Decidable (¬ (_ ↔ _)))

instance (b : BudgetKey) (w : Watch) : ∀ op, Decidable (Apart b w op)
  | .topUp .. => isTrue trivial
  | .window agg _ => inferInstanceAs (Decidable ((sinkKeys agg).budget = b →
      w.books.redis.applied (sinkKeys agg).windowId = false → _ ∧ (_ → _) ∧ ∀ pct ∈ warnPcts, (_ ↔ _)))

/-! ### The log -/

section Log
variable {x : Notice} {xs : List Notice} {log : List WatchEntry}

theorem pending_append : Pending x (xs.map .notice ++ log) ↔ x ∈ xs ∨ Pending x log := by
  induction xs with
  | nil => simp
  | cons y xs ih =>
    rw [List.map_cons, List.cons_append, Pending, ih, List.mem_cons, or_assoc, eq_comm]

theorem noRepeat_append (hnodup : xs.Nodup)
    (hfresh : ∀ x ∈ xs, ¬ Pending x log) (hlog : NoRepeat log) : NoRepeat (xs.map .notice ++ log) := by
  induction xs with
  | nil => exact hlog
  | cons y xs ih =>
    rw [List.nodup_cons] at hnodup
    refine ⟨?_, ih hnodup.2 fun x hx => hfresh x (List.mem_cons_of_mem y hx)⟩
    change ¬ Pending y (xs.map .notice ++ log)
    rw [pending_append, not_or]
    exact ⟨hnodup.1, hfresh y List.mem_cons_self⟩

end Log

/-! ### One window -/

section Window
variable {r : Redis} {agg : UsageAggregate} {now : ℤ} {p : ℚ}

/-- The balance from which an alert is raised downwards. -/
def level (row : BudgetRow) : Notice → ℚ
  | (.budgetWarn, some pct) => warnThreshold (number row.initialBalanceUsd) pct
  | (.budgetExhausted, _) => 0
  | _ => row.alertThresholdUsd.getD
    (Binary64.mul (Binary64.round (number row.initialBalanceUsd)) (Binary64.round (1 / 10)))

theorem level_low (row : BudgetRow) (agg : UsageAggregate) :
    level row (.budgetLow, none) = alertThreshold row (sinkArgs agg) := by
  unfold alertThreshold level
  cases row.alertThresholdUsd with
  | none => rfl
  | some t => rfl

/-- What a window that is applied leaves of the row, and what the script replies. -/
structure Deducted (r : Redis) (agg : UsageAggregate) (p : ℚ) (row : BudgetRow) : Prop where
  balance : row.balanceUsd = some (max 0 (p - agg.getCostUsd))
  debt : number row.debtUsd =
    number (r.budgets (sinkKeys agg).budget).debtUsd + max 0 (agg.getCostUsd - p)
  initial : row.initialBalanceUsd = (r.budgets (sinkKeys agg).budget).initialBalanceUsd
  topup : row.totalTopupUsd = (r.budgets (sinkKeys agg).budget).totalTopupUsd
  threshold : row.alertThresholdUsd = (r.budgets (sinkKeys agg).budget).alertThresholdUsd
  reply : (invoke r agg).2 = sinkReply
    (alertThreshold (r.budgets (sinkKeys agg).budget) (sinkArgs agg)) (max 0 (p - agg.getCostUsd)) p

private theorem deduct_grants (row : BudgetRow) (p cost : ℚ) :
    (row.deduct p cost).initialBalanceUsd = row.initialBalanceUsd ∧
      (row.deduct p cost).totalTopupUsd = row.totalTopupUsd ∧
      (row.deduct p cost).alertThresholdUsd = row.alertThresholdUsd := by
  unfold BudgetRow.deduct
  split_ifs <;> exact ⟨rfl, rfl, rfl⟩

theorem invoke_deducted (hfresh : r.applied (sinkKeys agg).windowId = false)
    (hp : (r.budgets (sinkKeys agg).budget).balanceUsd = some p) :
    Deducted r agg p ((invoke r agg).1.budgets (sinkKeys agg).budget) := by
  obtain ⟨held, hrow⟩ := settleWindow_row r (sinkKeys agg) (sinkArgs agg) (sinkKeys agg).budget
  rw [if_pos rfl] at hrow
  have hafter : (invoke r agg).1.budgets (sinkKeys agg).budget =
      BudgetRow.deduct ((settleWindow (recordWindow r (sinkKeys agg) (sinkArgs agg))
        (sinkKeys agg)).budgets (sinkKeys agg).budget) p agg.getCostUsd := by
    unfold invoke sinkScript
    simp only [hfresh, hrow, hp, Bool.false_eq_true, if_false, Redis.setBudget_self]
    rfl
  have hreply : (invoke r agg).2 = sinkReply
      (alertThreshold ((settleWindow (recordWindow r (sinkKeys agg) (sinkArgs agg))
        (sinkKeys agg)).budgets (sinkKeys agg).budget) (sinkArgs agg))
      (number ((invoke r agg).1.budgets (sinkKeys agg).budget).balanceUsd) p := by
    rw [hafter]
    unfold invoke sinkScript
    simp only [hfresh, hrow, hp, Bool.false_eq_true, if_false]
    rfl
  obtain ⟨hinitial, htopup, hthreshold⟩ := deduct_grants ((settleWindow (recordWindow r
    (sinkKeys agg) (sinkArgs agg)) (sinkKeys agg)).budgets (sinkKeys agg).budget) p agg.getCostUsd
  constructor
  case balance => rw [hafter, deduct_balanceUsd]
  case debt => rw [hafter, deduct_debtUsd, hrow]
  case initial => rw [hafter, hinitial, hrow]
  case topup => rw [hafter, htopup, hrow]
  case threshold => rw [hafter, hthreshold, hrow]
  case reply =>
    rw [hreply, hafter, deduct_balanceUsd, number_some, hrow]
    rfl

/-- The notices of a window that is applied: the warnings, then the status of the script. -/
theorem raised_notices {i : ℚ} (hfresh : r.applied (sinkKeys agg).windowId = false)
    (hp : (r.budgets (sinkKeys agg).budget).balanceUsd = some p)
    (hi : (r.budgets (sinkKeys agg).budget).initialBalanceUsd = some i) :
    (raised r agg now).map Alert.notice =
      ((warnPcts.filter fun pct => warnThreshold i pct < p ∧
          max 0 (p - agg.getCostUsd) ≤ warnThreshold i pct).map fun pct => (.budgetWarn, some pct)) ++
        if max 0 (p - agg.getCostUsd) ≤ 0 then [(.budgetExhausted, none)]
        else if max 0 (p - agg.getCostUsd) ≤
            alertThreshold (r.budgets (sinkKeys agg).budget) (sinkArgs agg) ∧
          alertThreshold (r.budgets (sinkKeys agg).budget) (sinkArgs agg) < p then
          [(.budgetLow, none)]
        else [] := by
  have hd := invoke_deducted hfresh hp
  unfold raised
  rw [hd.initial, hi, hd.reply]
  unfold sinkReply
  split_ifs <;> simp [alerts, warnings, emitAlert, Alert.notice, Function.comp_def]

theorem raised_nodup {i : ℚ} (hfresh : r.applied (sinkKeys agg).windowId = false)
    (hp : (r.budgets (sinkKeys agg).budget).balanceUsd = some p)
    (hi : (r.budgets (sinkKeys agg).budget).initialBalanceUsd = some i) :
    ((raised r agg now).map Alert.notice).Nodup := by
  rw [raised_notices hfresh hp hi]
  refine List.Nodup.append ?_ ?_ fun x hwarn hstatus => ?_
  · refine List.Nodup.map (fun x y hxy => ?_) (List.Nodup.filter _ (by decide))
    exact Option.some.inj (congrArg Prod.snd hxy)
  · split_ifs
    · exact List.nodup_singleton _
    · exact List.nodup_singleton _
    · exact List.nodup_nil
  · obtain ⟨pct, -, rfl⟩ := List.mem_map.mp hwarn
    split_ifs at hstatus
    · cases List.mem_singleton.mp hstatus
    · cases List.mem_singleton.mp hstatus
    · cases hstatus

theorem raised_applied (happlied : r.applied (sinkKeys agg).windowId = true) :
    raised r agg now = [] := by
  unfold raised invoke sinkScript
  rw [if_pos happlied]
  rfl

/-- Where the balance stood above zero, whatever is raised, it passed its level downwards. -/
theorem crossed_of_raised {i : ℚ} {x : Notice} (hpos : 0 < p)
    (hfresh : r.applied (sinkKeys agg).windowId = false)
    (hp : (r.budgets (sinkKeys agg).budget).balanceUsd = some p)
    (hi : (r.budgets (sinkKeys agg).budget).initialBalanceUsd = some i)
    (hx : x ∈ (raised r agg now).map Alert.notice) :
    level (r.budgets (sinkKeys agg).budget) x < p ∧
      max 0 (p - agg.getCostUsd) ≤ level (r.budgets (sinkKeys agg).budget) x := by
  rw [raised_notices hfresh hp hi, List.mem_append] at hx
  rcases hx with hwarn | hstatus
  · obtain ⟨pct, hpct, rfl⟩ := List.mem_map.mp hwarn
    have hcross := of_decide_eq_true (List.mem_filter.mp hpct).2
    unfold level
    rw [hi]
    exact hcross
  · split_ifs at hstatus with hzero hlow
    · obtain rfl := List.mem_singleton.mp hstatus
      exact ⟨hpos, hzero⟩
    · obtain rfl := List.mem_singleton.mp hstatus
      rw [level_low _ agg]
      exact hlow.symm
    · cases hstatus

/-- Two marks are passed downwards together just where the move neither enters nor leaves the stretch
between them. -/
theorem crossing_iff {a a' x y : ℚ} (hxy : y ≤ x) :
    ((a < x ∧ y ≤ a) ↔ (a' < x ∧ y ≤ a')) ↔ (¬ (a < x ↔ a' < x) ↔ ¬ (a < y ↔ a' < y)) := by
  have ha : a < y → a < x := fun h => h.trans_le hxy
  have ha' : a' < y → a' < x := fun h => h.trans_le hxy
  rw [← not_lt, ← not_lt]
  grind

end Window

/-! ### Runs -/

section Runs
variable {b : BudgetKey} {w w' : Watch} {i g : ℚ}

/-- The counters of a budget that was opened with `i`, and the sum `g` of its top-ups. -/
structure Inv (b : BudgetKey) (i g : ℚ) (w : Watch) : Prop where
  accounted : Books.Accounted b w.books
  configured : (w.books.redis.budgets b).balanceUsd.isSome
  initial : (w.books.redis.budgets b).initialBalanceUsd = some i
  initial_nonneg : 0 ≤ i
  threshold_nonneg : 0 ≤ level (w.books.redis.budgets b) (.budgetLow, none)
  topup : number (w.books.redis.budgets b).totalTopupUsd = g

/-- The balance has not risen above the level of what was reported. -/
structure Quiet (b : BudgetKey) (w : Watch) : Prop where
  pending : ∀ x, Pending x w.log → balance b w.books.redis ≤ level (w.books.redis.budgets b) x
  norepeat : NoRepeat w.log

/-- What the alerts read of a row. -/
structure SameMoney (row row' : BudgetRow) : Prop where
  balance : row'.balanceUsd = row.balanceUsd
  initial : row'.initialBalanceUsd = row.initialBalanceUsd
  topup : row'.totalTopupUsd = row.totalTopupUsd
  threshold : row'.alertThresholdUsd = row.alertThresholdUsd

theorem level_of_eq {row row' : BudgetRow} (hi : row'.initialBalanceUsd = row.initialBalanceUsd)
    (ht : row'.alertThresholdUsd = row.alertThresholdUsd) (x : Notice) :
    level row' x = level row x := by
  unfold level
  rw [hi, ht]

theorem Inv.same (h : Inv b i g w) (haccounted : Books.Accounted b w'.books)
    (hsame : SameMoney (w.books.redis.budgets b) (w'.books.redis.budgets b)) : Inv b i g w' where
  accounted := haccounted
  configured := by rw [hsame.balance]; exact h.configured
  initial := by rw [hsame.initial]; exact h.initial
  initial_nonneg := h.initial_nonneg
  threshold_nonneg := by rw [level_of_eq hsame.initial hsame.threshold]; exact h.threshold_nonneg
  topup := by rw [hsame.topup]; exact h.topup

theorem Quiet.same (h : Quiet b w)
    (hsame : SameMoney (w.books.redis.budgets b) (w'.books.redis.budgets b)) (hlog : w'.log = w.log) :
    Quiet b w' where
  pending x hpending := by
    unfold balance
    rw [hsame.balance, level_of_eq hsame.initial hsame.threshold]
    exact h.pending x (hlog ▸ hpending)
  norepeat := hlog ▸ h.norepeat

theorem readKey_of_balance {r : Redis} {t : Option String} {c : String}
    (h : (r.budgets (budgetPrefix t c)).balanceUsd.isSome) :
    budgetPrefixForRead r t c = budgetPrefix t c := by
  unfold budgetPrefixForRead BudgetRow.present
  dsimp only
  rw [h, Bool.true_or, if_pos rfl, ite_self]

/-- A top-up grants nothing to the budget, or its amount. -/
theorem step_topUp {t : Option String} {c : String} {amount : ℚ} (h : Inv b i g w)
    (hstep : step b w (.topUp t c amount) = some w') :
    (SameMoney (w.books.redis.budgets b) (w'.books.redis.budgets b) ∧ w'.log = w.log ∧
      grant b (.topUp t c amount) = 0) ∨
    (0 < amount ∧ w'.books.redis.budgets b = (w.books.redis.budgets b).topUp amount ∧
      w'.log = .upward :: w.log ∧ grant b (.topUp t c amount) = amount) := by
  obtain ⟨books, hbooks, rfl⟩ := Option.map_eq_some_iff.mp hstep
  simp only [Books.step] at hbooks
  cases htop : topUp w.books.redis t c amount with
  | error e =>
    rw [htop] at hbooks
    obtain rfl := Option.some.inj hbooks
    refine .inl ⟨⟨rfl, rfl, rfl, rfl⟩, if_neg (lt_irrefl _), if_neg ?_⟩
    rintro ⟨rfl, hpos⟩
    obtain ⟨p, hp⟩ := Option.isSome_iff_exists.mp h.configured
    unfold topUp at htop
    simp only [readKey_of_balance h.configured, hp, if_neg (not_le.mpr hpos), reduceCtorEq] at htop
  | ok q =>
    obtain ⟨r, newBalance⟩ := q
    rw [htop] at hbooks
    obtain rfl := Option.some.inj hbooks
    obtain ⟨hpos, row, rfl, hrow⟩ := topUp_cases htop
    by_cases hb : budgetPrefix (stripTenant t) c = b
    · subst hb
      have hown : row = w.books.redis.budgets (budgetPrefix (stripTenant t) c) := by
        rcases hrow with hown | ⟨hnone, -⟩
        · exact hown
        · have hsome := h.configured
          rw [hnone] at hsome
          cases hsome
      subst hown
      refine .inr ⟨hpos, Redis.setBudget_self .., if_pos ?_, if_pos ⟨rfl, hpos⟩⟩
      unfold balance
      rw [Redis.setBudget_self]
      simp only [BudgetRow.topUp, number_incrByFloat]
      linarith
    · have hrow' : (w.books.redis.setBudget (budgetPrefix (stripTenant t) c)
          (row.topUp amount)).budgets b = w.books.redis.budgets b := by
        rw [Redis.setBudget_ne _ _ (Ne.symm hb)]
      refine .inl ⟨?_, if_neg ?_, if_neg fun hgrant => hb hgrant.1⟩
      · constructor <;> simp only [hrow']
      · unfold balance
        rw [hrow']
        exact lt_irrefl _

/-- A window leaves the money of the budget alone, or it is deducted and its alerts are logged. -/
theorem step_window {agg : UsageAggregate} {now : ℤ} (h : Inv b i g w)
    (hstep : step b w (.window agg now) = some w') :
    (SameMoney (w.books.redis.budgets b) (w'.books.redis.budgets b) ∧ w'.log = w.log) ∨
    ∃ p, (sinkKeys agg).budget = b ∧ w.books.redis.applied (sinkKeys agg).windowId = false ∧
      (w.books.redis.budgets b).balanceUsd = some p ∧
      Deducted w.books.redis agg p (w'.books.redis.budgets b) ∧
      w'.log = ((raised w.books.redis agg now).map Alert.notice).reverse.map .notice ++ w.log := by
  unfold step at hstep
  obtain ⟨books, hbooks, rfl⟩ := Option.map_eq_some_iff.mp hstep
  by_cases hb : (sinkKeys agg).budget = b
  · cases happlied : w.books.redis.applied (sinkKeys agg).windowId with
    | true =>
      rw [Books.step_window_applied _ happlied] at hbooks
      obtain rfl := Option.some.inj hbooks
      refine .inl ⟨⟨rfl, rfl, rfl, rfl⟩, ?_⟩
      dsimp only
      rw [if_pos hb, raised_applied happlied]
      rfl
    | false =>
      have hredis : books.redis = (invoke w.books.redis agg).1 := by
        rw [← Option.some.inj hbooks]
        rfl
      obtain ⟨p, hp⟩ := Option.isSome_iff_exists.mp h.configured
      refine .inr ⟨p, hb, rfl, hp, ?_, ?_⟩
      · subst hb
        dsimp only
        rw [hredis]
        exact invoke_deducted happlied hp
      · dsimp only
        rw [if_pos hb, List.map_reverse, List.map_map]
        rfl
  · have hredis : books.redis = (sinkScript w.books.redis (sinkKeys agg) (sinkArgs agg)).1 := by
      rw [← Option.some.inj hbooks]
    obtain ⟨held, hrow⟩ :=
      sinkScript_row_ne w.books.redis (sinkKeys agg) (sinkArgs agg) (Ne.symm hb)
    rw [← hredis] at hrow
    refine .inl ⟨?_, if_neg hb⟩
    constructor <;> simp only [hrow]

private theorem accounted_step {op : WatchOp} (h : Inv b i g w) (hpos : Positive b w op)
    (hstep : step b w op = some w') : Books.Accounted b w'.books := by
  cases op with
  | topUp t c amount =>
    obtain ⟨books, hbooks, rfl⟩ := Option.map_eq_some_iff.mp hstep
    refine Books.step_accounted h.accounted ?_ hbooks
    rintro rfl
    exact readKey_of_balance h.configured
  | window agg now =>
    unfold step at hstep
    obtain ⟨books, hbooks, rfl⟩ := Option.map_eq_some_iff.mp hstep
    refine Books.step_accounted h.accounted ?_ hbooks
    exact fun hb => (hpos hb).le

theorem inv_step {op : WatchOp} (h : Inv b i g w) (hpos : Positive b w op)
    (hstep : step b w op = some w') : Inv b i (g + grant b op) w' := by
  have haccounted := accounted_step h hpos hstep
  cases op with
  | topUp t c amount =>
    rcases step_topUp h hstep with ⟨hsame, -, hgrant⟩ | ⟨-, hrow, -, hgrant⟩
    · rw [hgrant, add_zero]
      exact h.same haccounted hsame
    · rw [hgrant]
      refine ⟨haccounted, ?_, ?_, h.initial_nonneg, ?_, ?_⟩
      · rw [hrow]
        rfl
      · rw [hrow]
        exact h.initial
      · rw [hrow]
        exact h.threshold_nonneg
      · rw [hrow, ← h.topup]
        exact number_incrByFloat ..
  | window agg now =>
    show Inv b i (g + 0) w'
    rw [add_zero]
    rcases step_window h hstep with ⟨hsame, -⟩ | ⟨p, rfl, -, -, hd, -⟩
    · exact h.same haccounted hsame
    · refine ⟨haccounted, ?_, ?_, h.initial_nonneg, ?_, ?_⟩
      · rw [hd.balance]
        rfl
      · rw [hd.initial]
        exact h.initial
      · rw [level_of_eq hd.initial hd.threshold]
        exact h.threshold_nonneg
      · rw [hd.topup]
        exact h.topup

theorem quiet_step {op : WatchOp} (h : Inv b i g w) (hquiet : Quiet b w) (hpos : Positive b w op)
    (hapart : Apart b w op) (hstep : step b w op = some w') : Quiet b w' := by
  cases op with
  | topUp t c amount =>
    rcases step_topUp h hstep with ⟨hsame, hlog, -⟩ | ⟨-, -, hlog, -⟩
    · exact hquiet.same hsame hlog
    · constructor
      · rw [hlog]
        exact fun x hpending => hpending.elim
      · rw [hlog]
        exact hquiet.norepeat
  | window agg now =>
    rcases step_window h hstep with ⟨hsame, hlog⟩ | ⟨p, rfl, hfresh, hp, hd, hlog⟩
    · exact hquiet.same hsame hlog
    · have hbefore : balance (sinkKeys agg).budget w.books.redis = p := by
        unfold balance
        rw [hp, number_some]
      have hafter : balance (sinkKeys agg).budget w'.books.redis = max 0 (p - agg.getCostUsd) := by
        unfold balance
        rw [hd.balance, number_some]
      have hfirst : 0 < p := hbefore ▸ (hapart rfl hfresh).1
      have hcost : 0 < agg.getCostUsd := hpos rfl
      have hlower : max 0 (p - agg.getCostUsd) ≤ p := max_le hfirst.le (by linarith)
      constructor
      · intro x hpending
        rw [hlog, pending_append] at hpending
        rw [hafter, level_of_eq hd.initial hd.threshold]
        rcases hpending with hnew | hold
        · exact (crossed_of_raised hfirst hfresh hp h.initial (List.mem_reverse.mp hnew)).2
        · exact hlower.trans (hbefore ▸ hquiet.pending x hold)
      · rw [hlog]
        refine noRepeat_append (List.nodup_reverse.mpr (raised_nodup hfresh hp h.initial))
          (fun x hx hpending => ?_) hquiet.norepeat
        -- the balance stood above the level, so nothing was pending
        have habove :=
          (crossed_of_raised hfirst hfresh hp h.initial (List.mem_reverse.mp hx)).1
        exact absurd (hbefore ▸ hquiet.pending x hpending) (not_le.mpr habove)

theorem inv_run {ops : List WatchOp} (h : Inv b i g w) (hpos : Guarded (step b) (Positive b) w ops)
    (hrun : run (step b) w ops = some w') : Inv b i (g + (ops.map (grant b)).sum) w' := by
  induction ops generalizing w g with
  | nil =>
    obtain rfl := Option.some.inj hrun
    rw [List.map_nil, List.sum_nil, add_zero]
    exact h
  | cons op ops ih =>
    obtain ⟨u, hu, hrest⟩ := run_cons_eq_some.mp hrun
    rw [List.map_cons, List.sum_cons, ← add_assoc]
    exact ih (inv_step h hpos.1 hu) (hpos.2 u hu) hrest

theorem inv_configure {r r₀ : Redis} {t : Option String} {c : String} {amount : ℚ}
    {alert : Option ℚ} {rpm : Option ℤ} (h : configure r t c amount alert rpm = some r₀) :
    Inv (budgetPrefix (stripTenant t) c) amount 0 ⟨⟨r₀, some 0⟩, []⟩ := by
  unfold configure at h
  split_ifs at h with hneg halert
  obtain rfl := Option.some.inj h
  have hamount := not_lt.mp hneg
  constructor
  case accounted => constructor <;> simp [hamount]
  case configured => simp
  case initial => simp
  case initial_nonneg => exact hamount
  case threshold_nonneg =>
    unfold level
    rw [Redis.setBudget_self]
    cases alert with
    | none =>
      simp only [Option.getD_none, number_some]
      exact Binary64.mul_nonneg (Binary64.round_nonneg hamount) (Binary64.round_nonneg (by norm_num))
    | some q =>
      simp only [Option.any_some, decide_eq_true_eq, not_lt] at halert
      exact halert
  case topup => simp

private theorem warnThreshold_nonneg (hi : 0 ≤ i) {pct : ℤ} (hpct : pct ∈ warnPcts) :
    0 ≤ warnThreshold i pct := by
  have hcases : pct = 70 ∨ pct = 90 := by simpa [warnPcts] using hpct
  refine Binary64.mul_nonneg (Binary64.round_nonneg hi) ?_
  rcases hcases with rfl | rfl <;> decide +kernel

section Window
variable {agg : UsageAggregate} {now : ℤ} {p : ℚ}

/-- A warning is right where the move passes both marks or none. -/
theorem warn_iff (h : Inv (sinkKeys agg).budget i g w)
    (hfresh : w.books.redis.applied (sinkKeys agg).windowId = false)
    (hp : (w.books.redis.budgets (sinkKeys agg).budget).balanceUsd = some p)
    (hcost : 0 < agg.getCostUsd) {pct : ℤ} (hpct : pct ∈ warnPcts) :
    ((.budgetWarn, some pct) ∈ (raised w.books.redis agg now).map Alert.notice ↔
      number w.books.deductedUsd < pct / 100 * (i + g) ∧
      pct / 100 * (i + g) ≤ number w.books.deductedUsd + agg.getCostUsd) ↔
    (Between (w.books.redis.budgets (sinkKeys agg).budget) pct p ↔
      Between (w.books.redis.budgets (sinkKeys agg).budget) pct (p - agg.getCostUsd)) := by
  have hidentity := h.accounted.identity
  rw [hp, h.initial, h.topup, number_some, number_some] at hidentity
  have hmark : warnMark (w.books.redis.budgets (sinkKeys agg).budget) pct = i + g -
      pct / 100 * (i + g) + number (w.books.redis.budgets (sinkKeys agg).budget).debtUsd := by
    unfold warnMark
    rw [h.initial, h.topup, number_some]
    ring
  have hnonneg := warnThreshold_nonneg h.initial_nonneg hpct
  have hraised : (.budgetWarn, some pct) ∈ (raised w.books.redis agg now).map Alert.notice ↔
      warnThreshold i pct < p ∧ p - agg.getCostUsd ≤ warnThreshold i pct := by
    rw [raised_notices hfresh hp h.initial]
    split_ifs <;> simp [hpct, hnonneg]
  have hspent : (number w.books.deductedUsd < pct / 100 * (i + g) ∧
      pct / 100 * (i + g) ≤ number w.books.deductedUsd + agg.getCostUsd) ↔
      (warnMark (w.books.redis.budgets (sinkKeys agg).budget) pct < p ∧
        p - agg.getCostUsd ≤ warnMark (w.books.redis.budgets (sinkKeys agg).budget) pct) := by
    rw [hmark]
    constructor
    · rintro ⟨hbelow, hreached⟩
      constructor <;> linarith
    · rintro ⟨habove, hpassed⟩
      constructor <;> linarith
  rw [hraised, hspent, crossing_iff (by linarith)]
  unfold Between
  rw [h.initial, number_some]

/-- A window raises what it crosses just if it keeps apart from where the sink and the grants
disagree. -/
theorem exact_iff (h : Inv (sinkKeys agg).budget i g w)
    (hfresh : w.books.redis.applied (sinkKeys agg).windowId = false) (hcost : 0 < agg.getCostUsd) :
    Exact (sinkKeys agg).budget (i + g) w agg now ↔
      Apart (sinkKeys agg).budget w (.window agg now) := by
  obtain ⟨p, hp⟩ := Option.isSome_iff_exists.mp h.configured
  have hbefore : balance (sinkKeys agg).budget w.books.redis = p := by
    unfold balance
    rw [hp, number_some]
  have hafter : balance (sinkKeys agg).budget (invoke w.books.redis agg).1 =
      max 0 (p - agg.getCostUsd) := by
    unfold balance
    rw [(invoke_deducted hfresh hp).balance, number_some]
  have hfirst : 0 ≤ p := by
    have := h.accounted.balance_nonneg
    rwa [hp, number_some] at this
  have hthreshold := h.threshold_nonneg
  rw [level_low _ agg] at hthreshold
  have hlow : (.budgetLow, none) ∈ (raised w.books.redis agg now).map Alert.notice ↔
      0 < p - agg.getCostUsd ∧
      p - agg.getCostUsd ≤
        alertThreshold (w.books.redis.budgets (sinkKeys agg).budget) (sinkArgs agg) ∧
      alertThreshold (w.books.redis.budgets (sinkKeys agg).budget) (sinkArgs agg) < p := by
    rw [raised_notices hfresh hp h.initial]
    split_ifs with hzero hcross
    · refine iff_of_false (by simp) fun hleft => ?_
      exact absurd hzero (not_le.mpr (lt_max_of_lt_right hleft.1))
    · have hleft : 0 < p - agg.getCostUsd := by
        by_contra hall
        exact hzero (max_le le_rfl (not_lt.mp hall))
      exact iff_of_true (List.mem_append_right _ List.mem_cons_self)
        ⟨hleft, (le_max_right _ _).trans hcross.1, hcross.2⟩
    · refine iff_of_false (by simp) fun hleft => ?_
      exact hcross ⟨max_le hthreshold hleft.2.1, hleft.2.2⟩
  have hexhausted : (.budgetExhausted, none) ∈ (raised w.books.redis agg now).map Alert.notice ↔
      max 0 (p - agg.getCostUsd) = 0 := by
    rw [raised_notices hfresh hp h.initial]
    split_ifs with hzero
    · exact iff_of_true (List.mem_append_right _ List.mem_cons_self)
        (le_antisymm hzero (le_max_left _ _))
    · exact iff_of_false (by simp) fun hempty => hzero (le_of_eq hempty)
    · exact iff_of_false (by simp) fun hempty => hzero (le_of_eq hempty)
  constructor
  · intro hexact _ _
    rw [hbefore]
    have hpos : 0 < p := by
      rcases hfirst.lt_or_eq with hpos | hzero
      · exact hpos
      · have hempty : max 0 (p - agg.getCostUsd) = 0 := max_eq_left (by linarith)
        have hfrom := hexact.exhausted.mp (hexhausted.mpr hempty)
        exact hbefore ▸ hfrom.1
    refine ⟨hpos, fun hall => ?_, fun pct hpct => (warn_iff h hfresh hp hcost hpct).mp
      (hexact.warn pct hpct)⟩
    by_contra habove
    have hboth := hexact.low
    rw [hbefore, hafter, max_eq_left hall] at hboth
    exact absurd (hlow.mp (hboth.mpr ⟨not_le.mp habove, hthreshold⟩)).1 (not_lt.mpr hall)
  · intro hapart
    obtain ⟨hpos, hall, hbetween⟩ := hapart rfl hfresh
    rw [hbefore] at hpos hall hbetween
    refine ⟨fun pct hpct => (warn_iff h hfresh hp hcost hpct).mpr (hbetween pct hpct), ?_, ?_⟩
    · rw [hlow, hbefore, hafter]
      constructor
      · exact fun hcross => ⟨hcross.2.2, max_le hthreshold hcross.2.1⟩
      · rintro ⟨habove, hbelow⟩
        have hleft : 0 < p - agg.getCostUsd :=
          not_le.mp fun hzero => absurd (hall hzero) (not_le.mpr habove)
        exact ⟨hleft, (le_max_right _ _).trans hbelow, habove⟩
    · rw [hexhausted, hbefore, hafter]
      exact ⟨fun hzero => ⟨hpos, hzero⟩, And.right⟩

end Window

/-- A window of one customer that cost so many micro-dollars. -/
def windowAt (start costMicro : ℤ) : UsageAggregate :=
  { customerId := some "acme", modelId := some "m", windowStart := start, windowEnd := start + 10000,
    costMicro }

/-- The watch of that customer's budget after a configure. -/
def opened (amount : ℚ) (alert : Option ℚ) : Watch :=
  ⟨⟨(configure {} none "acme" amount alert none).getD {}, some 0⟩, []⟩

end Runs

end Watch

end FluxMeter.Budget
