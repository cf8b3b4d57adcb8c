import FluxMeter.Budget.Ledger
import FluxMeter.Budget.Receipts
import FluxMeter.Budget.Settlement
import FluxMeter.Job.ReconcileBalances
import FluxMeter.Pricing.PriceAgreement
import FluxMeter.Usage.Rerate

/-! Which runs of configures, top-ups, reservations, windows and re-ratings keep the balances what the
reconciliation job expects. -/
namespace FluxMeter.Job.ReconcileBalances
open FluxMeter.Budget FluxMeter.Keys FluxMeter.Model FluxMeter.Pricing FluxMeter.Usage Transition

inductive BalanceOp
  | configure (tenantId : Option String) (customerId : String) (balanceUsd : ℚ)
      (alertThresholdUsd : Option ℚ) (maxRpm : Option ℤ)
  | topUp (tenantId : Option String) (customerId : String) (amountUsd : ℚ)
  | reservation (tenantId : Option String) (customerId : String) (call : ReservationCall)
  | settle (reservationId : String)
  | refresh (reservationId : String) (expiresAt : Option ℚ) (clock : ℚ)
  | expireDue (cutoff : ℚ)
  | attach (reservationId windowId : String)
  | window (agg : UsageAggregate)
  | rerate (catalog : Loader.PricingCatalog) (tenantId : Option String) (req : ReRateRequest)
      (tenantKeys legacyKeys : List String)

/-- The store after a call that may refuse, which leaves the store as it is. -/
def after (s : Keyspace) : BalanceOp → Keyspace
  | .configure t c balance alert rpm =>
    { s with toRedis := (configure s.toRedis t c balance alert rpm).getD s.toRedis }
  | .topUp t c amount =>
    match topUp s.toRedis t c amount with
    | .error _ => s
    | .ok (r, _) => { s with toRedis := r }
  | .reservation t c call => { s with toRedis := (call.run s.toRedis t c).1 }
  | .settle rid => { s with toRedis := (Reservation.settle s.toRedis rid).1 }
  | .refresh rid expiresAt clock =>
    { s with toRedis := (Reservation.refresh s.toRedis rid expiresAt clock).1 }
  | .expireDue cutoff => { s with toRedis := (Reservation.expireDue s.toRedis cutoff).1 }
  | .attach rid windowId => { s with toRedis := attachReservation s.toRedis rid windowId }
  | .window agg => { s with toRedis := (invoke s.toRedis agg).1 }
  | .rerate catalog t req tenantKeys legacyKeys =>
    ((applyRerate catalog s t req tenantKeys legacyKeys).map Prod.fst).getD s

def step (s : Keyspace) (op : BalanceOp) : Option Keyspace := some (after s op)

/-- The step opens no budget that the job misses, overdraws none, and re-rates none. -/
def Recorded (s : Keyspace) : BalanceOp → Prop
  | .configure t c balance alert rpm =>
    (configure s.toRedis t c balance alert rpm).isSome → PlainKey (budgetPrefix (stripTenant t) c)
  | .topUp t c amount =>
    0 < amount → (s.budgets (budgetPrefixForRead s.toRedis (stripTenant t) c)).balanceUsd.isSome →
      PlainKey (budgetPrefix (stripTenant t) c)
  | .window agg =>
    s.applied (sinkKeys agg).windowId = false →
      ∀ p ∈ (s.budgets (sinkKeys agg).budget).balanceUsd, agg.getCostUsd ≤ p
  | .rerate catalog t req tenantKeys legacyKeys =>
    assertFlatRerate catalog req.modelId = true →
      ∀ row ∈ modelRows s t req.modelId tenantKeys legacyKeys,
        (s.budgets (budgetPrefixForRead s.toRedis t row.customerId)).balanceUsd.isSome →
          |adjustmentOf req row| < 1 / 1000
  | _ => True

instance (s : Keyspace) : ∀ op, Decidable (Recorded s op)
  | .configure t c balance alert rpm => inferInstanceAs (Decidable
      ((configure s.toRedis t c balance alert rpm).isSome →
        PlainKey (budgetPrefix (stripTenant t) c)))
  | .topUp t c amount => inferInstanceAs (Decidable (0 < amount →
      (s.budgets (budgetPrefixForRead s.toRedis (stripTenant t) c)).balanceUsd.isSome →
        PlainKey (budgetPrefix (stripTenant t) c)))
  | .reservation .. => isTrue trivial
  | .settle _ => isTrue trivial
  | .refresh .. => isTrue trivial
  | .expireDue _ => isTrue trivial
  | .attach .. => isTrue trivial
  | .window agg => inferInstanceAs (Decidable (s.applied (sinkKeys agg).windowId = false →
      ∀ p ∈ (s.budgets (sinkKeys agg).budget).balanceUsd, agg.getCostUsd ≤ p))
  | .rerate catalog t req tenantKeys legacyKeys => inferInstanceAs (Decidable
      (assertFlatRerate catalog req.modelId = true →
        ∀ row ∈ modelRows s t req.modelId tenantKeys legacyKeys,
          (s.budgets (budgetPrefixForRead s.toRedis t row.customerId)).balanceUsd.isSome →
            |adjustmentOf req row| < 1 / 1000))

/-! ### One row -/

/-- What the job reads of a budget. -/
def figures (row : BudgetRow) : Option ℚ × ℚ := (row.balanceUsd, expected row)

section Rows
variable {r r' : Redis} {k : BudgetKey}

/-- Where the job reads the same of all budgets but one, that one decides. -/
theorem balanced_iff_of_others (h : Balanced r)
    (hothers : ∀ j, j ≠ k → figures (r'.budgets j) = figures (r.budgets j)) :
    Balanced r' ↔ ∀ p, (r'.budgets k).balanceUsd = some p →
      PlainKey k ∧ p = expected (r'.budgets k) := by
  constructor
  · exact fun h' p hp => h' k p hp
  · intro hk j p hp
    by_cases hj : j = k
    · subst hj
      exact hk p hp
    · obtain ⟨hbalance, hexpected⟩ := Prod.mk.inj (hothers j hj)
      rw [hbalance] at hp
      rw [hexpected]
      exact h j p hp

theorem balanced_congr (hsame : ∀ j, figures (r'.budgets j) = figures (r.budgets j)) :
    Balanced r' ↔ Balanced r := by
  unfold Balanced
  refine forall_congr' fun j => ?_
  obtain ⟨hbalance, hexpected⟩ := Prod.mk.inj (hsame j)
  rw [hbalance, hexpected]

theorem balanced_setBudget (h : Balanced r) {row : BudgetRow}
    (hrow : row.balanceUsd = some (expected row)) : Balanced (r.setBudget k row) ↔ PlainKey k := by
  rw [balanced_iff_of_others h fun j hj => by rw [Redis.setBudget_ne _ _ hj], Redis.setBudget_self]
  constructor
  · exact fun hk => (hk _ hrow).1
  · exact fun hk p hp => ⟨hk, Option.some.inj (hp.symm.trans hrow)⟩

end Rows

/-! ### The steps -/

section Steps
variable {s : Keyspace}

theorem figures_incrHeld (r : Redis) (j k : BudgetKey) (q : ℚ) :
    figures ((r.incrHeld k q).budgets j) = figures (r.budgets j) := by
  rw [Redis.budgets_incrHeld]
  rfl

theorem after_topUp_refused {t : Option String} {c : String} {amount : ℚ} {e : TopUpError}
    (h : topUp s.toRedis t c amount = .error e) : after s (.topUp t c amount) = s := by
  simp only [after, h]

theorem after_topUp_granted {t : Option String} {c : String} {amount newBalance : ℚ} {r : Redis}
    (h : topUp s.toRedis t c amount = .ok (r, newBalance)) :
    after s (.topUp t c amount) = { s with toRedis := r } := by
  simp only [after, h]

theorem after_rerate (s : Keyspace) (catalog : Loader.PricingCatalog) (t : Option String)
    (req : ReRateRequest) (tenantKeys legacyKeys : List String) :
    after s (.rerate catalog t req tenantKeys legacyKeys) =
      if assertFlatRerate catalog req.modelId then
        ((modelRows s t req.modelId tenantKeys legacyKeys).foldl (applyRow t req) (s, 0, 0)).1
      else s := by
  simp only [after, applyRerate]
  by_cases hflat : assertFlatRerate catalog req.modelId = true
  · rw [if_pos hflat, if_pos hflat]
    rfl
  · rw [if_neg hflat, if_neg hflat]
    rfl

/-- No reservation moves what the job reads. -/
theorem figures_reservation (r : Redis) (t : Option String) (c : String) (call : ReservationCall)
    (j : BudgetKey) : figures ((call.run r t c).1.budgets j) = figures (r.budgets j) := by
  cases call with
  | openHold rid estimate parent expiresAt clock =>
    change figures ((Reservation.openHold r t rid c estimate parent expiresAt clock).1.budgets j) = _
    unfold Reservation.openHold
    split_ifs
    · rfl
    · dsimp only
      rcases openScript_cases r (budgetPrefixForRead r (stripTenant t) c)
        (Reservation.scope r (stripTenant t) parent)
        ⟨rid, c, (stripTenant t).getD "", parent.getD "", estimate, expiresAt.getD (clock + 900)⟩ with
        ⟨-, hsame⟩ | ⟨balance, r₁, spanHeld, spanSpent, -, -, -, -, hspan, hnew⟩
      · rw [hsame]
      · rw [hnew, ← (admitSpan_frame hspan).1]
        exact figures_incrHeld r₁ j _ _
  | reserve estimate parent =>
    change figures ((Reservation.reserve r t c estimate parent).1.budgets j) = _
    unfold Reservation.reserve
    split_ifs
    · rfl
    · dsimp only
      rcases reserveScript_cases r (budgetPrefixForRead r (stripTenant t) c)
        (Reservation.scope r (stripTenant t) parent) estimate with
        ⟨-, hsame⟩ | ⟨balance, r₁, spanHeld, spanSpent, -, -, -, hspan, hnew⟩
      · rw [hsame]
      · rw [hnew, ← (admitSpan_frame hspan).1]
        exact figures_incrHeld r₁ j _ _
  | reconcile reserved parent =>
    change figures ((releaseHold r _ _ _).1.budgets j) = _
    rw [releaseHold_budgets]
    rfl

theorem figures_of_removes {r r' : Redis} (h : Removes r r') (j : BudgetKey) :
    figures (r'.budgets j) = figures (r.budgets j) := by
  rw [h.rows j]
  rfl

theorem balanced_configure {r : Redis} (h : Balanced r) (t : Option String) (c : String) (balance : ℚ)
    (alert : Option ℚ) (rpm : Option ℤ) :
    Balanced ((configure r t c balance alert rpm).getD r) ↔
      ((configure r t c balance alert rpm).isSome → PlainKey (budgetPrefix (stripTenant t) c)) := by
  cases hconfigure : configure r t c balance alert rpm with
  | none => exact iff_of_true h fun hgranted => nomatch hgranted
  | some r' =>
    rw [Option.getD_some, Option.isSome_some]
    unfold configure at hconfigure
    split_ifs at hconfigure
    rw [← Option.some.inj hconfigure, balanced_setBudget h (by simp [expected])]
    exact ⟨fun hplain _ => hplain, fun hplain => hplain rfl⟩

theorem expected_topUp (row : BudgetRow) (amount : ℚ) :
    expected (row.topUp amount) = expected row + amount := by
  unfold expected BudgetRow.topUp
  rw [number_incrByFloat]
  dsimp only
  linarith

private theorem readKey_of_plain {r : Redis} {t : Option String} {c : String}
    (h : PlainKey (budgetPrefix t c)) : budgetPrefixForRead r t c = budgetPrefix t c := by
  have htenant := h.tenant
  unfold budgetPrefix at htenant
  unfold budgetPrefixForRead
  dsimp only at htenant ⊢
  split_ifs at htenant with hpy
  · rw [htenant] at hpy
    cases hpy
  · rw [if_pos (by simpa using hpy)]

theorem topUp_granted (r : Redis) (t : Option String) (c : String) (amount : ℚ) :
    (topUp r t c amount).toOption.isSome ↔
      0 < amount ∧ (r.budgets (budgetPrefixForRead r (stripTenant t) c)).balanceUsd.isSome := by
  unfold topUp
  dsimp only
  by_cases hpos : amount ≤ 0
  · rw [if_pos hpos]
    exact iff_of_false (by simp [Except.toOption]) fun h => absurd hpos (not_le.mpr h.1)
  · rw [if_neg hpos]
    cases (r.budgets (budgetPrefixForRead r (stripTenant t) c)).balanceUsd with
    | none => simp [Except.toOption]
    | some p => simp [Except.toOption, not_le.mp hpos]

theorem balanced_topUp {r r' : Redis} (h : Balanced r) {t : Option String} {c : String}
    {amount newBalance : ℚ} (htop : topUp r t c amount = .ok (r', newBalance)) :
    Balanced r' ↔ PlainKey (budgetPrefix (stripTenant t) c) := by
  obtain ⟨-, row, rfl, hrow⟩ := topUp_cases htop
  constructor
  · intro hbalanced
    have hwritten : ((r.setBudget (budgetPrefix (stripTenant t) c)
        (row.topUp amount)).budgets (budgetPrefix (stripTenant t) c)).balanceUsd =
        some (number row.balanceUsd + amount) := by
      rw [Redis.setBudget_self]
      rfl
    exact (hbalanced _ _ hwritten).1
  · intro hplain
    have hread := ((topUp_granted r t c amount).mp (by rw [htop]; rfl)).2
    rw [readKey_of_plain hplain] at hread
    obtain ⟨p, hp⟩ := Option.isSome_iff_exists.mp hread
    rcases hrow with rfl | ⟨hnone, -⟩
    · refine (balanced_setBudget h ?_).mpr hplain
      rw [expected_topUp, ← (h _ p hp).2]
      unfold BudgetRow.topUp incrByFloat
      dsimp only
      rw [hp, number_some]
    · rw [hp] at hnone
      cases hnone

private theorem expected_deduct (row : BudgetRow) (p cost : ℚ) :
    expected (row.deduct p cost) = expected row := by
  unfold BudgetRow.deduct
  split_ifs
  · rfl
  · rfl

theorem figures_window (r : Redis) (agg : UsageAggregate) {j : BudgetKey}
    (hj : j ≠ (sinkKeys agg).budget) :
    figures ((invoke r agg).1.budgets j) = figures (r.budgets j) := by
  obtain ⟨held, hrow⟩ := sinkScript_row_ne r (sinkKeys agg) (sinkArgs agg) hj
  unfold invoke
  rw [hrow]
  rfl

theorem balanced_window {r : Redis} (h : Balanced r) (agg : UsageAggregate) :
    Balanced (invoke r agg).1 ↔ (r.applied (sinkKeys agg).windowId = false →
      ∀ p ∈ (r.budgets (sinkKeys agg).budget).balanceUsd, agg.getCostUsd ≤ p) := by
  rw [balanced_iff_of_others h fun j hj => figures_window r agg hj]
  unfold invoke
  rcases sinkScript_row_self r (sinkKeys agg) (sinkArgs agg) with ⟨happlied, hrow⟩ |
    ⟨hfresh, hnone, held, hrow⟩ | ⟨p, held, hfresh, hp, hrow⟩
  · rw [hrow, happlied]
    exact iff_of_true (h _) fun hfresh => nomatch hfresh
  · rw [hrow, hnone]
    exact iff_of_true (fun p hp => nomatch hnone.symm.trans hp) fun _ p hp => nomatch hp
  · obtain ⟨hplain, hexact⟩ := h _ p hp
    have hexpected : expected (((r.budgets (sinkKeys agg).budget).recorded (sinkArgs agg).costUsd
        held).deduct p (sinkArgs agg).costUsd) = p - agg.getCostUsd := by
      rw [expected_deduct, hexact]
      unfold expected BudgetRow.recorded
      rw [number_incrByFloat]
      exact (sub_sub _ _ _).symm
    rw [hrow, deduct_balanceUsd, hexpected, hp]
    -- what the balance cannot pay is deducted from it all the same
    constructor
    · rintro hafter - q ⟨⟩
      have hpaid : max 0 (p - agg.getCostUsd) = p - agg.getCostUsd := (hafter _ rfl).2
      have hpositive := le_max_left 0 (p - agg.getCostUsd)
      linarith
    · rintro hpaid q ⟨⟩
      refine ⟨hplain, max_eq_right ?_⟩
      exact sub_nonneg.mpr (hpaid hfresh p rfl)

private theorem balanced_moved {r r' : Redis} (h : Balanced r) {moved : BudgetKey → ℚ}
    (hafter : ∀ k, r'.budgets k = { r.budgets k with
      balanceUsd := (r.budgets k).balanceUsd.map fun b => b - moved k }) :
    Balanced r' ↔ ∀ k, (r.budgets k).balanceUsd.isSome → moved k = 0 := by
  constructor
  · intro hbalanced k hk
    obtain ⟨p, hp⟩ := Option.isSome_iff_exists.mp hk
    have hrow := hafter k
    rw [hp, Option.map_some] at hrow
    have hexact := (hbalanced k (p - moved k) (by rw [hrow])).2
    rw [hrow] at hexact
    change p - moved k = expected (r.budgets k) at hexact
    rw [← (h k p hp).2] at hexact
    linarith
  · intro hzero k q hq
    rw [hafter] at hq ⊢
    obtain ⟨p, hp, rfl⟩ := Option.map_eq_some_iff.mp hq
    rw [hzero k (by rw [hp]; rfl), sub_zero]
    exact h k p hp

theorem movedFor_eq_zero_iff {req : ReRateRequest} {row : ModelUsageRow} :
    movedFor req row = 0 ↔ |adjustmentOf req row| < 1 / 1000 := by
  unfold movedFor
  constructor
  · intro hzero
    by_contra hlarge
    rw [if_neg hlarge] at hzero
    rw [hzero, abs_zero] at hlarge
    norm_num at hlarge
  · exact fun hsmall => if_pos hsmall

/-- Re-rating leaves the books right where every row that it does not skip is of a customer without a
budget. -/
private theorem balanced_rerate (h : Balanced s.toRedis) {t : Option String} {req : ReRateRequest}
    {rows : List ModelUsageRow} (hnodup : (rows.map ModelUsageRow.customerId).Nodup) :
    Balanced (rows.foldl (applyRow t req) (s, 0, 0)).1.toRedis ↔ ∀ row ∈ rows,
      (s.budgets (budgetPrefixForRead s.toRedis t row.customerId)).balanceUsd.isSome →
        |adjustmentOf req row| < 1 / 1000 := by
  rw [balanced_moved h fun k => budgets_foldl_applyRow rows s 0 0 k]
  constructor
  · intro hzero row hrow hread
    have hsum := hzero _ hread
    rw [sum_movedFor_read hnodup hrow] at hsum
    exact movedFor_eq_zero_iff.mp hsum
  · intro hsmall k hk
    by_cases hread : ∃ row ∈ rows, k = budgetPrefixForRead s.toRedis t row.customerId
    · obtain ⟨row, hrow, rfl⟩ := hread
      rw [sum_movedFor_read hnodup hrow]
      exact movedFor_eq_zero_iff.mpr (hsmall row hrow hk)
    · exact sum_movedFor_unread fun row hrow hkey => hread ⟨row, hrow, hkey⟩

theorem balanced_after (h : Balanced s.toRedis) (op : BalanceOp) :
    Balanced (after s op).toRedis ↔ Recorded s op := by
  cases op with
  | configure t c balance alert rpm => exact balanced_configure h t c balance alert rpm
  | topUp t c amount =>
    have hgranted := topUp_granted s.toRedis t c amount
    cases htop : topUp s.toRedis t c amount with
    | error e =>
      rw [after_topUp_refused htop]
      rw [htop] at hgranted
      exact iff_of_true h fun hpos hread => nomatch hgranted.mpr ⟨hpos, hread⟩
    | ok result =>
      rw [after_topUp_granted htop, balanced_topUp h htop]
      rw [htop] at hgranted
      obtain ⟨hpos, hread⟩ := hgranted.mp rfl
      exact ⟨fun hplain _ _ => hplain, fun hplain => hplain hpos hread⟩
  | reservation t c call =>
    exact iff_of_true ((balanced_congr (figures_reservation _ t c call)).mpr h) trivial
  | settle rid =>
    exact iff_of_true ((balanced_congr (figures_of_removes ((Removes.refl _).close rid))).mpr h)
      trivial
  | refresh rid expiresAt clock =>
    refine iff_of_true ((balanced_congr fun j => ?_).mpr h) trivial
    unfold after Reservation.refresh
    dsimp only
    split
    · rfl
    · rfl
  | expireDue cutoff =>
    exact iff_of_true ((balanced_congr (figures_of_removes (removes_expireDue _ cutoff))).mpr h)
      trivial
  | attach rid windowId => exact iff_of_true h trivial
  | window agg => exact balanced_window h agg
  | rerate catalog t req tenantKeys legacyKeys =>
    rw [after_rerate]
    by_cases hflat : assertFlatRerate catalog req.modelId = true
    · rw [if_pos hflat, balanced_rerate h (nodup_modelRows s t req.modelId tenantKeys legacyKeys)]
      exact ⟨fun hsmall _ => hsmall, fun hsmall => hsmall hflat⟩
    · rw [if_neg hflat]
      exact iff_of_true h fun hyes => absurd hyes hflat

/-! ### Runs -/

theorem balanceUsd_of_figures {row row' : BudgetRow} (h : figures row' = figures row) :
    row'.balanceUsd = row.balanceUsd := congrArg Prod.fst h

/-- The budget that a step may open. -/
def opens : BalanceOp → Option BudgetKey
  | .configure t c _ _ _ => some (budgetPrefix (stripTenant t) c)
  | .topUp t c _ => some (budgetPrefix (stripTenant t) c)
  | _ => none

theorem present_window {r : Redis} {agg : UsageAggregate} {k : BudgetKey}
    (h : ((invoke r agg).1.budgets k).balanceUsd.isSome) : (r.budgets k).balanceUsd.isSome := by
  by_cases hk : k = (sinkKeys agg).budget
  · subst hk
    unfold invoke at h
    rcases sinkScript_row_self r (sinkKeys agg) (sinkArgs agg) with ⟨-, hrow⟩ | ⟨-, -, held, hrow⟩ |
      ⟨p, held, -, hp, -⟩
    · rwa [hrow] at h
    · rwa [hrow] at h
    · rw [hp]
      rfl
  · rwa [← balanceUsd_of_figures (figures_window r agg hk)]

private theorem opened_after {op : BalanceOp} {k : BudgetKey}
    (h : ((after s op).budgets k).balanceUsd.isSome) :
    k ∈ opens op ∨ (s.budgets k).balanceUsd.isSome := by
  cases op with
  | configure t c balance alert rpm =>
    by_cases hk : budgetPrefix (stripTenant t) c = k
    · exact Or.inl (congrArg some hk)
    · unfold after at h
      dsimp only at h
      cases hconfigure : configure s.toRedis t c balance alert rpm with
      | none =>
        rw [hconfigure] at h
        exact Or.inr h
      | some r =>
        obtain ⟨-, row, -, -, hr⟩ := configure_cases hconfigure
        rw [hconfigure, Option.getD_some, hr, Redis.setBudget_ne _ _ (Ne.symm hk)] at h
        exact Or.inr h
  | topUp t c amount =>
    by_cases hk : budgetPrefix (stripTenant t) c = k
    · exact Or.inl (congrArg some hk)
    · cases htop : topUp s.toRedis t c amount with
      | error e =>
        rw [after_topUp_refused htop] at h
        exact Or.inr h
      | ok result =>
        obtain ⟨-, row, hr, -⟩ := topUp_cases htop
        rw [after_topUp_granted htop] at h
        dsimp only at h
        rw [hr, Redis.setBudget_ne _ _ (Ne.symm hk)] at h
        exact Or.inr h
  | reservation t c call =>
    rw [← balanceUsd_of_figures (figures_reservation s.toRedis t c call k)]
    exact Or.inr h
  | settle rid =>
    rw [← ((Removes.refl s.toRedis).close rid).balances k]
    exact Or.inr h
  | refresh rid expiresAt clock =>
    unfold after Reservation.refresh at h
    dsimp only at h
    split at h
    · exact Or.inr h
    · exact Or.inr h
  | expireDue cutoff =>
    rw [← (removes_expireDue s.toRedis cutoff).balances k]
    exact Or.inr h
  | attach rid windowId => exact Or.inr h
  | window agg => exact Or.inr (present_window h)
  | rerate catalog t req tenantKeys legacyKeys =>
    rw [after_rerate] at h
    split_ifs at h
    · rw [budgets_foldl_applyRow, Option.isSome_map] at h
      exact Or.inr h
    · exact Or.inr h

/-- A run from a store without balances has only those that its steps open. -/
theorem opened_run {ops : List BalanceOp} {t : Keyspace} (hrun : run step s ops = some t)
    (hempty : ∀ k, (s.budgets k).balanceUsd = none) {k : BudgetKey}
    (h : (t.budgets k).balanceUsd.isSome) : k ∈ ops.filterMap opens := by
  have hloop : ∀ (ops : List BalanceOp) (s : Keyspace), run step s ops = some t →
      k ∈ ops.filterMap opens ∨ (s.budgets k).balanceUsd.isSome := by
    intro ops
    induction ops with
    | nil =>
      rintro s ⟨⟩
      exact Or.inr h
    | cons op ops ih =>
      intro s hrun
      obtain ⟨u, hu, hrest⟩ := run_cons_eq_some.mp hrun
      obtain rfl := Option.some.inj hu
      rw [List.mem_filterMap]
      rcases ih _ hrest with hlater | hnow
      · obtain ⟨op', hop', hk⟩ := List.mem_filterMap.mp hlater
        exact Or.inl ⟨op', List.mem_cons_of_mem op hop', hk⟩
      · rcases opened_after hnow with hk | hbefore
        · exact Or.inl ⟨op, List.mem_cons_self, hk⟩
        · exact Or.inr hbefore
  rcases hloop ops s hrun with hk | hfirst
  · exact hk
  · rw [hempty k] at hfirst
    cases hfirst

/-- From a store without balances, the reports are right in every state of a run exactly where every
step opens no budget that the job misses, overdraws none, and re-rates none. -/
theorem sound_along {driftThreshold : ℚ} (hthreshold : 0 ≤ driftThreshold)
    (hempty : ∀ k, (s.budgets k).balanceUsd = none) (ops : List BalanceOp) :
    Transition.Guarded step Recorded s ops ↔
      ∀ before t, before <+: ops → run step s before = some t → Sound driftThreshold t.toRedis := by
  have hfirst : Balanced s.toRedis := fun k p hp => nomatch (hempty k).symm.trans hp
  have hbooks : Transition.Guarded step Recorded s ops ↔ ∀ before t, before <+: ops →
      run step s before = some t → Balanced t.toRedis :=
    @guarded_iff _ _ step Recorded (fun t : Keyspace => Balanced t.toRedis)
      (fun u op hu => ⟨after u op, rfl, balanced_after hu op⟩) s hfirst ops
  refine hbooks.trans (forall_congr' fun before => forall_congr' fun t =>
    imp_congr_right fun _ => forall_congr' fun hrun => ?_)
  exact (sound_iff hthreshold fun k => opened_run hrun hempty).symm

end Steps

/-- A window of a million input tokens that cost so many micro-dollars. -/
def millionTokens (customerId : String) (costMicro : ℤ) : UsageAggregate :=
  { customerId := some customerId, modelId := some "gpt-4o", windowEnd := 10000,
    inputTokens := 1000000, costMicro }

/-- A dollar more for a million tokens. -/
def raisedPrice : ReRateRequest where
  modelId := "gpt-4o"
  oldInputPrice := 1
  newInputPrice := 2
  oldOutputPrice := 1
  newOutputPrice := 1

def rerateOf (customerId : String) : BalanceOp :=
  .rerate gpt4oCatalog none raisedPrice []
    ["customer:" ++ customerId ++ ":model:gpt-4o:input_tokens"]

/-- A window that is paid, and a re-rating of another model for a customer without a budget. -/
def paid : List BalanceOp :=
  [.configure none "acme" 10 none none, .topUp none "acme" 5,
    .reservation none "acme" (.openHold "r" 2 none none 0), .attach "r" "w",
    .window { millionTokens "acme" 12000000 with modelId := some "o3" },
    .window (millionTokens "beta" 1000000),
    rerateOf "beta", .settle "r"]

theorem sound_along_paid :
    ∃ t, run step {} paid = some t ∧ (t.budgets ⟨none, "acme"⟩).balanceUsd = some 3 ∧
      Sound (1 / 100) t.toRedis := by
  obtain ⟨t, hrun⟩ : ∃ t, run step {} paid = some t := ⟨_, rfl⟩
  have hbalance : (run step {} paid).map (fun t => (t.budgets ⟨none, "acme"⟩).balanceUsd) =
      some (some 3) := by decide +kernel
  rw [hrun] at hbalance
  have hguarded : Transition.Guarded step Recorded {} paid := by decide +kernel
  exact ⟨t, hrun, Option.some.inj hbalance, (sound_along (by norm_num) (fun _ => rfl) paid).mp
    hguarded paid t List.prefix_rfl hrun⟩

def overdrawn : List BalanceOp :=
  [.configure none "acme" 10 none none, .window (millionTokens "acme" 12000000)]

def rerated : List BalanceOp :=
  [.configure none "acme" 10 none none, .window (millionTokens "acme" 1000000), rerateOf "acme"]

/-- The job reports the debt of an overdraft and the amount of a re-rating as drifts; changes of the
budgets of a tenant, and of a customer with a colon, it reports under no name or another one. -/
theorem not_sound :
    (∃ t, run step {} overdrawn = some t ∧ Scanned t.toRedis [⟨none, "acme"⟩] ∧
      (reconcileAll (1 / 100) t.toRedis [⟨none, "acme"⟩] 0).2.drifts = [⟨"acme", 0, -2, 2, 2⟩]) ∧
    (∃ t, run step {} rerated = some t ∧ Scanned t.toRedis [⟨none, "acme"⟩] ∧
      (reconcileAll (1 / 100) t.toRedis [⟨none, "acme"⟩] 0).2.drifts = [⟨"acme", 8, 9, -1, 0⟩]) ∧
    ∀ k ∈ [(some "t", "acme"), (none, "a:b")], ∃ t,
      run step {} [.configure k.1 k.2 10 none none] = some t ∧ ¬ Sound (1 / 100) t.toRedis := by
  have hscanned : ∀ ops t, run step {} ops = some t → ops.filterMap opens = [⟨none, "acme"⟩] →
      (t.budgets ⟨none, "acme"⟩).balanceUsd.isSome → Scanned t.toRedis [⟨none, "acme"⟩] := by
    intro ops t hrun hopens hsome k
    constructor
    · intro hk
      rw [List.mem_singleton.mp hk]
      exact ⟨hsome, matches_iff.mpr rfl⟩
    · rintro ⟨hk, -⟩
      exact hopens ▸ opened_run hrun (fun _ => rfl) hk
  refine ⟨⟨_, rfl, hscanned overdrawn _ rfl (by decide +kernel) (by decide +kernel),
      by decide +kernel⟩,
    ⟨_, rfl, hscanned rerated _ rfl (by decide +kernel) (by decide +kernel), by decide +kernel⟩,
    fun k hk => ?_⟩
  obtain ⟨t, hrun⟩ : ∃ t, run step {} [.configure k.1 k.2 10 none none] = some t := ⟨_, rfl⟩
  refine ⟨t, hrun, fun hsound => ?_⟩
  obtain ⟨found, hscan⟩ := exists_scanned fun k => opened_run hrun fun _ => rfl
  have hopened : (t.budgets (budgetPrefix (stripTenant k.1) k.2)).balanceUsd.isSome ∧
      ¬ PlainKey (budgetPrefix (stripTenant k.1) k.2) := by
    rw [← Option.some.inj hrun]
    rcases List.mem_pair.mp hk with rfl | rfl
    · decide +kernel
    · decide +kernel
  exact hopened.2 (hsound.plain hscan hopened.1)

end FluxMeter.Job.ReconcileBalances
