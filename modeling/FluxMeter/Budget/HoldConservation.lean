import FluxMeter.Budget.Ledger
import FluxMeter.Budget.Settlement

/-! Conservation of holds: over every run the hold counter of a budget covers the open
records, so a close releases exactly what its record reserved. -/
namespace FluxMeter.Budget
open Collections FluxMeter.Keys Transition

/-! ### What each operation keeps -/

/-- The records stay as opened, no budget loses its balance, and the counter of `b` stays above
the recorded holds by whatever amount it was above them before. -/
structure Keeps (b : BudgetKey) (r r' : Redis) : Prop where
  records : r.RecordsOpened → r'.RecordsOpened
  balances : ∀ j, (r.budgets j).balanceUsd.isSome → (r'.budgets j).balanceUsd.isSome
  balanced : ∀ a, 0 ≤ a → r.RecordsOpened → r.recorded b + a = r.held b →
    r'.recorded b + a = r'.held b

namespace Keeps
variable {b : BudgetKey} {r r' : Redis}

theorem refl (b : BudgetKey) (r : Redis) : Keeps b r r := ⟨id, fun _ h => h, fun _ _ _ h => h⟩

theorem of_frame (hres : r'.reservations = r.reservations)
    (hbal : ∀ j, (r'.budgets j).balanceUsd = (r.budgets j).balanceUsd)
    (hheld : r'.held b = r.held b) : Keeps b r r' where
  records h := by unfold Redis.RecordsOpened; rw [hres]; exact h
  balances j h := by rw [hbal]; exact h
  balanced a _ _ h := by
    have hsame : r'.recorded b = r.recorded b := by unfold Redis.recorded; rw [hres]
    rw [hsame, hheld]; exact h

end Keeps

theorem openScript_keeps (b : BudgetKey) (r : Redis) (budget : BudgetKey) (span : Option SpanKey)
    {a : OpenArgs} (hpos : 0 < a.estimate) : Keeps b r (openScript r budget span a).1 := by
  rcases openScript_cases r budget span a with
    ⟨-, hsame⟩ | ⟨balance, r₁, spanHeld, spanSpent, -, hfresh, -, -, hspan, hnew⟩
  · rw [hsame]; exact Keeps.refl b r
  have hres := (admitSpan_frame hspan).2.1
  rw [← hres] at hfresh
  rw [hnew]
  constructor
  case records =>
    intro hr k record hk
    dsimp only at hk
    rw [Table.get_set] at hk
    split_ifs at hk with heq
    · rw [← Option.some.inj hk]
      exact ⟨⟨budget, rfl⟩, hpos⟩
    · rw [hres] at hk
      exact hr k record hk
  case balances =>
    intro j hj
    have hsame := admitted_balanceUsd hspan j budget a.estimate
    dsimp only
    rw [hsame]
    exact hj
  case balanced =>
    intro q _ _ hbal
    have htotal := r₁.reservations.weight_set_of_none (a.record budget span)
      (fun _ => recordHold b) hfresh
    have hheld := admitted_held hspan b budget a.estimate
    have hown : recordHold b (a.record budget span) = if b = budget then a.estimate else 0 := by
      simp [recordHold, OpenArgs.record, eq_comm]
    have hrest : r₁.recorded b = r.recorded b := by unfold Redis.recorded; rw [hres]
    change (r₁.reservations.set a.reservationId (a.record budget span)).weight
      (fun _ => recordHold b) + q = (r₁.incrHeld budget a.estimate).held b
    change _ = _ + r₁.recorded b at htotal
    linarith

theorem openHold_keeps (b : BudgetKey) (r : Redis) (t : Option String) (rid c : String)
    (estimate : ℚ) (parent : Option String) (expiresAt : Option ℚ) (clock : ℚ) :
    Keeps b r (Reservation.openHold r t rid c estimate parent expiresAt clock).1 := by
  unfold Reservation.openHold
  split_ifs with hpos
  · exact Keeps.refl b r
  · exact openScript_keeps b r _ _ (not_le.mp hpos)

/-- A top-up never moves a hold of a configured budget; a tenant that still reads the legacy
budget gets a copy of it under a key that had no balance. -/
theorem topUp_keeps {b : BudgetKey} {r r' : Redis} {t : Option String} {c : String}
    {amount newBalance : ℚ} (hb : (r.budgets b).balanceUsd.isSome)
    (h : topUp r t c amount = .ok (r', newBalance)) : Keeps b r r' := by
  obtain ⟨-, row, rfl, hrow⟩ := topUp_cases h
  set w := budgetPrefix (stripTenant t) c with hw
  constructor
  case records => exact id
  case balances =>
    intro j hj
    by_cases hjw : j = w
    · rw [hjw, Redis.setBudget_self]; rfl
    · rw [Redis.setBudget_ne _ _ hjw]; exact hj
  case balanced =>
    intro q _ _ hbal
    refine hbal.trans ?_
    unfold Redis.held
    by_cases hbw : b = w
    · subst hbw
      rcases hrow with hown | ⟨hnone, -⟩
      · rw [Redis.setBudget_self, ← hown]
        rfl
      · rw [hnone] at hb
        simp at hb
    · rw [Redis.setBudget_ne _ _ hbw]

theorem refresh_keeps (b : BudgetKey) (r : Redis) (rid : String) (expiresAt : Option ℚ)
    (clock : ℚ) : Keeps b r (Reservation.refresh r rid expiresAt clock).1 := by
  unfold Reservation.refresh
  split
  · exact Keeps.refl b r
  · exact Keeps.of_frame rfl (fun _ => rfl) rfl

theorem attach_keeps (b : BudgetKey) (r : Redis) (rid w : String) :
    Keeps b r (attachReservation r rid w) := Keeps.of_frame rfl (fun _ => rfl) rfl

theorem settle_keeps (b : BudgetKey) (r : Redis) (rid : String) :
    Keeps b r (Reservation.settle r rid).1 where
  records h := ((Removes.refl r).close rid).recordsOpened h
  balances j h := by
    have hsame := ((Removes.refl r).close rid).balances j
    exact hsame ▸ h
  balanced _ ha hr hbal := close_balanced hr ha hbal

theorem expireDue_keeps (b : BudgetKey) (r : Redis) (cutoff : ℚ) :
    Keeps b r (Reservation.expireDue r cutoff).1 where
  records h := (removes_expireDue r cutoff).recordsOpened h
  balances j h := by
    have hsame := (removes_expireDue r cutoff).balances j
    exact hsame ▸ h
  balanced _ ha hr hbal := (closed_expireDue ha hr hbal cutoff).balanced

/-- A window settles the budget `b` exactly with the attached reservations held on `b`. -/
def SettlesOwn (b : BudgetKey) (r : Redis) (k : SinkKeys) : Prop :=
  r.applied k.windowId = false → ∀ rid ∈ r.windowReservations k.windowId, ∀ record,
    r.reservations.get rid = some record → (record.heldKey = some b ↔ k.budget = b)

instance (b : BudgetKey) (r : Redis) (k : SinkKeys) : Decidable (SettlesOwn b r k) :=
  inferInstanceAs (Decidable (r.applied k.windowId = false →
    ∀ rid ∈ r.windowReservations k.windowId, ∀ record ∈ r.reservations.get rid,
      (record.heldKey = some b ↔ k.budget = b)))

/-- The settlement loop of a fresh window, before the deduction. -/
theorem settleWindow_closed {b : BudgetKey} {q : ℚ} {r : Redis} {k : SinkKeys} (a : SinkArgs)
    (hq : 0 ≤ q) (hr : r.RecordsOpened) (hbal : r.recorded b + q = r.held b)
    (hown : SettlesOwn b r k) (hfresh : r.applied k.windowId = false) :
    Closed b q (recordWindow r k a) (settleWindow (recordWindow r k a) k) := by
  have hheld : (recordWindow r k a).held b = r.held b := by
    unfold Redis.held; rw [recordWindow_budgets]
  have hbal' : (recordWindow r k a).recorded b + q = (recordWindow r k a).held b := by
    rw [hheld]; exact hbal
  have hclosed := closed_settleAll hq (r := recordWindow r k a) hr hbal' _ (hown hfresh)
  exact ⟨⟨hclosed.rows, hclosed.kept⟩, hclosed.balanced⟩

theorem window_removes (r : Redis) (k : SinkKeys) (a : SinkArgs) :
    (∀ rid record, (sinkScript r k a).1.reservations.get rid = some record →
      r.reservations.get rid = some record) ∧
    ∀ j, (r.budgets j).balanceUsd.isSome →
      ((sinkScript r k a).1.budgets j).balanceUsd.isSome := by
  have hset := settleWindow_removes (recordWindow r k a) k
  have hbal : ∀ j, ((settleWindow (recordWindow r k a) k).budgets j).balanceUsd =
      (r.budgets j).balanceUsd := by
    intro j
    rw [hset.balances j, recordWindow_budgets]
  rcases sinkScript_cases r k a with ⟨-, h⟩ | ⟨-, -, h⟩ | ⟨balance, -, -, h⟩
  · rw [h]
    exact ⟨fun _ _ hk => hk, fun _ hj => hj⟩
  · rw [h]
    exact ⟨hset.kept, fun j hj => by rw [hbal]; exact hj⟩
  · rw [h]
    refine ⟨hset.kept, fun j hj => ?_⟩
    by_cases hjk : j = k.budget
    · rw [hjk, Redis.setBudget_self]
      exact deduct_balanceUsd_isSome _ _ _
    · rw [Redis.setBudget_ne _ _ hjk, hbal]
      exact hj

theorem window_keeps {b : BudgetKey} {r : Redis} {k : SinkKeys} (a : SinkArgs)
    (hown : SettlesOwn b r k) : Keeps b r (sinkScript r k a).1 where
  records h rid record hget := h rid record ((window_removes r k a).1 rid record hget)
  balances := (window_removes r k a).2
  balanced q hq hr hbal := by
    rcases sinkScript_cases r k a with ⟨-, h⟩ | ⟨hfresh, -, h⟩ | ⟨balance, hfresh, -, h⟩
    · rw [h]; exact hbal
    · rw [h]; exact (settleWindow_closed a hq hr hbal hown hfresh).balanced
    · rw [h]
      refine (settleWindow_closed a hq hr hbal hown hfresh).balanced.trans ?_
      unfold Redis.held
      by_cases hb : b = k.budget
      · rw [hb, Redis.setBudget_self, deduct_heldUsd]
      · rw [Redis.setBudget_ne _ _ hb]

/-! ### What one step keeps -/

namespace Ledger

/-- The records and reserves are well formed, and the hold counter of `b` covers them. -/
def Covered (b : BudgetKey) (l : Ledger) : Prop := l.WellFormed b ∧ ∃ e, 0 ≤ e ∧ l.Balanced b e

/-- What an operator may do to the budget `b`: configure it only while no record is open on it,
and apply windows only with their own reservations. -/
def Allowed (b : BudgetKey) (l : Ledger) : LedgerOp → Prop
  | .configure t c _ _ _ =>
    ownKey t c = b → ∀ row ∈ l.redis.reservations.rows, row.2.heldKey ≠ some b
  | .window k _ => SettlesOwn b l.redis k
  | _ => True

instance (b : BudgetKey) (l : Ledger) : ∀ op, Decidable (l.Allowed b op)
  | .configure t c _ _ _ => inferInstanceAs (Decidable (ownKey t c = b →
      ∀ row ∈ l.redis.reservations.rows, row.2.heldKey ≠ some b))
  | .window k _ => inferInstanceAs (Decidable (SettlesOwn b l.redis k))
  | .topUp .. | .openHold .. | .reserve .. | .reconcile .. | .refresh .. | .settle ..
  | .expireDue .. | .attach .. => isTrue trivial

variable {b : BudgetKey} {l l' : Ledger}

theorem Covered.of_keeps {r : Redis} (h : l.Covered b) (hkeep : Keeps b l.redis r) :
    Covered b { l with redis := r } := by
  obtain ⟨hwf, e, he, hbal⟩ := h
  refine ⟨⟨hkeep.records hwf.records, hwf.positive, hwf.traced, fun call hc => ?_, ?_⟩, e, he, ?_⟩
  · exact hkeep.balances _ (hwf.granted call hc)
  · exact hkeep.balances _ hwf.configured
  · have hanon := anonymous_nonneg hwf.positive b
    have hkept := hkeep.balanced (l.anonymous b + e) (by linarith) hwf.records
      (by unfold Balanced at hbal; linarith)
    change r.recorded b + l.anonymous b + e = r.held b
    linarith

theorem budget_of_readKey (hwf : l.WellFormed b) {call : ReserveCall} (hc : call ∈ l.reserves)
    (hread : readKey l.redis call.tenantId call.customerId = b) : call.budget = b := by
  have hgranted := hwf.granted call hc
  rcases hwf.traced call hc with hown | ⟨hlegacy, hne⟩
  · have hpresent : (l.redis.budgets (ownKey call.tenantId call.customerId)).present := by
      rw [← hown]
      simp [BudgetRow.present, hgranted]
    unfold readKey budgetPrefixForRead at hread
    unfold ownKey at hpresent hown
    simp only [hpresent, if_true] at hread
    split_ifs at hread <;> rw [hown, hread]
  · unfold readKey budgetPrefixForRead at hread
    dsimp only at hread
    split_ifs at hread
    · exact absurd hread hne
    · exact absurd hread hne
    · rw [hlegacy, hread]
    · exact absurd hread hne

theorem anonymous_filter_ne {own : BudgetKey} (r : Redis) (calls : List ReserveCall)
    (hne : b ≠ own) : anonymous ⟨r, calls.filter fun call => call.budget ≠ own⟩ b =
      anonymous ⟨r, calls⟩ b := by
  unfold anonymous
  dsimp only
  induction calls with
  | nil => rfl
  | cons call calls ih =>
    by_cases hc : call.budget = own
    · have hweight : ¬ call.budget = b := fun h => hne (h.symm.trans hc)
      rw [List.filter_cons_of_neg (by simpa using hc), List.map_cons, List.sum_cons, ih,
        if_neg hweight, zero_add]
    · rw [List.filter_cons_of_pos (by simpa using hc), List.map_cons, List.sum_cons,
        List.map_cons, List.sum_cons, ih]

private theorem anonymous_filter_self (r : Redis) (calls : List ReserveCall) :
    anonymous ⟨r, calls.filter fun call => call.budget ≠ b⟩ b = 0 := by
  unfold anonymous
  apply List.sum_eq_zero
  intro x hx
  obtain ⟨call, hc, rfl⟩ := List.mem_map.mp hx
  have hne : call.budget ≠ b := by simpa using (List.mem_filter.mp hc).2
  exact if_neg hne

theorem recorded_of_none {r : Redis} (h : ∀ row ∈ r.reservations.rows, row.2.heldKey ≠ some b) :
    r.recorded b = 0 := by
  have hzero : r.reservations.weight (fun _ => recordHold b) = r.reservations.weight fun _ _ => 0 :=
    r.reservations.weight_congr fun rid record hget =>
      if_neg (h (rid, record) ((r.reservations.get_eq_some_iff _ _).mp hget))
  unfold Redis.recorded
  rw [hzero]
  simp [Table.weight]

theorem configure_covered {t : Option String} {c : String} {balance : ℚ}
    {alert : Option ℚ} {rpm : Option ℤ} {r : Redis} (h : l.Covered b)
    (hok : l.Allowed b (.configure t c balance alert rpm))
    (hr : configure l.redis t c balance alert rpm = some r) :
    Covered b ⟨r, l.reserves.filter fun call => call.budget ≠ ownKey t c⟩ := by
  obtain ⟨hwf, e, he, hbal⟩ := h
  obtain ⟨-, row, hrow, hheld, rfl⟩ := configure_cases hr
  change Covered b ⟨l.redis.setBudget (ownKey t c) row, _⟩
  have hbalances : ∀ j, (l.redis.budgets j).balanceUsd.isSome →
      ((l.redis.setBudget (ownKey t c) row).budgets j).balanceUsd.isSome := by
    intro j hj
    by_cases hjw : j = ownKey t c
    · rw [hjw, Redis.setBudget_self, hrow]; rfl
    · rw [Redis.setBudget_ne _ _ hjw]; exact hj
  refine ⟨⟨hwf.records, fun call hc => ?_, fun call hc => ?_, fun call hc => ?_, ?_⟩, ?_⟩
  · exact hwf.positive call (List.mem_of_mem_filter hc)
  · exact hwf.traced call (List.mem_of_mem_filter hc)
  · exact hbalances _ (hwf.granted call (List.mem_of_mem_filter hc))
  · exact hbalances _ hwf.configured
  · by_cases hb : b = ownKey t c
    · -- the reset counter has no record and no reserve left to cover
      subst hb
      have hrecorded : l.redis.recorded (ownKey t c) = 0 := recorded_of_none (hok rfl)
      have hzero : (l.redis.setBudget (ownKey t c) row).held (ownKey t c) = 0 := by
        unfold Redis.held
        rw [Redis.setBudget_self, hheld, number_some]
      have hvoid := anonymous_filter_self (b := ownKey t c)
        (l.redis.setBudget (ownKey t c) row) l.reserves
      refine ⟨0, le_rfl, ?_⟩
      unfold Balanced
      rw [hvoid, hzero]
      change l.redis.recorded (ownKey t c) + 0 + 0 = 0
      rw [hrecorded, add_zero, add_zero]
    · refine ⟨e, he, ?_⟩
      have hsame : (l.redis.setBudget (ownKey t c) row).held b = l.redis.held b := by
        unfold Redis.held
        rw [Redis.setBudget_ne _ _ hb]
      unfold Balanced
      rw [anonymous_filter_ne _ _ hb, hsame]
      exact hbal

private theorem traced_readKey {r : Redis} (hb : (r.budgets b).balanceUsd.isSome) (t : Option String)
    (c : String) {parent : Option String} {amount : ℚ} {span : Option SpanKey} :
    Traced b ⟨t, c, parent, amount, readKey r t c, span⟩ := by
  unfold Traced readKey budgetPrefixForRead ownKey
  dsimp only
  split_ifs with htenant hown hlegacy
  · exact .inl rfl
  · exact .inl rfl
  · refine .inr ⟨rfl, fun heq => hown ?_⟩
    rw [heq]
    simp [BudgetRow.present, hb]
  · exact .inl rfl

theorem reserve_covered {t : Option String} {c : String} {estimate : ℚ} {parent : Option String}
    (h : l.Covered b)
    (hreply : (Reservation.reserve l.redis t c estimate parent).2.isReserved) :
    Covered b ⟨(Reservation.reserve l.redis t c estimate parent).1,
      ⟨t, c, parent, estimate, readKey l.redis t c,
        Reservation.scope l.redis (stripTenant t) parent⟩ :: l.reserves⟩ := by
  obtain ⟨hwf, e, he, hbal⟩ := h
  unfold Reservation.reserve at hreply ⊢
  split_ifs at hreply ⊢ with hpos
  · simp [ReserveReply.isReserved] at hreply
  dsimp only at hreply ⊢
  rcases reserveScript_cases l.redis (budgetPrefixForRead l.redis (stripTenant t) c)
      (Reservation.scope l.redis (stripTenant t) parent) estimate with
    ⟨hno, -⟩ | ⟨balance, r₁, spanHeld, spanSpent, -, hbalance, -, hspan, hnew⟩
  · rw [hno] at hreply; simp at hreply
  change _ = r₁.incrHeld (readKey l.redis t c) estimate at hnew
  change (l.redis.budgets (readKey l.redis t c)).balanceUsd = some balance at hbalance
  rw [hnew]
  obtain ⟨hbud, hres, -, -, -⟩ := admitSpan_frame hspan
  have hbalances : ∀ j, ((r₁.incrHeld (readKey l.redis t c) estimate).budgets j).balanceUsd =
      (l.redis.budgets j).balanceUsd := by
    intro j
    rw [Redis.balanceUsd_incrHeld, hbud]
  refine ⟨⟨?_, ?_, ?_, ?_, ?_⟩, e, he, ?_⟩
  case refine_1 =>
    intro rid record hget
    exact hwf.records rid record (hres ▸ hget)
  case refine_2 =>
    intro call hc
    rcases List.mem_cons.mp hc with rfl | hc
    · exact not_le.mp hpos
    · exact hwf.positive call hc
  case refine_3 =>
    intro call hc
    rcases List.mem_cons.mp hc with rfl | hc
    · exact traced_readKey hwf.configured t c
    · exact hwf.traced call hc
  case refine_4 =>
    intro call hc
    rcases List.mem_cons.mp hc with rfl | hc
    · dsimp only
      rw [hbalances, hbalance]
      rfl
    · dsimp only
      rw [hbalances]
      exact hwf.granted call hc
  case refine_5 =>
    dsimp only
    rw [hbalances]
    exact hwf.configured
  case refine_6 =>
    have hheld := admitted_held hspan b (readKey l.redis t c) estimate
    have hrecorded : (r₁.incrHeld (readKey l.redis t c) estimate).recorded b =
        l.redis.recorded b := by unfold Redis.recorded; rw [Redis.incrHeld_reservations, hres]
    unfold Balanced anonymous at hbal ⊢
    simp only [List.map_cons, List.sum_cons, hrecorded, eq_comm (a := b)] at hheld ⊢
    linarith

/-- Taking an outstanding reserve out lowers the anonymous hold of its budget by its amount. -/
theorem anonymous_erase (r : Redis) {call : ReserveCall} (hc : call ∈ l.reserves) (b : BudgetKey) :
    (if call.budget = b then call.amountUsd else 0) + anonymous ⟨r, l.reserves.erase call⟩ b =
      l.anonymous b :=
  List.sum_map_erase (fun call => if call.budget = b then call.amountUsd else 0) hc

private theorem reconcile_covered {call : ReserveCall} (h : l.Covered b) (hc : call ∈ l.reserves) :
    Covered b ⟨(Reservation.reconcile l.redis call.tenantId call.customerId call.amountUsd
      call.parentSpanId).1, l.reserves.erase call⟩ := by
  obtain ⟨hwf, e, he, hbal⟩ := h
  have hpos := hwf.positive call hc
  set k := readKey l.redis call.tenantId call.customerId with hk
  set span := Reservation.scope l.redis (stripTenant call.tenantId) call.parentSpanId
  have hstep : (Reservation.reconcile l.redis call.tenantId call.customerId call.amountUsd
      call.parentSpanId).1 = (releaseHold l.redis k span call.amountUsd).1 := by
    unfold Reservation.reconcile reconcileScript
    dsimp only
    rw [max_eq_right hpos.le]
    rfl
  have hres := (releaseHold_frame l.redis k span call.amountUsd).1
  have hbalances : ∀ j, ((releaseHold l.redis k span call.amountUsd).1.budgets j).balanceUsd =
      (l.redis.budgets j).balanceUsd := by
    intro j
    rw [releaseHold_budgets]
  rw [hstep]
  constructor
  case left =>
    refine ⟨?_, fun c hcm => ?_, fun c hcm => ?_, fun c hcm => ?_, ?_⟩
    · intro rid record hget
      exact hwf.records rid record (hres ▸ hget)
    · exact hwf.positive c (List.mem_of_mem_erase hcm)
    · exact hwf.traced c (List.mem_of_mem_erase hcm)
    · dsimp only
      rw [hbalances]
      exact hwf.granted c (List.mem_of_mem_erase hcm)
    · dsimp only
      rw [hbalances]
      exact hwf.configured
  case right =>
    have hrecorded : (releaseHold l.redis k span call.amountUsd).1.recorded b =
        l.redis.recorded b := by unfold Redis.recorded; rw [hres]
    have herase := anonymous_erase (l := l)
      (releaseHold l.redis k span call.amountUsd).1 hc b
    unfold Balanced at hbal ⊢
    dsimp only
    rw [hrecorded]
    by_cases hkb : k = b
    · -- the caller reads `b`, so the hold was charged to `b` and is still covered there
      have hown : call.budget = b := budget_of_readKey hwf hc (hk ▸ hkb)
      have hle := amount_le_anonymous hwf.positive hc
      have hrec := recorded_nonneg hwf.records b
      have hexact := (releaseHold_exact (r := l.redis) (b := k) span hpos
        (by rw [hkb]; rw [hown] at hle; linarith)).2 b
      rw [if_pos hkb.symm] at hexact
      rw [if_pos hown] at herase
      exact ⟨e, he, by linarith⟩
    · have hne := releaseHold_held_ne l.redis span call.amountUsd
        fun h : b = k => hkb h.symm
      by_cases hown : call.budget = b
      · rw [if_pos hown] at herase
        exact ⟨e + call.amountUsd, by linarith, by linarith⟩
      · rw [if_neg hown] at herase
        exact ⟨e, he, by linarith⟩

theorem step_covered {op : LedgerOp} (h : l.Covered b) (hok : l.Allowed b op)
    (hstep : l.step op = some l') : l'.Covered b := by
  cases op with
  | configure t c balance alert rpm =>
    unfold step at hstep
    dsimp only at hstep
    split at hstep
    · rw [← Option.some.inj hstep]; exact h
    next r hr =>
      rw [← Option.some.inj hstep]
      exact configure_covered h hok hr
  | topUp t c amount =>
    unfold step at hstep
    dsimp only at hstep
    split at hstep
    · rw [← Option.some.inj hstep]; exact h
    next r newBalance hr =>
      rw [← Option.some.inj hstep]
      exact h.of_keeps (topUp_keeps h.1.configured hr)
  | openHold t rid c estimate parent expiresAt clock =>
    rw [← Option.some.inj hstep]
    exact h.of_keeps (openHold_keeps b _ _ _ _ _ _ _ _)
  | reserve t c estimate parent =>
    unfold step at hstep
    dsimp only at hstep
    split_ifs at hstep with hreply
    · rw [← Option.some.inj hstep]
      exact reserve_covered h hreply
    · rw [← Option.some.inj hstep, reserve_refused hreply]
      exact h
  | reconcile call =>
    unfold step at hstep
    dsimp only at hstep
    split_ifs at hstep with hc
    rw [← Option.some.inj hstep]
    exact reconcile_covered h hc
  | refresh rid expiresAt clock =>
    rw [← Option.some.inj hstep]
    exact h.of_keeps (refresh_keeps b _ _ _ _)
  | settle rid =>
    rw [← Option.some.inj hstep]
    exact h.of_keeps (settle_keeps b _ _)
  | expireDue cutoff =>
    rw [← Option.some.inj hstep]
    exact h.of_keeps (expireDue_keeps b _ _)
  | attach rid w =>
    rw [← Option.some.inj hstep]
    exact h.of_keeps (attach_keeps b _ _ _)
  | window k a =>
    rw [← Option.some.inj hstep]
    exact h.of_keeps (window_keeps a hok)

/-- The operations that release holds of reservation records. -/
def closes : LedgerOp → Bool
  | .settle _ | .expireDue _ | .window _ _ => true
  | _ => false

/-- The counter of `b` covers its open records, and whichever closer meets one of them gives
back exactly its amount and removes it, so that no closer finds it again. -/
structure Conserved (b : BudgetKey) (r : Redis) : Prop where
  covered : r.recorded b ≤ r.held b
  close_exact : ∀ rid record, r.reservations.get rid = some record → record.heldKey = some b →
    (Reservation.close r rid).2 = some (record.customerId, record.reservedUsd) ∧
      (Reservation.close r rid).1.held b + record.reservedUsd = r.held b ∧
      (Reservation.close r rid).1.reservations.get rid = none
  settle_exact : ∀ rid record, r.reservations.get rid = some record → record.heldKey = some b →
    (settleOne b r rid).held b + record.reservedUsd = r.held b ∧
      (settleOne b r rid).reservations.get rid = none
  gone : ∀ rid, r.reservations.get rid = none →
    (Reservation.close r rid).2 = none ∧ (Reservation.close r rid).1.held b = r.held b ∧
      ∀ k, (settleOne k r rid).held b = r.held b

/-- A step releases from `b` what the records of `b` that it removes had reserved; it changes
no record, and only a closer removes one. -/
structure ReleasesExactly (b : BudgetKey) (op : LedgerOp) (r r' : Redis) : Prop where
  released : closes op → r'.held b + r.recorded b = r.held b + r'.recorded b
  removed : closes op → ∀ rid record, r'.reservations.get rid = some record →
    r.reservations.get rid = some record
  kept : closes op = false → ∀ rid record, r.reservations.get rid = some record →
    r'.reservations.get rid = some record

theorem conserved_of_covered (h : l.Covered b) : Conserved b l.redis := by
  obtain ⟨hwf, e, he, hbal⟩ := h
  have hanon := anonymous_nonneg hwf.positive b
  have hcovered : l.redis.recorded b ≤ l.redis.held b := by
    unfold Balanced at hbal
    linarith
  refine ⟨hcovered, fun rid record hget hkey => ?_, fun rid record hget hkey => ?_,
    fun rid hget => ?_⟩
  · have hle := (reserved_le_recorded hwf.records hget hkey).trans hcovered
    have hexact := releaseHold_exact record.spanHeldKey (hwf.records rid record hget).2 hle
    have hheld := hexact.2 b
    rw [if_pos rfl] at hheld
    refine ⟨?_, ?_, ?_⟩
    · rw [close_of_some hget hkey, hexact.1]
    · rw [close_of_some hget hkey]
      change (releaseHold l.redis b record.spanHeldKey record.reservedUsd).1.held b + _ = _
      linarith
    · rw [close_reservations, if_pos rfl]
  · have hle := (reserved_le_recorded hwf.records hget hkey).trans hcovered
    have hexact := (releaseHold_exact (sinkSpan record) (hwf.records rid record hget).2
      hle).2 b
    rw [if_pos rfl] at hexact
    refine ⟨?_, ?_⟩
    · rw [settleOne_of_some b hget]
      change (releaseHold l.redis b (sinkSpan record) record.reservedUsd).1.held b + _ = _
      linarith
    · rw [settleOne_reservations, if_pos rfl]
  · refine ⟨?_, ?_, fun k => ?_⟩
    · rw [close_of_none hget]
    · rw [close_of_none hget]
      rfl
    · rw [settleOne_of_none k hget]
      exact releaseHold_zero l.redis k none b

private theorem openHold_kept (r : Redis) (t : Option String) (rid c : String) (estimate : ℚ)
    (parent : Option String) (expiresAt : Option ℚ) (clock : ℚ) {k : String}
    {record : ReservationRecord} (hget : r.reservations.get k = some record) :
    (Reservation.openHold r t rid c estimate parent expiresAt clock).1.reservations.get k =
      some record := by
  unfold Reservation.openHold
  split_ifs with hpos
  · exact hget
  rcases openScript_cases r (budgetPrefixForRead r (stripTenant t) c)
      (Reservation.scope r (stripTenant t) parent)
      ⟨rid, c, (stripTenant t).getD "", parent.getD "", estimate, expiresAt.getD (clock + 900)⟩
    with ⟨-, hsame⟩ | ⟨balance, r₁, spanHeld, spanSpent, -, hfresh, -, -, hspan, hnew⟩
  · dsimp only
    rw [hsame]
    exact hget
  · have hne : k ≠ rid := by
      intro heq
      subst heq
      exact absurd hget (by rw [hfresh]; simp)
    dsimp only
    rw [hnew]
    dsimp only
    rw [Table.get_set_ne _ _ hne, (admitSpan_frame hspan).2.1]
    exact hget

private theorem reserve_reservations (r : Redis) (t : Option String) (c : String) (estimate : ℚ)
    (parent : Option String) :
    (Reservation.reserve r t c estimate parent).1.reservations = r.reservations := by
  unfold Reservation.reserve
  split_ifs
  · rfl
  rcases reserveScript_cases r (budgetPrefixForRead r (stripTenant t) c)
      (Reservation.scope r (stripTenant t) parent) estimate with
    ⟨-, hsame⟩ | ⟨balance, r₁, spanHeld, spanSpent, -, -, -, hspan, hnew⟩
  · dsimp only
    rw [hsame]
  · dsimp only
    rw [hnew, Redis.incrHeld_reservations, (admitSpan_frame hspan).2.1]

theorem step_kept {op : LedgerOp} (hno : closes op = false) (hstep : l.step op = some l')
    {rid : String} {record : ReservationRecord}
    (hget : l.redis.reservations.get rid = some record) :
    l'.redis.reservations.get rid = some record := by
  cases op with
  | configure t c balance alert rpm =>
    unfold step at hstep
    dsimp only at hstep
    split at hstep
    · rw [← Option.some.inj hstep]; exact hget
    next r hr =>
      obtain ⟨-, row, -, -, rfl⟩ := configure_cases hr
      rw [← Option.some.inj hstep]
      exact hget
  | topUp t c amount =>
    unfold step at hstep
    dsimp only at hstep
    split at hstep
    · rw [← Option.some.inj hstep]; exact hget
    next r newBalance hr =>
      obtain ⟨-, row, rfl, -⟩ := topUp_cases hr
      rw [← Option.some.inj hstep]
      exact hget
  | openHold t rid c estimate parent expiresAt clock =>
    rw [← Option.some.inj hstep]
    exact openHold_kept _ _ _ _ _ _ _ _ hget
  | reserve t c estimate parent =>
    have hsame := reserve_reservations l.redis t c estimate parent
    unfold step at hstep
    dsimp only at hstep
    split_ifs at hstep
    · rw [← Option.some.inj hstep]
      exact hsame ▸ hget
    · rw [← Option.some.inj hstep]
      exact hsame ▸ hget
  | reconcile call =>
    unfold step at hstep
    dsimp only at hstep
    split_ifs at hstep
    rw [← Option.some.inj hstep]
    have hres := (releaseHold_frame l.redis
      (budgetPrefixForRead l.redis (stripTenant call.tenantId) call.customerId)
      (Reservation.scope l.redis (stripTenant call.tenantId) call.parentSpanId)
      (max 0 call.amountUsd)).1
    exact hres ▸ hget
  | refresh rid' expiresAt clock =>
    rw [← Option.some.inj hstep]
    unfold Reservation.refresh
    split
    · exact hget
    · exact hget
  | attach rid' w =>
    rw [← Option.some.inj hstep]
    exact hget
  | settle rid' => simp [closes] at hno
  | expireDue cutoff => simp [closes] at hno
  | window k a => simp [closes] at hno

theorem step_removed {op : LedgerOp} (hyes : closes op) (hstep : l.step op = some l')
    {rid : String} {record : ReservationRecord}
    (hget : l'.redis.reservations.get rid = some record) :
    l.redis.reservations.get rid = some record := by
  cases op with
  | settle rid' =>
    rw [← Option.some.inj hstep] at hget
    exact ((Removes.refl l.redis).close rid').kept rid record hget
  | expireDue cutoff =>
    rw [← Option.some.inj hstep] at hget
    exact (removes_expireDue l.redis cutoff).kept rid record hget
  | window k a =>
    rw [← Option.some.inj hstep] at hget
    exact (window_removes l.redis k a).1 rid record hget
  | configure | topUp | openHold | reserve | reconcile | refresh | attach =>
    simp [closes] at hyes

theorem step_released {op : LedgerOp} (h : l.Covered b) (hok : l.Allowed b op) (hyes : closes op)
    (hstep : l.step op = some l') :
    l'.redis.held b + l.redis.recorded b = l.redis.held b + l'.redis.recorded b := by
  have hcovered := (conserved_of_covered h).covered
  have hkeep : Keeps b l.redis l'.redis := by
    cases op with
    | settle rid =>
      rw [← Option.some.inj hstep]
      exact settle_keeps b _ _
    | expireDue cutoff =>
      rw [← Option.some.inj hstep]
      exact expireDue_keeps b _ _
    | window k a =>
      rw [← Option.some.inj hstep]
      exact window_keeps a hok
    | configure | topUp | openHold | reserve | reconcile | refresh | attach =>
      simp [closes] at hyes
  have hbal := hkeep.balanced (l.redis.held b - l.redis.recorded b) (by linarith) h.1.records
    (by linarith)
  linarith

/-- A configured budget before its first hold. -/
structure Fresh (b : BudgetKey) (l : Ledger) : Prop where
  configured : (l.redis.budgets b).balanceUsd.isSome
  noRecords : l.redis.reservations = .empty
  noReserves : l.reserves = []
  heldNonneg : 0 ≤ l.redis.held b

private theorem covered_of_fresh (h : l.Fresh b) : l.Covered b := by
  have hno := h.noReserves
  constructor
  case left =>
    constructor
    case records => intro rid record hget; simp [h.noRecords] at hget
    case positive => intro call hc; simp [hno] at hc
    case traced => intro call hc; simp [hno] at hc
    case granted => intro call hc; simp [hno] at hc
    case configured => exact h.configured
  case right =>
    refine ⟨l.redis.held b, h.heldNonneg, ?_⟩
    simp [Balanced, anonymous, Redis.recorded, h.noRecords, hno]

/-- Over every run in which `b` is configured only without open records and windows settle only
their own reservations, the held amount of `b` covers its open records, and each is released at
most once and by exactly its amount. -/
theorem holds_conserved {ops : List LedgerOp} (hfresh : l.Fresh b)
    (hok : Guarded step (Allowed b) l ops) (hrun : run step l ops = some l') :
    Conserved b l'.redis ∧
      ∀ op l'', l'.Allowed b op → l'.step op = some l'' →
        ReleasesExactly b op l'.redis l''.redis := by
  have hcovered : l'.Covered b := guarded_invariant
    (fun _ _ _ hinv hallowed hs => step_covered hinv hallowed hs) (covered_of_fresh hfresh) hok hrun
  refine ⟨conserved_of_covered hcovered, fun op l'' hallowed hs => ⟨?_, ?_, ?_⟩⟩
  · exact fun hyes => step_released hcovered hallowed hyes hs
  · exact fun hyes rid record hget => step_removed hyes hs hget
  · exact fun hno rid record hget => step_kept hno hs hget

theorem holds_conserved_settled :
    ∃ l', run step ⟨(configure {} (some "t") "acme" 10 none none).getD {}, []⟩
        [.openHold (some "t") "r1" "acme" 4 none none 0, .reserve (some "t") "acme" 2 none,
          .attach "r1" "w", .configure none "other" 1 none none,
          .window ⟨"w", ⟨some "t", "acme"⟩, "c", "m", id, "v", "p", "d", "i"⟩ { costUsd := 3 }] =
        some l' ∧
      Conserved ⟨some "t", "acme"⟩ l'.redis := by
  refine ⟨_, (Option.some_get (by decide +kernel)).symm, ?_⟩
  refine (holds_conserved (b := ⟨some "t", "acme"⟩) ⟨?_, rfl, rfl, ?_⟩ ?_
    (Option.some_get (by decide +kernel)).symm).1
  · decide +kernel
  · decide +kernel
  · decide +kernel

/-- A budget that is configured again, a reservation attached to a window of another customer,
and a reserve reconciled after a configure each leave an open record uncovered. -/
theorem holds_not_conserved :
    Fresh ⟨none, "acme"⟩ ⟨(configure {} none "acme" 10 none none).getD {}, []⟩ ∧
    (run step ⟨(configure {} none "acme" 10 none none).getD {}, []⟩
        [.openHold none "r1" "acme" 4 none none 0, .configure none "acme" 10 none none]).map
      (fun l => decide (l.redis.recorded ⟨none, "acme"⟩ ≤ l.redis.held ⟨none, "acme"⟩)) =
        some false ∧
    (run step ⟨(configure {} none "acme" 10 none none).getD {}, []⟩
        [.openHold none "r1" "acme" 4 none none 0, .configure none "other" 10 none none,
          .openHold none "r2" "other" 4 none none 0, .attach "r2" "w",
          .window ⟨"w", ⟨none, "acme"⟩, "c", "m", id, "v", "p", "d", "i"⟩ { costUsd := 0 }]).map
      (fun l => decide (l.redis.recorded ⟨none, "acme"⟩ ≤ l.redis.held ⟨none, "acme"⟩)) =
        some false ∧
    ((configure (Reservation.reserve ((configure {} none "acme" 10 none none).getD {}) none "acme" 4
        none).1 none "acme" 10 none none).map fun r =>
      let opened := (Reservation.openHold r none "r1" "acme" 4 none none 0).1
      let reconciled := (Reservation.reconcile opened none "acme" 4 none).1
      decide (reconciled.recorded ⟨none, "acme"⟩ ≤ reconciled.held ⟨none, "acme"⟩)) =
        some false := by
  refine ⟨⟨?_, rfl, rfl, ?_⟩, ?_, ?_, ?_⟩
  · decide +kernel
  · decide +kernel
  · decide +kernel
  · decide +kernel
  · decide +kernel

end Ledger

end FluxMeter.Budget
