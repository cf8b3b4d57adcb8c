import FluxMeter.Budget.HoldConservation

/-! No overdraft for reserved traffic: the balance of a budget covers the amounts reserved for
calls that are not deducted yet, so no window application can turn a part of its cost to debt. -/
namespace FluxMeter.Budget
open Collections FluxMeter.Keys Transition

/-- A billed call: the reservation opened for it, the window its event falls in and what it
turns out to cost. -/
structure BilledCall where
  windowId : String
  budget : BudgetKey
  reservedUsd : ℚ
  costUsd : ℚ
  deducted : Bool := false
  deriving DecidableEq, Repr

/-- The store and the billed calls, by reservation id, which the store itself does not know. -/
structure Traffic where
  redis : Redis
  calls : Table String BilledCall := .empty

inductive TrafficOp
  | openHold (tenantId : Option String) (reservationId customerId : String) (estimate : ℚ)
      (parentSpanId : Option String) (expiresAt : Option ℚ) (clock : ℚ) (windowId : String)
      (costUsd : ℚ)
  | topUp (tenantId : Option String) (customerId : String) (amountUsd : ℚ)
  | refresh (reservationId : String) (expiresAt : Option ℚ) (clock : ℚ)
  | attach (reservationId windowId : String)
  | window (k : SinkKeys) (a : SinkArgs)
  | close (reservationId : String)
  | expireDue (cutoff : ℚ)

/-- The deduction of a window reaches all its calls. -/
def BilledCall.deduct (windowId : String) (call : BilledCall) : BilledCall :=
  if call.windowId = windowId then { call with deducted := true } else call

/-- The reserved amount of a call on `b` that is not deducted yet. -/
def BilledCall.owed (b : BudgetKey) (call : BilledCall) : ℚ :=
  if call.budget = b ∧ call.deducted = false then call.reservedUsd else 0

/-- The cost that the window `windowId` has to deduct for a call. -/
def BilledCall.due (windowId : String) (call : BilledCall) : ℚ :=
  if call.windowId = windowId ∧ call.deducted = false then call.costUsd else 0

namespace Traffic

/-- The reserved amounts of the calls on `b` whose cost is not deducted yet. -/
def owed (b : BudgetKey) (t : Traffic) : ℚ := t.calls.weight fun _ => BilledCall.owed b

/-- The cost of the events of a window. -/
def windowCost (t : Traffic) (windowId : String) : ℚ :=
  t.calls.weight fun _ => BilledCall.due windowId

def step (t : Traffic) : TrafficOp → Option Traffic
  | .openHold tenant rid c estimate parent expiresAt clock w cost =>
    let (r, reply) := Reservation.openHold t.redis tenant rid c estimate parent expiresAt clock
    if reply.isOpened then
      some ⟨r, t.calls.set rid ⟨w, Ledger.readKey t.redis tenant c, estimate, cost, false⟩⟩
    else some { t with redis := r }
  | .topUp tenant c amount =>
    match topUp t.redis tenant c amount with
    | .error _ => some t
    | .ok (r, _) => some { t with redis := r }
  | .refresh rid expiresAt clock =>
    some { t with redis := (Reservation.refresh t.redis rid expiresAt clock).1 }
  | .attach rid w => some { t with redis := attachReservation t.redis rid w }
  | .window k a =>
    some ⟨(sinkScript t.redis k a).1,
      if t.redis.applied k.windowId then t.calls
      else t.calls.mapValues fun _ => BilledCall.deduct k.windowId⟩
  | .close rid => some { t with redis := (Reservation.close t.redis rid).1 }
  | .expireDue cutoff => some { t with redis := (Reservation.expireDue t.redis cutoff).1 }

/-- Reserved traffic: a call is opened on the budget of its window and costs at most what it
reserved, is attached to its own window, and expires only when it is deducted; the first
application of a window deducts the cost of its calls from their budget. -/
def Reserved (budgetOf : String → BudgetKey) (t : Traffic) : TrafficOp → Prop
  | .openHold tenant _ c estimate _ _ _ w cost =>
    cost ≤ estimate ∧ Ledger.readKey t.redis tenant c = budgetOf w
  | .attach rid w => (t.calls.get rid).map BilledCall.windowId = some w
  | .window k a =>
    t.redis.applied k.windowId = false →
      k.budget = budgetOf k.windowId ∧ a.costUsd = t.windowCost k.windowId
  | .close rid => ∀ call ∈ t.calls.get rid, call.deducted = true
  | .expireDue cutoff =>
    ∀ rid ∈ Reservation.due t.redis cutoff, ∀ call ∈ t.calls.get rid, call.deducted = true
  | _ => True

instance (budgetOf : String → BudgetKey) (t : Traffic) : ∀ op, Decidable (t.Reserved budgetOf op)
  | .openHold tenant _ c estimate _ _ _ w cost =>
    inferInstanceAs (Decidable (cost ≤ estimate ∧ Ledger.readKey t.redis tenant c = budgetOf w))
  | .attach rid w =>
    inferInstanceAs (Decidable ((t.calls.get rid).map BilledCall.windowId = some w))
  | .window k a =>
    inferInstanceAs (Decidable (t.redis.applied k.windowId = false →
      k.budget = budgetOf k.windowId ∧ a.costUsd = t.windowCost k.windowId))
  | .close rid => inferInstanceAs (Decidable (∀ call ∈ t.calls.get rid, call.deducted = true))
  | .expireDue cutoff =>
    inferInstanceAs (Decidable (∀ rid ∈ Reservation.due t.redis cutoff,
      ∀ call ∈ t.calls.get rid, call.deducted = true))
  | .topUp .. | .refresh .. => isTrue trivial

/-- Every call that is not deducted still has its record, and the balance covers them all. -/
structure Solvent (budgetOf : String → BudgetKey) (b : BudgetKey) (t : Traffic) : Prop where
  records : t.redis.RecordsOpened
  covered : t.redis.recorded b ≤ t.redis.held b
  backed : ∀ rid call, t.calls.get rid = some call → call.deducted = false →
    ∃ record, t.redis.reservations.get rid = some record ∧ record.heldKey = some call.budget ∧
      record.reservedUsd = call.reservedUsd
  priced : ∀ rid call, t.calls.get rid = some call →
    call.costUsd ≤ call.reservedUsd ∧ call.budget = budgetOf call.windowId
  applied : ∀ rid call, t.calls.get rid = some call → call.deducted = true →
    t.redis.applied call.windowId = true
  attached : ∀ w, t.redis.applied w = false → ∀ rid ∈ t.redis.windowReservations w,
    ∃ call, t.calls.get rid = some call ∧ call.windowId = w
  solvent : ∃ balance, (t.redis.budgets b).balanceUsd = some balance ∧ t.owed b ≤ balance

variable {budgetOf : String → BudgetKey} {b : BudgetKey} {t t' : Traffic}

theorem owed_nonneg_of_backed {call : BilledCall} {rid : String}
    (hr : t.redis.RecordsOpened)
    (hbacked : ∀ rid call, t.calls.get rid = some call → call.deducted = false →
      ∃ record, t.redis.reservations.get rid = some record ∧
        record.heldKey = some call.budget ∧ record.reservedUsd = call.reservedUsd)
    (hget : t.calls.get rid = some call) : 0 ≤ call.owed b := by
  unfold BilledCall.owed
  split_ifs with hc
  · obtain ⟨record, hrec, -, hamount⟩ := hbacked rid call hget hc.2
    rw [← hamount]
    exact (hr rid record hrec).2.le
  · exact le_rfl

theorem owed_le_recorded (h : Solvent budgetOf b t) : t.owed b ≤ t.redis.recorded b := by
  apply t.calls.weight_le_weight
  · intro rid record hget
    exact recordHold_nonneg (h.records rid record hget).2
  · intro rid call hget
    by_cases hc : call.budget = b ∧ call.deducted = false
    · obtain ⟨record, hrec, hkey, hamount⟩ := h.backed rid call hget hc.2
      refine .inr ⟨record, hrec, ?_⟩
      unfold BilledCall.owed recordHold
      rw [if_pos hc, if_pos (by rw [hkey, hc.1]), hamount]
    · exact .inl (if_neg hc).le

theorem settlesOwn (h : Solvent budgetOf b t) {k : SinkKeys} (a : SinkArgs)
    (hok : t.Reserved budgetOf (.window k a)) : SettlesOwn b t.redis k := by
  intro hfresh rid hrid record hget
  obtain ⟨call, hcall, hwindow⟩ := h.attached k.windowId hfresh rid hrid
  have hundeducted : call.deducted = false := by
    cases hded : call.deducted with
    | false => rfl
    | true =>
      have happ := h.applied rid call hcall hded
      rw [hwindow, hfresh] at happ
      simp at happ
  obtain ⟨record', hget', hkey, -⟩ := h.backed rid call hcall hundeducted
  rw [hget, Option.some.injEq] at hget'
  rw [hget', hkey, (h.priced rid call hcall).2, hwindow, (hok hfresh).1, Option.some.injEq]

theorem covered_of_keeps {r : Redis} (h : Solvent budgetOf b t) (hkeep : Keeps b t.redis r) :
    r.recorded b ≤ r.held b := by
  have hcov := h.covered
  have hbal := hkeep.balanced (t.redis.held b - t.redis.recorded b) (by linarith) h.records
    (by ring)
  linarith

theorem Solvent.of_redis {r : Redis} (h : Solvent budgetOf b t) (hkeep : Keeps b t.redis r)
    (hget : ∀ rid call, t.calls.get rid = some call → call.deducted = false →
      r.reservations.get rid = t.redis.reservations.get rid)
    (happ : r.applied = t.redis.applied)
    (hatt : ∀ w, ∀ rid ∈ r.windowReservations w, rid ∈ t.redis.windowReservations w ∨
      ∃ call, t.calls.get rid = some call ∧ call.windowId = w)
    (hbal : ∀ balance, (t.redis.budgets b).balanceUsd = some balance →
      ∃ balance', (r.budgets b).balanceUsd = some balance' ∧ balance ≤ balance') :
    Solvent budgetOf b { t with redis := r } := by
  constructor
  case records => exact hkeep.records h.records
  case covered => exact covered_of_keeps h hkeep
  case backed =>
    intro rid call hcall hded
    obtain ⟨record, hrec, hrest⟩ := h.backed rid call hcall hded
    exact ⟨record, (hget rid call hcall hded).trans hrec, hrest⟩
  case priced => exact h.priced
  case applied =>
    intro rid call hcall hded
    dsimp only
    rw [happ]
    exact h.applied rid call hcall hded
  case attached =>
    intro w hw rid hrid
    rcases hatt w rid hrid with hold | hnew
    · exact h.attached w (happ ▸ hw) rid hold
    · exact hnew
  case solvent =>
    obtain ⟨balance, hsome, hle⟩ := h.solvent
    obtain ⟨balance', hsome', hle'⟩ := hbal balance hsome
    exact ⟨balance', hsome', hle.trans hle'⟩

theorem close_solvent (h : Solvent budgetOf b t) {rid : String}
    (hok : ∀ call, t.calls.get rid = some call → call.deducted = true) :
    Solvent budgetOf b { t with redis := (Reservation.close t.redis rid).1 } := by
  obtain ⟨happ, hwin⟩ := close_guards t.redis rid
  refine h.of_redis (settle_keeps b t.redis rid) (fun rid' call hcall hded => ?_) happ
    (fun w rid' hrid' => .inl (hwin ▸ hrid')) fun balance hbal => ⟨balance, ?_, le_rfl⟩
  · have hne : rid' ≠ rid := by
      rintro rfl
      rw [hok call hcall] at hded
      simp at hded
    rw [close_reservations, if_neg hne]
  · rw [close_budgets]
    exact hbal

theorem expireDue_solvent (h : Solvent budgetOf b t) {cutoff : ℚ}
    (hok : ∀ rid ∈ Reservation.due t.redis cutoff, ∀ call, t.calls.get rid = some call →
      call.deducted = true) :
    Solvent budgetOf b { t with redis := (Reservation.expireDue t.redis cutoff).1 } := by
  rw [expireDue_fst]
  exact List.foldlRecOn (motive := fun r => Solvent budgetOf b { t with redis := r }) _ _ h
    fun r hr rid hrid => close_solvent hr (hok rid hrid)

theorem topUp_solvent {tenant : Option String} {c : String} {amount newBalance : ℚ} {r : Redis}
    (h : Solvent budgetOf b t) (hr : topUp t.redis tenant c amount = .ok (r, newBalance)) :
    Solvent budgetOf b { t with redis := r } ∧
      (r.budgets b).debtUsd = (t.redis.budgets b).debtUsd := by
  obtain ⟨balance, hbal, -⟩ := h.solvent
  have hconf : (t.redis.budgets b).balanceUsd.isSome := by rw [hbal]; rfl
  have hkeep := topUp_keeps hconf hr
  obtain ⟨hpos, row, rfl, hrow⟩ := topUp_cases hr
  set w := budgetPrefix (stripTenant tenant) c
  have hb : b = w → row = t.redis.budgets b := by
    rintro rfl
    rcases hrow with hown | ⟨hnone, -⟩
    · exact hown
    · rw [hnone] at hbal
      simp at hbal
  constructor
  case left =>
    refine h.of_redis hkeep (fun _ _ _ _ => rfl) rfl (fun w rid hrid => .inl hrid)
      fun balance' hbal' => ?_
    by_cases hbw : b = w
    · refine ⟨balance' + amount, ?_, by linarith⟩
      rw [hbw, Redis.setBudget_self, hb hbw]
      simp [BudgetRow.topUp, incrByFloat, hbal']
    · exact ⟨balance', by rw [Redis.setBudget_ne _ _ hbw, hbal'], le_rfl⟩
  case right =>
    by_cases hbw : b = w
    · rw [hbw, Redis.setBudget_self, hb hbw, hbw]
      rfl
    · rw [Redis.setBudget_ne _ _ hbw]

/-- All a granted open changes. -/
theorem openHold_granted {r : Redis} {tenant : Option String} {rid c : String} {estimate : ℚ}
    {parent : Option String} {expiresAt : Option ℚ} {clock : ℚ}
    (h : (Reservation.openHold r tenant rid c estimate parent expiresAt clock).2.isOpened = true) :
    r.reservations.get rid = none ∧
    ∃ balance record, (r.budgets (Ledger.readKey r tenant c)).balanceUsd = some balance ∧
      r.held (Ledger.readKey r tenant c) + estimate ≤ balance ∧
      record.heldKey = some (Ledger.readKey r tenant c) ∧ record.reservedUsd = estimate ∧
      (Reservation.openHold r tenant rid c estimate parent expiresAt clock).1.reservations =
        r.reservations.set rid record ∧
      (Reservation.openHold r tenant rid c estimate parent expiresAt clock).1.applied = r.applied ∧
      (Reservation.openHold r tenant rid c estimate parent expiresAt clock).1.windowReservations =
        r.windowReservations ∧
      ∀ j, ((Reservation.openHold r tenant rid c estimate parent expiresAt clock).1.budgets
          j).balanceUsd = (r.budgets j).balanceUsd ∧
        ((Reservation.openHold r tenant rid c estimate parent expiresAt clock).1.budgets
          j).debtUsd = (r.budgets j).debtUsd := by
  unfold Reservation.openHold at h ⊢
  split_ifs at h ⊢ with hpos
  · simp [OpenReply.isOpened] at h
  dsimp only at h ⊢
  rcases openScript_cases r (budgetPrefixForRead r (stripTenant tenant) c)
      (Reservation.scope r (stripTenant tenant) parent)
      ⟨rid, c, (stripTenant tenant).getD "", parent.getD "", estimate,
        expiresAt.getD (clock + 900)⟩
    with ⟨hno, -⟩ | ⟨balance, r₁, spanHeld, spanSpent, -, hfresh, hbal, hroom, hspan, hnew⟩
  · rw [hno] at h
    simp at h
  · obtain ⟨hbud, hres, -, hwin, happ⟩ := admitSpan_frame hspan
    rw [hnew]
    refine ⟨hfresh, balance, _, hbal, hroom, rfl, rfl, congrArg (Table.set · rid _) hres, happ,
      hwin, fun j => ?_⟩
    dsimp only
    rw [Redis.budgets_incrHeld, hbud]
    exact ⟨rfl, rfl⟩

theorem openHold_solvent {tenant : Option String} {rid c : String} {estimate : ℚ}
    {parent : Option String} {expiresAt : Option ℚ} {clock : ℚ} {w : String} {cost : ℚ}
    (h : Solvent budgetOf b t) (hcost : cost ≤ estimate)
    (hread : Ledger.readKey t.redis tenant c = budgetOf w)
    (hyes : (Reservation.openHold t.redis tenant rid c estimate parent expiresAt
      clock).2.isOpened = true) :
    Solvent budgetOf b
      ⟨(Reservation.openHold t.redis tenant rid c estimate parent expiresAt clock).1,
        t.calls.set rid ⟨w, Ledger.readKey t.redis tenant c, estimate, cost, false⟩⟩ := by
  obtain ⟨hfresh, balance, record, hbal, hroom, hkey, hamount, hres, happ, hwin, hrows⟩ :=
    openHold_granted hyes
  have hkeep := openHold_keeps b t.redis tenant rid c estimate parent expiresAt clock
  -- a call under the same id was deducted, or its record would still be open
  have hold : ∀ call, t.calls.get rid = some call → call.deducted = true := by
    intro call hcall
    cases hded : call.deducted with
    | true => rfl
    | false =>
      obtain ⟨record', hget, -⟩ := h.backed rid call hcall hded
      rw [hfresh] at hget
      simp at hget
  constructor
  case records => exact hkeep.records h.records
  case covered => exact covered_of_keeps h hkeep
  case backed =>
    intro rid' call hcall hded
    dsimp only at hcall ⊢
    rw [Table.get_set] at hcall
    rw [hres, Table.get_set]
    split_ifs at hcall ⊢ with heq
    · obtain rfl := Option.some.inj hcall
      exact ⟨record, rfl, hkey, hamount⟩
    · exact h.backed rid' call hcall hded
  case priced =>
    intro rid' call hcall
    dsimp only at hcall
    rw [Table.get_set] at hcall
    split_ifs at hcall with heq
    · obtain rfl := Option.some.inj hcall
      exact ⟨hcost, hread⟩
    · exact h.priced rid' call hcall
  case applied =>
    intro rid' call hcall hded
    dsimp only at hcall ⊢
    rw [happ]
    rw [Table.get_set] at hcall
    split_ifs at hcall with heq
    · obtain rfl := Option.some.inj hcall
      simp at hded
    · exact h.applied rid' call hcall hded
  case attached =>
    intro w' hw' rid' hrid'
    dsimp only at hw' hrid' ⊢
    rw [happ] at hw'
    rw [hwin] at hrid'
    obtain ⟨call, hcall, hwindow⟩ := h.attached w' hw' rid' hrid'
    have hne : rid' ≠ rid := by
      rintro rfl
      have hded := h.applied rid' call hcall (hold call hcall)
      rw [hwindow, hw'] at hded
      simp at hded
    exact ⟨call, by rw [Table.get_set_ne _ _ hne, hcall], hwindow⟩
  case solvent =>
    obtain ⟨balance', hbal', hle⟩ := h.solvent
    refine ⟨balance', (hrows b).1.trans hbal', ?_⟩
    have hweight := t.calls.weight_set
      (⟨w, Ledger.readKey t.redis tenant c, estimate, cost, false⟩ : BilledCall)
      (fun _ => BilledCall.owed b) (k := rid) fun call hcall => if_neg fun hc => by
        rw [hold call hcall] at hc
        simp at hc
    unfold owed
    dsimp only
    rw [hweight]
    by_cases hb : Ledger.readKey t.redis tenant c = b
    · have hmine : BilledCall.owed b
          ⟨w, Ledger.readKey t.redis tenant c, estimate, cost, false⟩ = estimate := if_pos ⟨hb, rfl⟩
      have hrec := owed_le_recorded h
      have hcov := h.covered
      rw [hb] at hbal hroom
      rw [hbal, Option.some.injEq] at hbal'
      rw [hmine, ← hbal']
      unfold owed at hrec
      linarith
    · have hother : BilledCall.owed b
          ⟨w, Ledger.readKey t.redis tenant c, estimate, cost, false⟩ = 0 := if_neg fun hc => hb hc.1
      rw [hother, zero_add]
      exact hle

@[simp] theorem deduct_windowId (w : String) (call : BilledCall) :
    (call.deduct w).windowId = call.windowId := by
  unfold BilledCall.deduct
  split_ifs <;> rfl

theorem deduct_terms (w : String) (call : BilledCall) :
    (call.deduct w).budget = call.budget ∧ (call.deduct w).reservedUsd = call.reservedUsd ∧
      (call.deduct w).costUsd = call.costUsd := by
  unfold BilledCall.deduct
  split_ifs <;> exact ⟨rfl, rfl, rfl⟩

theorem deduct_eq_false {w : String} {call : BilledCall} (h : (call.deduct w).deducted = false) :
    call.windowId ≠ w ∧ call.deduct w = call := by
  unfold BilledCall.deduct at h ⊢
  split_ifs at h ⊢ with hw
  exact ⟨hw, rfl⟩

private theorem windowCost_add_owed_le (h : Solvent budgetOf b t) {w : String}
    (hb : budgetOf w = b) :
    t.windowCost w + (t.calls.mapValues fun _ => BilledCall.deduct w).weight
      (fun _ => BilledCall.owed b) ≤ t.owed b := by
  unfold windowCost owed
  rw [Table.weight_mapValues, ← Table.weight_add]
  apply Table.weight_mono
  intro rid call hcall
  obtain ⟨hcost, hbudget⟩ := h.priced rid call hcall
  unfold BilledCall.due BilledCall.owed BilledCall.deduct
  by_cases hw : call.windowId = w
  · subst hw
    cases hded : call.deducted with
    | true => simp
    | false => simpa [hbudget, hb] using hcost
  · simp [hw]

private theorem owed_deduct_other (h : Solvent budgetOf b t) {w : String} (hb : budgetOf w ≠ b) :
    (t.calls.mapValues fun _ => BilledCall.deduct w).weight (fun _ => BilledCall.owed b) =
      t.owed b := by
  unfold owed
  rw [Table.weight_mapValues]
  apply Table.weight_congr
  intro rid call hcall
  have hbudget := (h.priced rid call hcall).2
  unfold BilledCall.owed BilledCall.deduct
  by_cases hw : call.windowId = w
  · subst hw
    simp [hbudget, hb]
  · simp [hw]

private theorem window_solvent {k : SinkKeys} {a : SinkArgs} (h : Solvent budgetOf b t)
    (hok : t.Reserved budgetOf (.window k a)) (hfresh : t.redis.applied k.windowId = false) :
    Solvent budgetOf b ⟨(sinkScript t.redis k a).1,
        t.calls.mapValues fun _ => BilledCall.deduct k.windowId⟩ ∧
      ((sinkScript t.redis k a).1.budgets b).debtUsd = (t.redis.budgets b).debtUsd := by
  have hkeep : Keeps b t.redis (sinkScript t.redis k a).1 := window_keeps a (settlesOwn h a hok)
  obtain ⟨hbudget, hcost⟩ := hok hfresh
  obtain ⟨happ, hwin, hget⟩ := sinkScript_fresh a hfresh
  obtain ⟨balance, hbal, hle⟩ := h.solvent
  have hmapped : ∀ rid call, (t.calls.mapValues fun _ => BilledCall.deduct k.windowId).get rid =
      some call → ∃ old, t.calls.get rid = some old ∧ old.deduct k.windowId = call := by
    intro rid call hcall
    rw [Table.get_mapValues] at hcall
    exact Option.map_eq_some_iff.mp hcall
  have hpaid : (∃ balance', ((sinkScript t.redis k a).1.budgets b).balanceUsd = some balance' ∧
      (t.calls.mapValues fun _ => BilledCall.deduct k.windowId).weight
        (fun _ => BilledCall.owed b) ≤ balance') ∧
      ((sinkScript t.redis k a).1.budgets b).debtUsd = (t.redis.budgets b).debtUsd := by
    by_cases hb : b = k.budget
    · have hcovers := windowCost_add_owed_le h (w := k.windowId) (by rw [← hbudget, hb])
      have hrest : 0 ≤ (t.calls.mapValues fun _ => BilledCall.deduct k.windowId).weight
          (fun _ => BilledCall.owed b) := by
        apply Table.weight_nonneg
        intro rid call hcall
        obtain ⟨old, hold, rfl⟩ := hmapped rid call hcall
        have hnonneg := owed_nonneg_of_backed (b := b) h.records h.backed hold
        unfold BilledCall.owed BilledCall.deduct at *
        split_ifs at * <;> simp_all
      rw [hb] at hbal
      obtain ⟨hnew, hdebt⟩ := sinkScript_paid (a := a) hfresh hbal (by linarith)
      rw [hb] at hcovers hle hrest ⊢
      exact ⟨⟨_, hnew, by linarith⟩, hdebt⟩
    · obtain ⟨hnew, hdebt⟩ := sinkScript_other a hb
      refine ⟨⟨balance, hnew.trans hbal, ?_⟩, hdebt⟩
      rw [owed_deduct_other h fun heq => hb (by rw [← heq, ← hbudget])]
      exact hle
  refine ⟨⟨?_, ?_, ?_, ?_, ?_, ?_, hpaid.1⟩, hpaid.2⟩
  case refine_1 => exact hkeep.records h.records
  case refine_2 => exact covered_of_keeps h hkeep
  case refine_3 =>
    intro rid call hcall hded
    obtain ⟨old, hold, rfl⟩ := hmapped rid call hcall
    obtain ⟨hne, hsame⟩ := deduct_eq_false hded
    rw [hsame] at hded ⊢
    have hnot : rid ∉ t.redis.windowReservations k.windowId := by
      intro hrid
      obtain ⟨call', hcall', hwindow⟩ := h.attached k.windowId hfresh rid hrid
      rw [hold, Option.some.injEq] at hcall'
      exact hne (hcall' ▸ hwindow)
    obtain ⟨record, hrec, hrest⟩ := h.backed rid old hold hded
    exact ⟨record, (hget rid hnot).trans hrec, hrest⟩
  case refine_4 =>
    intro rid call hcall
    obtain ⟨old, hold, rfl⟩ := hmapped rid call hcall
    obtain ⟨hb, hr, hc⟩ := deduct_terms k.windowId old
    rw [hb, hr, hc, deduct_windowId]
    exact h.priced rid old hold
  case refine_5 =>
    intro rid call hcall hded
    obtain ⟨old, hold, rfl⟩ := hmapped rid call hcall
    dsimp only
    rw [happ, deduct_windowId]
    by_cases hw : old.windowId = k.windowId
    · rw [hw, Function.update_self]
    · rw [Function.update_of_ne hw]
      have hsame : old.deduct k.windowId = old := if_neg hw
      rw [hsame] at hded
      exact h.applied rid old hold hded
  case refine_6 =>
    intro w hw rid hrid
    dsimp only at hw hrid
    rw [happ] at hw
    have hne : w ≠ k.windowId := by
      rintro rfl
      rw [Function.update_self] at hw
      simp at hw
    rw [Function.update_of_ne hne] at hw
    rw [hwin, Function.update_of_ne hne] at hrid
    obtain ⟨call, hcall, hwindow⟩ := h.attached w hw rid hrid
    refine ⟨call.deduct k.windowId, ?_, by rw [deduct_windowId, hwindow]⟩
    dsimp only
    rw [Table.get_mapValues, hcall]
    rfl

private theorem expireDue_debtUsd (r : Redis) (cutoff : ℚ) (j : BudgetKey) :
    ((Reservation.expireDue r cutoff).1.budgets j).debtUsd = (r.budgets j).debtUsd := by
  rw [(removes_expireDue r cutoff).rows j]

theorem step_solvent {op : TrafficOp} (h : Solvent budgetOf b t) (hok : t.Reserved budgetOf op)
    (hstep : t.step op = some t') :
    Solvent budgetOf b t' ∧ (t'.redis.budgets b).debtUsd = (t.redis.budgets b).debtUsd := by
  cases op with
  | openHold tenant rid c estimate parent expiresAt clock w cost =>
    unfold step at hstep
    dsimp only at hstep
    split_ifs at hstep with hreply
    · rw [← Option.some.inj hstep]
      obtain ⟨-, -, -, -, -, -, -, -, -, -, hrows⟩ := openHold_granted hreply
      exact ⟨openHold_solvent h hok.1 hok.2 hreply, (hrows b).2⟩
    · rw [← Option.some.inj hstep, openHold_refused (by simpa using hreply)]
      exact ⟨h, rfl⟩
  | topUp tenant c amount =>
    unfold step at hstep
    dsimp only at hstep
    split at hstep
    · rw [← Option.some.inj hstep]
      exact ⟨h, rfl⟩
    next r newBalance hr =>
      rw [← Option.some.inj hstep]
      exact topUp_solvent h hr
  | refresh rid expiresAt clock =>
    rw [← Option.some.inj hstep]
    unfold Reservation.refresh
    split
    · exact ⟨h, rfl⟩
    · refine ⟨h.of_redis (Keeps.of_frame rfl (fun _ => rfl) rfl) (fun _ _ _ _ => rfl) rfl
        (fun w rid' hrid' => .inl hrid') fun balance hbal => ⟨balance, hbal, le_rfl⟩, rfl⟩
  | attach rid w =>
    rw [← Option.some.inj hstep]
    obtain ⟨call, hcall, hwindow⟩ := Option.map_eq_some_iff.mp hok
    refine ⟨h.of_redis (attach_keeps b _ _ _) (fun _ _ _ _ => rfl) rfl (fun w' rid' hrid' => ?_)
      fun balance hbal => ⟨balance, hbal, le_rfl⟩, rfl⟩
    unfold attachReservation at hrid'
    dsimp only at hrid'
    by_cases hw : w' = w
    · subst hw
      rw [Function.update_self] at hrid'
      split_ifs at hrid' with hmem
      · exact .inl hrid'
      · rcases List.mem_cons.mp hrid' with rfl | hrest
        · exact .inr ⟨call, hcall, hwindow⟩
        · exact .inl hrest
    · rw [Function.update_of_ne hw] at hrid'
      exact .inl hrid'
  | window k a =>
    rw [← Option.some.inj hstep]
    by_cases happ : t.redis.applied k.windowId = true
    · -- a replay finds the guard and changes nothing
      have hskip : (sinkScript t.redis k a).1 = t.redis := by
        unfold sinkScript
        rw [if_pos happ]
      rw [hskip, if_pos happ]
      exact ⟨h, rfl⟩
    · rw [if_neg happ]
      exact window_solvent h hok (by simpa using happ)
  | close rid =>
    rw [← Option.some.inj hstep]
    refine ⟨close_solvent h hok, ?_⟩
    dsimp only
    rw [close_budgets]
  | expireDue cutoff =>
    rw [← Option.some.inj hstep]
    exact ⟨expireDue_solvent h hok, expireDue_debtUsd _ _ _⟩

/-- A configured budget before the first call. -/
structure BeforeCalls (b : BudgetKey) (t : Traffic) : Prop where
  configured : ∃ balance, (t.redis.budgets b).balanceUsd = some balance ∧ 0 ≤ balance
  heldNonneg : 0 ≤ t.redis.held b
  noRecords : t.redis.reservations = .empty
  noCalls : t.calls = .empty
  noneAttached : ∀ w, t.redis.windowReservations w = []

private theorem solvent_of_beforeCalls (h : BeforeCalls b t) : Solvent budgetOf b t := by
  constructor
  case records => intro rid record hget; simp [h.noRecords] at hget
  case covered => simpa [Redis.recorded, h.noRecords] using h.heldNonneg
  case backed => intro rid call hcall; simp [h.noCalls] at hcall
  case priced => intro rid call hcall; simp [h.noCalls] at hcall
  case applied => intro rid call hcall; simp [h.noCalls] at hcall
  case attached => intro w _ rid hrid; simp [h.noneAttached] at hrid
  case solvent =>
    obtain ⟨balance, hbal, hle⟩ := h.configured
    exact ⟨balance, hbal, by simpa [owed, h.noCalls] using hle⟩

/-- In every run of reserved traffic the debt stays what it was, and the balance is at least the
sum reserved for the calls whose cost is not deducted yet. -/
theorem reserved_traffic_no_overdraft {ops : List TrafficOp} (hstart : BeforeCalls b t)
    (hok : Guarded step (Reserved budgetOf) t ops) (hrun : run step t ops = some t') :
    (t'.redis.budgets b).debtUsd = (t.redis.budgets b).debtUsd ∧
      ∃ balance, (t'.redis.budgets b).balanceUsd = some balance ∧ t'.owed b ≤ balance := by
  have hinv : Solvent budgetOf b t' ∧
      (t'.redis.budgets b).debtUsd = (t.redis.budgets b).debtUsd := guarded_invariant
    (P := fun u => Solvent budgetOf b u ∧ (u.redis.budgets b).debtUsd = (t.redis.budgets b).debtUsd)
    (fun u op u' hu hreserved hs => by
      obtain ⟨hsolvent, hdebt⟩ := step_solvent hu.1 hreserved hs
      exact ⟨hsolvent, hdebt.trans hu.2⟩)
    ⟨solvent_of_beforeCalls hstart, rfl⟩ hok hrun
  exact ⟨hinv.2, hinv.1.solvent⟩

theorem reserved_traffic_no_overdraft_late :
    ∃ t', run step ⟨({} : Redis).setBudget ⟨none, "acme"⟩
          { balanceUsd := some 10, heldUsd := some 0, debtUsd := some 0 }, .empty⟩
        [.openHold none "r1" "acme" 6 none none 0 "w" 5,
          .openHold none "r2" "acme" 4 none none 0 "w" 4, .attach "r1" "w",
          .window ⟨"w", ⟨none, "acme"⟩, "c", "m", id, "v", "p", "d", "i"⟩ { costUsd := 9 },
          .attach "r2" "w",
          .window ⟨"w", ⟨none, "acme"⟩, "c", "m", id, "v", "p", "d", "i"⟩ { costUsd := 9 },
          .expireDue 1000] = some t' ∧
      (t'.redis.budgets ⟨none, "acme"⟩).debtUsd = some 0 ∧
      ∃ balance, (t'.redis.budgets ⟨none, "acme"⟩).balanceUsd = some balance ∧
        t'.owed ⟨none, "acme"⟩ ≤ balance := by
  refine ⟨_, (Option.some_get (by decide +kernel)).symm, ?_⟩
  have hstart : BeforeCalls ⟨none, "acme"⟩ ⟨({} : Redis).setBudget ⟨none, "acme"⟩
      { balanceUsd := some 10, heldUsd := some 0, debtUsd := some 0 }, .empty⟩ :=
    ⟨⟨10, by decide +kernel, by norm_num⟩, by decide +kernel, rfl, rfl, fun _ => rfl⟩
  exact reserved_traffic_no_overdraft hstart
    (show Guarded step (Reserved fun _ => ⟨none, "acme"⟩) _ _ by decide +kernel)
    (Option.some_get (by decide +kernel)).symm

end Traffic

end FluxMeter.Budget
