import FluxMeter.Budget.Holds
import FluxMeter.Transition.Runs

/-! Runs of all operations that write a held counter. The ledger is the store together with
the reserves granted and not reconciled yet, which the store itself does not record. -/
namespace FluxMeter.Budget
open Collections FluxMeter.Keys Transition

/-- A reserve not reconciled yet, with the keys it was charged to. -/
structure ReserveCall where
  tenantId : Option String
  customerId : String
  parentSpanId : Option String
  amountUsd : ℚ
  budget : BudgetKey
  span : Option SpanKey
  deriving DecidableEq, Repr

structure Ledger where
  redis : Redis
  reserves : List ReserveCall := []

inductive LedgerOp
  | configure (tenantId : Option String) (customerId : String) (balanceUsd : ℚ)
      (alertThresholdUsd : Option ℚ) (maxRpm : Option ℤ)
  | topUp (tenantId : Option String) (customerId : String) (amountUsd : ℚ)
  | openHold (tenantId : Option String) (reservationId customerId : String) (estimate : ℚ)
      (parentSpanId : Option String) (expiresAt : Option ℚ) (clock : ℚ)
  | reserve (tenantId : Option String) (customerId : String) (estimate : ℚ)
      (parentSpanId : Option String)
  | reconcile (call : ReserveCall)
  | refresh (reservationId : String) (expiresAt : Option ℚ) (clock : ℚ)
  | settle (reservationId : String)
  | expireDue (cutoff : ℚ)
  | attach (reservationId windowId : String)
  | window (k : SinkKeys) (a : SinkArgs)

/-- `SADD window:reservations:{windowId}` by the event projection. -/
def attachReservation (r : Redis) (reservationId windowId : String) : Redis :=
  { r with
    windowReservations := Function.update r.windowReservations windowId
      (if reservationId ∈ r.windowReservations windowId then r.windowReservations windowId
        else reservationId :: r.windowReservations windowId) }

namespace Ledger

/-- The key a budget operation of this tenant and customer writes when it configures. -/
def ownKey (tenantId : Option String) (customerId : String) : BudgetKey :=
  budgetPrefix (stripTenant tenantId) customerId

/-- The budget a call of this tenant and customer reads now. -/
def readKey (r : Redis) (tenantId : Option String) (customerId : String) : BudgetKey :=
  budgetPrefixForRead r (stripTenant tenantId) customerId

/-- A configure voids the reserves it resets; a reconcile must name an outstanding one. -/
def step (l : Ledger) : LedgerOp → Option Ledger
  | .configure t c balance alert rpm =>
    match configure l.redis t c balance alert rpm with
    | none => some l
    | some r => some ⟨r, l.reserves.filter fun call => call.budget ≠ ownKey t c⟩
  | .topUp t c amount =>
    match topUp l.redis t c amount with
    | .error _ => some l
    | .ok (r, _) => some { l with redis := r }
  | .openHold t rid c estimate parent expiresAt clock =>
    some { l with redis := (Reservation.openHold l.redis t rid c estimate parent expiresAt clock).1 }
  | .reserve t c estimate parent =>
    let (r, reply) := Reservation.reserve l.redis t c estimate parent
    if reply.isReserved then
      some ⟨r, ⟨t, c, parent, estimate, readKey l.redis t c,
        Reservation.scope l.redis (stripTenant t) parent⟩ :: l.reserves⟩
    else some { l with redis := r }
  | .reconcile call =>
    if call ∈ l.reserves then
      some ⟨(Reservation.reconcile l.redis call.tenantId call.customerId call.amountUsd
        call.parentSpanId).1, l.reserves.erase call⟩
    else none
  | .refresh rid expiresAt clock =>
    some { l with redis := (Reservation.refresh l.redis rid expiresAt clock).1 }
  | .settle rid => some { l with redis := (Reservation.settle l.redis rid).1 }
  | .expireDue cutoff => some { l with redis := (Reservation.expireDue l.redis cutoff).1 }
  | .attach rid w => some { l with redis := attachReservation l.redis rid w }
  | .window k a => some { l with redis := (sinkScript l.redis k a).1 }

/-- The reserve amounts on `b` not reconciled yet. -/
def anonymous (l : Ledger) (b : BudgetKey) : ℚ :=
  (l.reserves.map fun call => if call.budget = b then call.amountUsd else 0).sum

/-- An outstanding reserve was charged to the caller's own budget, or to the legacy budget by a
tenant whose own budget is not `b`. -/
def Traced (b : BudgetKey) (call : ReserveCall) : Prop :=
  call.budget = ownKey call.tenantId call.customerId ∨
    (call.budget = ⟨none, call.customerId⟩ ∧ ownKey call.tenantId call.customerId ≠ b)

/-- What the records and the reserves of a ledger always look like: every record was opened,
every outstanding reserve is positive and was charged to a budget that is configured. -/
structure WellFormed (b : BudgetKey) (l : Ledger) : Prop where
  records : l.redis.RecordsOpened
  positive : ∀ call ∈ l.reserves, 0 < call.amountUsd
  traced : ∀ call ∈ l.reserves, Traced b call
  granted : ∀ call ∈ l.reserves, (l.redis.budgets call.budget).balanceUsd.isSome
  configured : (l.redis.budgets b).balanceUsd.isSome

/-- The hold counter of `b` is the recorded and the anonymous holds plus the excess `e`. -/
def Balanced (b : BudgetKey) (e : ℚ) (l : Ledger) : Prop :=
  l.redis.recorded b + l.anonymous b + e = l.redis.held b

theorem anonymous_nonneg {l : Ledger} (h : ∀ call ∈ l.reserves, 0 < call.amountUsd)
    (b : BudgetKey) : 0 ≤ l.anonymous b := by
  apply List.sum_nonneg
  intro x hx
  obtain ⟨call, hc, rfl⟩ := List.mem_map.mp hx
  split_ifs
  · exact (h call hc).le
  · exact le_rfl

theorem recorded_nonneg {r : Redis} (h : r.RecordsOpened) (b : BudgetKey) : 0 ≤ r.recorded b :=
  r.reservations.weight_nonneg _ fun rid record hget => recordHold_nonneg (h rid record hget).2

theorem amount_le_anonymous {l : Ledger} (h : ∀ call ∈ l.reserves, 0 < call.amountUsd)
    {call : ReserveCall} (hc : call ∈ l.reserves) : call.amountUsd ≤ l.anonymous call.budget := by
  have hsum := List.sum_map_erase (fun x => if x.budget = call.budget then x.amountUsd else 0) hc
  have hrest : 0 ≤ ((l.reserves.erase call).map fun x =>
      if x.budget = call.budget then x.amountUsd else 0).sum := by
    apply List.sum_nonneg
    intro x hx
    obtain ⟨y, hy, rfl⟩ := List.mem_map.mp hx
    split_ifs
    · exact (h y (List.mem_of_mem_erase hy)).le
    · exact le_rfl
  simp only [if_true] at hsum
  unfold anonymous
  linarith

end Ledger

end FluxMeter.Budget
