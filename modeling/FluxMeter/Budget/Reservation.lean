import FluxMeter.Budget.Store

/-! Reservation: the four Lua scripts of `reservation.py` and the operations that call them.
Every script runs atomically, so one call of an operation is one transition. -/
namespace FluxMeter.Budget
open Collections FluxMeter.Keys

/-- `budget_prefix` and `budget_prefix_for_write`. -/
def budgetPrefix (tenantId : Option String) (customerId : String) : BudgetKey :=
  ⟨if Py.hasTenant tenantId then tenantId else none, customerId⟩

/-- `scope_prefix` for spans. -/
def spanPrefix (tenantId : Option String) (spanId : String) : SpanKey :=
  ⟨if Py.hasTenant tenantId then tenantId else none, spanId⟩

def BudgetRow.present (row : BudgetRow) : Bool := row.balanceUsd.isSome || row.heldUsd.isSome

def SpanRow.present (row : SpanRow) : Bool :=
  row.costUsd.isSome || row.heldUsd.isSome || row.maxCostUsd.isSome || row.eventCount.isSome

/-- The tenant budget, or the legacy un-prefixed one while only that exists. -/
def budgetPrefixForRead (r : Redis) (tenantId : Option String) (customerId : String) : BudgetKey :=
  let preferred := budgetPrefix tenantId customerId
  let legacy : BudgetKey := ⟨none, customerId⟩
  if !Py.hasTenant tenantId then preferred
  else if (r.budgets preferred).present then preferred
  else if (r.budgets legacy).present then legacy
  else preferred

/-- `scope_prefix_for_read` for spans. -/
def spanPrefixForRead (r : Redis) (tenantId : Option String) (spanId : String) : SpanKey :=
  let preferred := spanPrefix tenantId spanId
  let legacy : SpanKey := ⟨none, spanId⟩
  if !Py.hasTenant tenantId then preferred
  else if (r.spans preferred).present then preferred
  else if (r.spans legacy).present then legacy
  else preferred

/-- The span part of `OPEN_SCRIPT` and `RESERVE_SCRIPT`. Refusal reports the span's held and
spent amounts; a grant reports them after the hold. A span without a cap is not touched. -/
def admitSpan (r : Redis) (span : Option SpanKey) (estimate : ℚ) :
    Except (ℚ × ℚ) (Redis × ℚ × ℚ) :=
  match span with
  | none => .ok (r, 0, 0)
  | some s =>
    let spanHeld := r.spanHeld s
    let spanSpent := number (r.spans s).costUsd
    match (r.spans s).maxCostUsd with
    | none => .ok (r, spanHeld, spanSpent)
    | some spanMax =>
      if spanMax < spanSpent + spanHeld + estimate then .error (spanHeld, spanSpent)
      else .ok (r.incrSpanHeld s estimate, spanHeld + estimate, spanSpent)

inductive OpenReply
  | invalid
  | existing
  | conflict
  | noBudget
  | insufficientBalance (balance held : ℚ)
  | hierarchyReserve (balance held spanHeld spanSpent : ℚ)
  | opened (balance held spanHeld spanSpent : ℚ)
  deriving DecidableEq, Repr

structure OpenArgs where
  reservationId : String
  customerId : String
  tenantId : String
  parentSpanId : String
  estimate : ℚ
  deadline : ℚ

def openScript (r : Redis) (budget : BudgetKey) (span : Option SpanKey) (a : OpenArgs) :
    Redis × OpenReply :=
  match r.reservations.get a.reservationId with
  | some existing =>
    if existing.customerId = a.customerId ∧ existing.tenantId = a.tenantId ∧
        existing.reservedUsd = a.estimate then (r, .existing)
    else (r, .conflict)
  | none =>
    match (r.budgets budget).balanceUsd with
    | none => (r, .noBudget)
    | some balance =>
      let held := r.held budget
      if balance - held < a.estimate then (r, .insufficientBalance balance held)
      else
        match admitSpan r span a.estimate with
        | .error (spanHeld, spanSpent) => (r, .hierarchyReserve balance held spanHeld spanSpent)
        | .ok (r₁, spanHeld, spanSpent) =>
          let r₂ := r₁.incrHeld budget a.estimate
          ({ r₂ with
              reservations := r₂.reservations.set a.reservationId
                ⟨a.customerId, a.tenantId, a.estimate, a.parentSpanId, some budget, span⟩
              pending := r₂.pending.set a.reservationId a.deadline },
            .opened balance (held + a.estimate) spanHeld spanSpent)

inductive ReserveReply
  | invalid
  | noBudget
  | insufficientBalance (balance held : ℚ)
  | hierarchyReserve (balance held spanHeld spanSpent : ℚ)
  | reserved (balance held spanHeld spanSpent : ℚ)
  deriving DecidableEq, Repr

def reserveScript (r : Redis) (budget : BudgetKey) (span : Option SpanKey) (estimate : ℚ) :
    Redis × ReserveReply :=
  match (r.budgets budget).balanceUsd with
  | none => (r, .noBudget)
  | some balance =>
    let held := r.held budget
    if balance - held < estimate then (r, .insufficientBalance balance held)
    else
      match admitSpan r span estimate with
      | .error (spanHeld, spanSpent) => (r, .hierarchyReserve balance held spanHeld spanSpent)
      | .ok (r₁, spanHeld, spanSpent) =>
        (r₁.incrHeld budget estimate, .reserved balance (held + estimate) spanHeld spanSpent)

/-- `if span_held > 0 then INCRBYFLOAT -min(span_held, released)`. -/
def releaseSpan (r : Redis) (span : Option SpanKey) (released : ℚ) : Redis :=
  match span with
  | none => r
  | some s => if 0 < r.spanHeld s then r.incrSpanHeld s (-(min (r.spanHeld s) released)) else r

/-- The clamped release that reconcile, close and the window sink share. -/
def releaseHold (r : Redis) (budget : BudgetKey) (span : Option SpanKey) (requested : ℚ) :
    Redis × ℚ :=
  let released := min (r.held budget) requested
  let r₁ := if 0 < released then r.incrHeld budget (-released) else r
  (releaseSpan r₁ span released, released)

/-- Returns the balance, the hold that remains and the amount released. -/
def reconcileScript (r : Redis) (budget : BudgetKey) (span : Option SpanKey) (requested : ℚ) :
    Redis × ℚ × ℚ × ℚ :=
  let (r₁, released) := releaseHold r budget span requested
  (r₁, number (r₁.budgets budget).balanceUsd, r.held budget - released, released)

/-- `DEL reservation:{id}` and `ZREM` from the pending set. -/
def dropReservation (r : Redis) (reservationId : String) : Redis :=
  { r with
    reservations := r.reservations.erase reservationId
    pending := r.pending.erase reservationId }

/-- Returns the customer and the amount released, or nothing when no record is left. -/
def closeScript (r : Redis) (reservationId : String) (heldKey : BudgetKey)
    (spanHeldKey : Option SpanKey) : Redis × Option (String × ℚ) :=
  match r.reservations.get reservationId with
  | none => ({ r with pending := r.pending.erase reservationId }, none)
  | some record =>
    let (r₁, released) := releaseHold r heldKey spanHeldKey record.reservedUsd
    (dropReservation r₁ reservationId, some (record.customerId, released))

namespace Reservation

/-- `f"{span_key}:..." if span_key`: an absent or empty parent span names no span. -/
def scope (r : Redis) (tenantId : Option String) (parentSpanId : Option String) : Option SpanKey :=
  match parentSpanId with
  | some p => if p = "" then none else some (spanPrefixForRead r tenantId p)
  | none => none

def openHold (r : Redis) (tenantId : Option String) (reservationId customerId : String)
    (estimatedCostUsd : ℚ) (parentSpanId : Option String) (expiresAt : Option ℚ) (clock : ℚ) :
    Redis × OpenReply :=
  if estimatedCostUsd ≤ 0 then (r, .invalid)
  else
    let tenant := stripTenant tenantId
    openScript r (budgetPrefixForRead r tenant customerId) (scope r tenant parentSpanId)
      ⟨reservationId, customerId, tenant.getD "", parentSpanId.getD "", estimatedCostUsd,
        expiresAt.getD (clock + 900)⟩

def reserve (r : Redis) (tenantId : Option String) (customerId : String) (estimatedCostUsd : ℚ)
    (parentSpanId : Option String) : Redis × ReserveReply :=
  if estimatedCostUsd ≤ 0 then (r, .invalid)
  else
    let tenant := stripTenant tenantId
    reserveScript r (budgetPrefixForRead r tenant customerId) (scope r tenant parentSpanId)
      estimatedCostUsd

def reconcile (r : Redis) (tenantId : Option String) (customerId : String) (reservedUsd : ℚ)
    (parentSpanId : Option String) : Redis × ℚ × ℚ × ℚ :=
  let tenant := stripTenant tenantId
  reconcileScript r (budgetPrefixForRead r tenant customerId) (scope r tenant parentSpanId)
    (max 0 reservedUsd)

def refresh (r : Redis) (reservationId : String) (expiresAt : Option ℚ) (clock : ℚ) :
    Redis × Bool :=
  match r.reservations.get reservationId with
  | none => (r, false)
  | some _ =>
    ({ r with pending := r.pending.set reservationId (expiresAt.getD (clock + 900)) }, true)

/-- The hold key a close releases from: the one stored at open, or for older records the
budget that the customer reads now. -/
def heldKeyOf (r : Redis) (reservationId : String) : BudgetKey :=
  match r.reservations.get reservationId with
  | none => budgetPrefixForRead r none ""
  | some record =>
    match record.heldKey with
    | some k => k
    | none =>
      budgetPrefixForRead r (if record.tenantId = "" then none else some record.tenantId)
        record.customerId

def close (r : Redis) (reservationId : String) : Redis × Option (String × ℚ) :=
  closeScript r reservationId (heldKeyOf r reservationId)
    ((r.reservations.get reservationId).bind ReservationRecord.spanHeldKey)

def settle (r : Redis) (reservationId : String) : Redis × ℚ :=
  let (r₁, result) := close r reservationId
  (r₁, (result.map Prod.snd).getD 0)

/-- The reservations whose deadline lies between 0 and the cutoff, in deadline order. -/
def due (r : Redis) (cutoff : ℚ) : List String :=
  r.pending.rangeByScore (fun s => 0 ≤ s && s ≤ cutoff) r.pending.rows.length

def expireDue (r : Redis) (cutoff : ℚ) : Redis × ℕ :=
  (due r cutoff).foldl (fun acc reservationId =>
    let (r₁, result) := close acc.1 reservationId
    (r₁, if result.isSome then acc.2 + 1 else acc.2)) (r, 0)

end Reservation

end FluxMeter.Budget
