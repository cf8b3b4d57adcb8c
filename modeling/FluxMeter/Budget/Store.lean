import FluxMeter.Collections.Table
import FluxMeter.Keys.TenantKeys
import Mathlib.Algebra.Order.Field.Rat
import Mathlib.Logic.Function.Basic

/-! The part of Redis that Budget, Reservation and the window sink share. Amounts are exact
rationals. A budget or a span is addressed by the tenant and the id its key prefix is built
from; usage counters keep their rendered keys. -/
namespace FluxMeter.Budget
open Collections FluxMeter.Keys

/-- The prefix `budget:{customer}` or `tenant:{tenant}:budget:{customer}`. -/
structure BudgetKey where
  tenant : Option String
  customer : String
  deriving DecidableEq, Repr

/-- The prefix `span:{id}` or `tenant:{tenant}:span:{id}`. -/
structure SpanKey where
  tenant : Option String
  id : String
  deriving DecidableEq, Repr

def BudgetKey.render (k : BudgetKey) : String :=
  match k.tenant with
  | some t => "tenant:" ++ t ++ ":budget:" ++ k.customer
  | none => "budget:" ++ k.customer

def SpanKey.render (k : SpanKey) : String :=
  match k.tenant with
  | some t => "tenant:" ++ t ++ ":span:" ++ k.id
  | none => "span:" ++ k.id

/-- The numbers under one budget prefix; `none` is an absent key. -/
structure BudgetRow where
  balanceUsd : Option ℚ := none
  heldUsd : Option ℚ := none
  debtUsd : Option ℚ := none
  initialBalanceUsd : Option ℚ := none
  totalTopupUsd : Option ℚ := none
  totalDeductedUsd : Option ℚ := none
  alertThresholdUsd : Option ℚ := none
  maxRpm : Option ℤ := none
  deriving DecidableEq, Repr

/-- The numbers under one span prefix that admission reads. -/
structure SpanRow where
  heldUsd : Option ℚ := none
  costUsd : Option ℚ := none
  maxCostUsd : Option ℚ := none
  eventCount : Option ℤ := none
  deriving DecidableEq, Repr

/-- The hash `reservation:{id}`. The two key fields are absent in records of older releases. -/
structure ReservationRecord where
  customerId : String
  tenantId : String
  reservedUsd : ℚ
  parentSpanId : String
  heldKey : Option BudgetKey
  spanHeldKey : Option SpanKey
  deriving DecidableEq, Repr

/-- Usage counters, rollup hashes and indices under their rendered keys. -/
structure UsageStore where
  ints : String → Option ℤ := fun _ => none
  floats : String → Option ℚ := fun _ => none
  hashInts : String → String → Option ℤ := fun _ _ => none
  hashFloats : String → String → Option ℚ := fun _ _ => none
  sets : String → List String := fun _ => []

structure Redis where
  budgets : BudgetKey → BudgetRow := fun _ => {}
  spans : SpanKey → SpanRow := fun _ => {}
  reservations : Table String ReservationRecord := .empty
  /-- The sorted set `gateway:reservations:pending`, scored by deadline. -/
  pending : Table String ℚ := .empty
  /-- The sets `window:reservations:{windowId}`. -/
  windowReservations : String → List String := fun _ => []
  /-- The guards `applied:{windowId}`. -/
  applied : String → Bool := fun _ => false
  usage : UsageStore := {}

/-- `tonumber(redis.call('GET', key) or '0')`. -/
def number (v : Option ℚ) : ℚ := v.getD 0

@[simp] theorem number_some (q : ℚ) : number (some q) = q := rfl
@[simp] theorem number_none : number none = 0 := rfl

/-- `INCRBYFLOAT`: an absent key counts from zero. -/
def incrByFloat (v : Option ℚ) (q : ℚ) : Option ℚ := some (number v + q)

@[simp] theorem number_incrByFloat (v : Option ℚ) (q : ℚ) :
    number (incrByFloat v q) = number v + q := rfl

namespace Redis

def setBudget (r : Redis) (k : BudgetKey) (row : BudgetRow) : Redis :=
  { r with budgets := Function.update r.budgets k row }

def setSpan (r : Redis) (k : SpanKey) (row : SpanRow) : Redis :=
  { r with spans := Function.update r.spans k row }

/-- `INCRBYFLOAT {budget}:held_usd`. -/
def incrHeld (r : Redis) (k : BudgetKey) (q : ℚ) : Redis :=
  r.setBudget k { r.budgets k with heldUsd := incrByFloat (r.budgets k).heldUsd q }

/-- `INCRBYFLOAT {span}:held_usd`. -/
def incrSpanHeld (r : Redis) (k : SpanKey) (q : ℚ) : Redis :=
  r.setSpan k { r.spans k with heldUsd := incrByFloat (r.spans k).heldUsd q }

def held (r : Redis) (k : BudgetKey) : ℚ := number (r.budgets k).heldUsd

def spanHeld (r : Redis) (k : SpanKey) : ℚ := number (r.spans k).heldUsd

@[simp] theorem setBudget_self (r : Redis) (k : BudgetKey) (row : BudgetRow) :
    (r.setBudget k row).budgets k = row := Function.update_self _ _ _

theorem setBudget_ne (r : Redis) {j k : BudgetKey} (row : BudgetRow) (h : j ≠ k) :
    (r.setBudget k row).budgets j = r.budgets j := Function.update_of_ne h _ _

@[simp] theorem incrHeld_spans (r : Redis) (k : BudgetKey) (q : ℚ) :
    (r.incrHeld k q).spans = r.spans := rfl
@[simp] theorem incrHeld_reservations (r : Redis) (k : BudgetKey) (q : ℚ) :
    (r.incrHeld k q).reservations = r.reservations := rfl
@[simp] theorem incrHeld_windowReservations (r : Redis) (k : BudgetKey) (q : ℚ) :
    (r.incrHeld k q).windowReservations = r.windowReservations := rfl
@[simp] theorem incrHeld_applied (r : Redis) (k : BudgetKey) (q : ℚ) :
    (r.incrHeld k q).applied = r.applied := rfl
@[simp] theorem incrSpanHeld_budgets (r : Redis) (k : SpanKey) (q : ℚ) :
    (r.incrSpanHeld k q).budgets = r.budgets := rfl
@[simp] theorem incrSpanHeld_reservations (r : Redis) (k : SpanKey) (q : ℚ) :
    (r.incrSpanHeld k q).reservations = r.reservations := rfl
@[simp] theorem incrSpanHeld_windowReservations (r : Redis) (k : SpanKey) (q : ℚ) :
    (r.incrSpanHeld k q).windowReservations = r.windowReservations := rfl
@[simp] theorem incrSpanHeld_applied (r : Redis) (k : SpanKey) (q : ℚ) :
    (r.incrSpanHeld k q).applied = r.applied := rfl

theorem held_incrHeld (r : Redis) (j k : BudgetKey) (q : ℚ) :
    (r.incrHeld k q).held j = r.held j + if j = k then q else 0 := by
  by_cases h : j = k
  · subst h; simp [held, incrHeld, setBudget]
  · simp [held, incrHeld, setBudget, h]

theorem spanHeld_incrSpanHeld (r : Redis) (j k : SpanKey) (q : ℚ) :
    (r.incrSpanHeld k q).spanHeld j = r.spanHeld j + if j = k then q else 0 := by
  by_cases h : j = k
  · subst h; simp [spanHeld, incrSpanHeld, setSpan]
  · simp [spanHeld, incrSpanHeld, setSpan, h]

theorem budgets_incrHeld (r : Redis) (j k : BudgetKey) (q : ℚ) :
    (r.incrHeld k q).budgets j =
      { r.budgets j with heldUsd := ((r.incrHeld k q).budgets j).heldUsd } := by
  unfold incrHeld
  by_cases h : j = k
  · rw [h, setBudget_self]
  · rw [setBudget_ne _ _ h]

theorem balanceUsd_incrHeld (r : Redis) (j k : BudgetKey) (q : ℚ) :
    ((r.incrHeld k q).budgets j).balanceUsd = (r.budgets j).balanceUsd := by
  rw [budgets_incrHeld]

theorem caps_incrSpanHeld (r : Redis) (j k : SpanKey) (q : ℚ) :
    ((r.incrSpanHeld k q).spans j).maxCostUsd = (r.spans j).maxCostUsd ∧
      ((r.incrSpanHeld k q).spans j).costUsd = (r.spans j).costUsd := by
  by_cases h : j = k
  · subst h; simp [incrSpanHeld, setSpan]
  · simp [incrSpanHeld, setSpan, Function.update_of_ne h]

end Redis

end FluxMeter.Budget
