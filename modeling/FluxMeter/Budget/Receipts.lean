import FluxMeter.Budget.Admission
import FluxMeter.Budget.Closers

/-! The dictionaries that `Reservation.open`, `reserve` and `reconcile` return. The amounts of a reply
are Lua numbers, which Redis hands on as integers. -/
namespace FluxMeter.Budget
open FluxMeter.Keys
open Ledger (readKey)

/-- A Lua number in a script reply becomes an integer, by truncation. -/
def replyNumber (q : ℚ) : ℚ := truncate q

/-- A returned dictionary; `none` is a key that it has not. -/
structure Receipt where
  allowed : Option Bool := none
  reason : Option String := none
  conflict : Option Bool := none
  reservationId : Option String := none
  reservedUsd : Option ℚ := none
  balanceUsd : Option ℚ := none
  heldUsd : Option ℚ := none
  effectiveBalanceUsd : Option ℚ := none
  releasedUsd : Option ℚ := none
  scope : Option String := none
  scopeId : Option String := none
  idempotent : Option Bool := none
  parentSpanId : Option String := none
  deriving DecidableEq, Repr

/-- The amounts that `open` takes from a reply. -/
def openAmounts (balance held : ℚ) (d : Receipt) : Receipt :=
  { d with
    balanceUsd := some (replyNumber balance)
    heldUsd := some (replyNumber held)
    effectiveBalanceUsd := some (replyNumber balance - replyNumber held) }

/-- What `open` returns; `none` is the `ValueError`. -/
def openReceipt (reservationId : String) (estimatedCostUsd : ℚ) (parentSpanId : Option String) :
    OpenReply → Option Receipt
  | .invalid => none
  | .conflict =>
    some { allowed := some false, reason := some "reservation_conflict", conflict := some true }
  | .noBudget => some { allowed := some false, reason := some "no_budget" }
  | .insufficientBalance balance held =>
    some (openAmounts balance held { allowed := some false, reason := some "insufficient_balance" })
  | .hierarchyReserve balance held _ _ =>
    some (openAmounts balance held
      { allowed := some false, reason := some "hierarchy_reserve", scope := some "span"
        scopeId := parentSpanId })
  | .existing =>
    some { allowed := some true, reason := some "existing", reservationId := some reservationId
           reservedUsd := some estimatedCostUsd, idempotent := some true }
  | .opened balance held _ _ =>
    some (openAmounts balance held
      { allowed := some true, reason := some "reserved", reservationId := some reservationId
        reservedUsd := some estimatedCostUsd, idempotent := some false })

/-- The amounts that `reserve` takes from a reply, the effective balance being one of its own. -/
def reserveAmounts (balance held : ℚ) (d : Receipt) : Receipt :=
  { d with
    balanceUsd := some (replyNumber balance)
    heldUsd := some (replyNumber held)
    effectiveBalanceUsd := some (replyNumber (balance - held)) }

/-- What `reserve` returns; `none` is the `ValueError`. -/
def reserveReceipt (estimatedCostUsd : ℚ) (parentSpanId : Option String) :
    ReserveReply → Option Receipt
  | .invalid => none
  | .noBudget => some { allowed := some false, reason := some "no_budget" }
  | .insufficientBalance balance held =>
    some (reserveAmounts balance held
      { allowed := some false, reason := some "insufficient_balance" })
  | .hierarchyReserve balance held _ _ =>
    some (reserveAmounts balance held
      { allowed := some false, reason := some "hierarchy_reserve", scope := some "span"
        scopeId := parentSpanId })
  | .reserved balance held _ _ =>
    some (reserveAmounts balance held
      { allowed := some true, reason := some "reserved", reservedUsd := some estimatedCostUsd })

/-- What `reconcile` returns. -/
def reconcileReceipt (reservedUsd : ℚ) (parentSpanId : Option String) (reply : ℚ × ℚ × ℚ) : Receipt :=
  { balanceUsd := some (replyNumber reply.1)
    heldUsd := some (replyNumber reply.2.1)
    releasedUsd := some (replyNumber reply.2.2)
    reservedUsd := some reservedUsd
    parentSpanId := parentSpanId.filter fun p => p ≠ "" }

/-- The amounts of a receipt are those that the call left in the store, and the released amount is
what the held counter went down by. -/
structure Receipt.Truthful (d : Receipt) (before after : Redis) (k : BudgetKey) : Prop where
  balance : ∀ q ∈ d.balanceUsd, q = number (after.budgets k).balanceUsd
  held : ∀ q ∈ d.heldUsd, q = after.held k
  effective : ∀ q ∈ d.effectiveBalanceUsd, q = number (after.budgets k).balanceUsd - after.held k
  released : ∀ q ∈ d.releasedUsd, q = before.held k - after.held k

/-- An amount of whole dollars. -/
def Whole (q : ℚ) : Prop := ∃ n : ℤ, q = n

theorem replyNumber_eq_iff (q : ℚ) : replyNumber q = q ↔ Whole q := by
  unfold replyNumber truncate
  constructor
  · intro h
    exact ⟨_, h.symm⟩
  · rintro ⟨n, rfl⟩
    split_ifs
    · rw [Int.floor_intCast]
    · rw [Int.ceil_intCast]

theorem Whole.sub {p q : ℚ} (hp : Whole p) (hq : Whole q) : Whole (p - q) := by
  obtain ⟨m, rfl⟩ := hp
  obtain ⟨n, rfl⟩ := hq
  exact ⟨m - n, by push_cast; rfl⟩

theorem Whole.add {p q : ℚ} (hp : Whole p) (hq : Whole q) : Whole (p + q) := by
  obtain ⟨m, rfl⟩ := hp
  obtain ⟨n, rfl⟩ := hq
  exact ⟨m + n, by push_cast; rfl⟩

theorem whole_zero : Whole 0 := ⟨0, rfl⟩

section Amounts
variable {before after : Redis} {k : BudgetKey} {balance held : ℚ} {d : Receipt}

theorem openAmounts_truthful (hbalance : number (after.budgets k).balanceUsd = balance)
    (hheld : after.held k = held) (hreleased : d.releasedUsd = none) :
    (openAmounts balance held d).Truthful before after k ↔ Whole balance ∧ Whole held := by
  constructor
  · intro h
    rw [← replyNumber_eq_iff balance, ← replyNumber_eq_iff held]
    exact ⟨(h.balance _ rfl).trans hbalance, (h.held _ rfl).trans hheld⟩
  · rintro ⟨hb, hh⟩
    have hb' := (replyNumber_eq_iff balance).mpr hb
    have hh' := (replyNumber_eq_iff held).mpr hh
    constructor
    case balance =>
      rintro q ⟨⟩
      rw [hb', hbalance]
    case held =>
      rintro q ⟨⟩
      rw [hh', hheld]
    case effective =>
      rintro q ⟨⟩
      rw [hb', hh', hbalance, hheld]
    case released =>
      intro q hq
      rw [show (openAmounts balance held d).releasedUsd = none from hreleased] at hq
      cases hq

theorem reserveAmounts_truthful (hbalance : number (after.budgets k).balanceUsd = balance)
    (hheld : after.held k = held) (hreleased : d.releasedUsd = none) :
    (reserveAmounts balance held d).Truthful before after k ↔ Whole balance ∧ Whole held := by
  constructor
  · intro h
    rw [← replyNumber_eq_iff balance, ← replyNumber_eq_iff held]
    exact ⟨(h.balance _ rfl).trans hbalance, (h.held _ rfl).trans hheld⟩
  · rintro ⟨hb, hh⟩
    constructor
    case balance =>
      rintro q ⟨⟩
      rw [(replyNumber_eq_iff balance).mpr hb, hbalance]
    case held =>
      rintro q ⟨⟩
      rw [(replyNumber_eq_iff held).mpr hh, hheld]
    case effective =>
      rintro q ⟨⟩
      rw [(replyNumber_eq_iff _).mpr (hb.sub hh), hbalance, hheld]
    case released =>
      intro q hq
      rw [show (reserveAmounts balance held d).releasedUsd = none from hreleased] at hq
      cases hq

theorem truthful_of_none (hbalance : d.balanceUsd = none) (hheld : d.heldUsd = none)
    (heffective : d.effectiveBalanceUsd = none) (hreleased : d.releasedUsd = none) :
    d.Truthful before after k := by
  constructor
  · simp [hbalance]
  · simp [hheld]
  · simp [heffective]
  · simp [hreleased]

end Amounts

/-! ### The calls -/

section Calls
variable {r : Redis} {tenantId parentSpanId : Option String} {customerId : String}
  {balance estimate : ℚ}

/-- Admission grants the estimate. -/
def granted (r : Redis) (tenantId : Option String) (customerId : String) (estimate : ℚ)
    (parentSpanId : Option String) : Bool :=
  (r.budgets (readKey r tenantId customerId)).balanceUsd.any fun balance =>
    admission (balance - r.held (readKey r tenantId customerId)) estimate
      (spanRow r (stripTenant tenantId) parentSpanId) = .allowed

/-- The held counter with the estimate, where it is granted. -/
def heldAfter (r : Redis) (tenantId : Option String) (customerId : String) (estimate : ℚ)
    (parentSpanId : Option String) : ℚ :=
  r.held (readKey r tenantId customerId) +
    if granted r tenantId customerId estimate parentSpanId then estimate else 0

theorem heldAfter_of_verdict (hbalance : (r.budgets (readKey r tenantId customerId)).balanceUsd =
    some balance) {v : Verdict} (hv : admission (balance - r.held (readKey r tenantId customerId))
      estimate (spanRow r (stripTenant tenantId) parentSpanId) = v) :
    heldAfter r tenantId customerId estimate parentSpanId =
      r.held (readKey r tenantId customerId) + if v = .allowed then estimate else 0 := by
  unfold heldAfter granted
  rw [hbalance, Option.any_some, hv]
  simp

/-- The dictionary of `reserve` has the amounts that the script leaves, as far as a reply can carry
them. -/
private theorem reserveScript_amounts {k : BudgetKey} (span : Option SpanKey) (estimate : ℚ)
    (parentSpanId : Option String)
    (hbalance : (r.budgets k).balanceUsd = some balance) :
    (∃ d : Receipt, d.releasedUsd = none ∧
      reserveReceipt estimate parentSpanId (reserveScript r k span estimate).2 =
        some (reserveAmounts balance ((reserveScript r k span estimate).1.held k) d)) ∧
    number ((reserveScript r k span estimate).1.budgets k).balanceUsd = balance ∧
    (reserveScript r k span estimate).1.held k = r.held k +
      if (reserveScript r k span estimate).2.verdict = .allowed then estimate else 0 := by
  unfold reserveScript
  simp only [hbalance]
  by_cases hleft : balance - r.held k < estimate
  · simp only [if_pos hleft]
    rw [hbalance]
    exact ⟨⟨_, rfl, rfl⟩, rfl, (add_zero (r.held k)).symm⟩
  · simp only [if_neg hleft]
    cases hadmit : admitSpan r span estimate with
    | error e =>
      dsimp only
      rw [hbalance]
      exact ⟨⟨_, rfl, rfl⟩, rfl, (add_zero (r.held k)).symm⟩
    | ok admitted =>
      obtain ⟨r₁, spanHeld, spanSpent⟩ := admitted
      have hheld := admitted_held hadmit k k estimate
      rw [if_pos rfl] at hheld
      dsimp only
      rw [admitted_balanceUsd hadmit, hbalance, hheld]
      exact ⟨⟨_, rfl, rfl⟩, rfl, rfl⟩

private theorem openScript_amounts {k : BudgetKey} (span : Option SpanKey) {a : OpenArgs}
    (parentSpanId : Option String)
    (hfresh : r.reservations.get a.reservationId = none)
    (hbalance : (r.budgets k).balanceUsd = some balance) :
    (∃ d : Receipt, d.releasedUsd = none ∧
      openReceipt a.reservationId a.estimate parentSpanId (openScript r k span a).2 =
        some (openAmounts balance ((openScript r k span a).1.held k) d)) ∧
    number ((openScript r k span a).1.budgets k).balanceUsd = balance ∧
    (openScript r k span a).1.held k = r.held k +
      if (openScript r k span a).2.verdict = .allowed then a.estimate else 0 := by
  unfold openScript
  simp only [hfresh, hbalance]
  by_cases hleft : balance - r.held k < a.estimate
  · simp only [if_pos hleft]
    rw [hbalance]
    exact ⟨⟨_, rfl, rfl⟩, rfl, (add_zero (r.held k)).symm⟩
  · simp only [if_neg hleft]
    cases hadmit : admitSpan r span a.estimate with
    | error e =>
      dsimp only
      rw [hbalance]
      exact ⟨⟨_, rfl, rfl⟩, rfl, (add_zero (r.held k)).symm⟩
    | ok admitted =>
      obtain ⟨r₁, spanHeld, spanSpent⟩ := admitted
      have hheld := admitted_held hadmit k k a.estimate
      rw [if_pos rfl] at hheld
      have hopened : ∀ reservations pending, Redis.held
          { r₁.incrHeld k a.estimate with reservations := reservations, pending := pending } k =
            (r₁.incrHeld k a.estimate).held k := fun _ _ => rfl
      dsimp only
      rw [hopened, admitted_balanceUsd hadmit, hbalance, hheld]
      exact ⟨⟨_, rfl, rfl⟩, rfl, rfl⟩

theorem reserve_truthful_iff (r : Redis) (tenantId : Option String) (customerId : String)
    (estimate : ℚ) (parentSpanId : Option String) :
    (∀ d ∈ reserveReceipt estimate parentSpanId
        (Reservation.reserve r tenantId customerId estimate parentSpanId).2,
      d.Truthful r (Reservation.reserve r tenantId customerId estimate parentSpanId).1
        (readKey r tenantId customerId)) ↔
    (0 < estimate → ∀ balance ∈ (r.budgets (readKey r tenantId customerId)).balanceUsd,
      Whole balance ∧ Whole (heldAfter r tenantId customerId estimate parentSpanId)) := by
  by_cases hestimate : 0 < estimate
  · have hscript : Reservation.reserve r tenantId customerId estimate parentSpanId =
        reserveScript r (readKey r tenantId customerId)
          (Reservation.scope r (stripTenant tenantId) parentSpanId) estimate := by
      unfold Reservation.reserve
      rw [if_neg (not_le.mpr hestimate)]
      rfl
    rw [forall_prop_of_true hestimate]
    cases hbalance : (r.budgets (readKey r tenantId customerId)).balanceUsd with
    | none =>
      have hreply : (Reservation.reserve r tenantId customerId estimate parentSpanId).2 =
          .noBudget := by
        rw [hscript]
        unfold reserveScript
        rw [hbalance]
      rw [hreply]
      refine iff_of_true ?_ (by simp)
      rintro d ⟨⟩
      exact truthful_of_none rfl rfl rfl rfl
    | some balance =>
      have hheld := heldAfter_of_verdict hbalance (reserve_verdict parentSpanId hbalance hestimate).symm
      rw [hheld, hscript]
      obtain ⟨⟨d, hreleased, hreceipt⟩, hstored, hafter⟩ := reserveScript_amounts
        (Reservation.scope r (stripTenant tenantId) parentSpanId) estimate parentSpanId hbalance
      rw [hreceipt, ← hafter]
      simp only [Option.mem_def, Option.some.injEq, forall_eq']
      exact reserveAmounts_truthful hstored rfl hreleased
  · have hinvalid : (Reservation.reserve r tenantId customerId estimate parentSpanId).2 =
        .invalid := by
      unfold Reservation.reserve
      rw [if_pos (not_lt.mp hestimate)]
    rw [hinvalid]
    exact iff_of_true (by rintro d ⟨⟩) fun h => absurd h hestimate

theorem open_truthful_iff (r : Redis) (tenantId : Option String) (reservationId customerId : String)
    (estimate : ℚ) (parentSpanId : Option String) (expiresAt : Option ℚ) (clock : ℚ) :
    (∀ d ∈ openReceipt reservationId estimate parentSpanId
        (Reservation.openHold r tenantId reservationId customerId estimate parentSpanId expiresAt
          clock).2,
      d.Truthful r (Reservation.openHold r tenantId reservationId customerId estimate parentSpanId
        expiresAt clock).1 (readKey r tenantId customerId)) ↔
    (0 < estimate → r.reservations.get reservationId = none →
      ∀ balance ∈ (r.budgets (readKey r tenantId customerId)).balanceUsd,
        Whole balance ∧ Whole (heldAfter r tenantId customerId estimate parentSpanId)) := by
  by_cases hestimate : 0 < estimate
  · have hscript : Reservation.openHold r tenantId reservationId customerId estimate parentSpanId
        expiresAt clock = openScript r (readKey r tenantId customerId)
          (Reservation.scope r (stripTenant tenantId) parentSpanId)
          ⟨reservationId, customerId, (stripTenant tenantId).getD "", parentSpanId.getD "", estimate,
            expiresAt.getD (clock + 900)⟩ := by
      unfold Reservation.openHold
      rw [if_neg (not_le.mpr hestimate)]
      rfl
    rw [forall_prop_of_true hestimate]
    cases hfresh : r.reservations.get reservationId with
    | some existing =>
      refine iff_of_true ?_ (by simp)
      rw [hscript]
      unfold openScript
      simp only [hfresh]
      split_ifs
      · rintro d ⟨⟩
        exact truthful_of_none rfl rfl rfl rfl
      · rintro d ⟨⟩
        exact truthful_of_none rfl rfl rfl rfl
    | none =>
      rw [forall_prop_of_true rfl]
      cases hbalance : (r.budgets (readKey r tenantId customerId)).balanceUsd with
      | none =>
        refine iff_of_true ?_ (by simp)
        rw [hscript]
        unfold openScript
        simp only [hfresh, hbalance]
        rintro d ⟨⟩
        exact truthful_of_none rfl rfl rfl rfl
      | some balance =>
        have hverdict := open_verdict parentSpanId hbalance hestimate hfresh
          expiresAt clock
        rw [heldAfter_of_verdict hbalance hverdict.symm, hscript]
        obtain ⟨⟨d, hreleased, hreceipt⟩, hstored, hafter⟩ := openScript_amounts
          (Reservation.scope r (stripTenant tenantId) parentSpanId)
          (a := ⟨reservationId, customerId, (stripTenant tenantId).getD "", parentSpanId.getD "",
            estimate, expiresAt.getD (clock + 900)⟩) parentSpanId hfresh hbalance
        rw [hreceipt, ← hafter]
        simp only [Option.mem_def, Option.some.injEq, forall_eq']
        exact openAmounts_truthful hstored rfl hreleased
  · have hinvalid : (Reservation.openHold r tenantId reservationId customerId estimate parentSpanId
        expiresAt clock).2 = .invalid := by
      unfold Reservation.openHold
      rw [if_pos (not_lt.mp hestimate)]
    rw [hinvalid]
    exact iff_of_true (by rintro d ⟨⟩) fun h => absurd h hestimate

/-- What a release says is the truth where it takes whole dollars off a counter that is not
negative. -/
private theorem released_truth_iff (held : ℚ) {requested : ℚ} (hrequested : 0 ≤ requested) :
    (replyNumber (held - min held requested) = held - max 0 (min held requested) ∧
      replyNumber (min held requested) = held - (held - max 0 (min held requested))) ↔
    0 ≤ held ∧ Whole held ∧ Whole (min held requested) := by
  have hle : min held requested ≤ held := min_le_left held requested
  by_cases hpositive : 0 < min held requested
  · rw [max_eq_right hpositive.le, replyNumber_eq_iff, sub_sub_cancel, replyNumber_eq_iff]
    constructor
    · rintro ⟨hrest, hreleased⟩
      have hsum := hrest.add hreleased
      rw [sub_add_cancel] at hsum
      exact ⟨(hpositive.le.trans hle), hsum, hreleased⟩
    · rintro ⟨-, hheld, hreleased⟩
      exact ⟨hheld.sub hreleased, hreleased⟩
  · rw [max_eq_left (not_lt.mp hpositive), sub_zero, sub_self]
    have hzero : 0 ≤ held → min held requested = 0 := fun hheld =>
      le_antisymm (not_lt.mp hpositive) (le_min hheld hrequested)
    constructor
    · rintro ⟨hrest, -⟩
      have hheld : 0 ≤ held := by
        by_contra hnegative
        have hmin : min held requested = held :=
          min_eq_left ((not_le.mp hnegative).le.trans hrequested)
        rw [hmin, sub_self, (replyNumber_eq_iff 0).mpr whole_zero] at hrest
        exact hnegative hrest.le
      rw [hzero hheld, sub_zero, replyNumber_eq_iff] at hrest
      rw [hzero hheld]
      exact ⟨hheld, hrest, whole_zero⟩
    · rintro ⟨hheld, hwhole, -⟩
      rw [hzero hheld, sub_zero]
      exact ⟨(replyNumber_eq_iff held).mpr hwhole, (replyNumber_eq_iff 0).mpr whole_zero⟩

/-- A reconcile returns the truth exactly when the balance, the held counter and what it releases are
in whole dollars and the held counter is not negative. -/
theorem reconcile_truthful_iff (r : Redis) (tenantId : Option String) (customerId : String)
    (reservedUsd : ℚ) (parentSpanId : Option String) :
    (reconcileReceipt reservedUsd parentSpanId
      (Reservation.reconcile r tenantId customerId reservedUsd parentSpanId).2).Truthful r
        (Reservation.reconcile r tenantId customerId reservedUsd parentSpanId).1
        (readKey r tenantId customerId) ↔
    0 ≤ r.held (readKey r tenantId customerId) ∧ Whole (r.held (readKey r tenantId customerId)) ∧
      Whole (min (r.held (readKey r tenantId customerId)) (max 0 reservedUsd)) ∧
      Whole (number (r.budgets (readKey r tenantId customerId)).balanceUsd) := by
  have hcall : Reservation.reconcile r tenantId customerId reservedUsd parentSpanId =
      reconcileScript r (readKey r tenantId customerId)
        (Reservation.scope r (stripTenant tenantId) parentSpanId) (max 0 reservedUsd) := rfl
  rw [hcall]
  have hrequested : 0 ≤ max 0 reservedUsd := le_max_left 0 reservedUsd
  generalize readKey r tenantId customerId = k
  generalize Reservation.scope r (stripTenant tenantId) parentSpanId = span
  generalize max 0 reservedUsd = requested at hrequested ⊢
  have hbalance : number ((releaseHold r k span requested).1.budgets k).balanceUsd =
      number (r.budgets k).balanceUsd := by
    rw [releaseHold_budgets]
  have hafter : (reconcileScript r k span requested).1 = (releaseHold r k span requested).1 := rfl
  have hreply : (reconcileScript r k span requested).2 =
      (number (r.budgets k).balanceUsd, r.held k - min (r.held k) requested,
        min (r.held k) requested) := by
    rw [← hbalance]
    rfl
  have hrelease := released_truth_iff (r.held k) hrequested
  have hheldAfter := held_releaseHold r k span requested k
  rw [if_pos rfl] at hheldAfter
  rw [← hheldAfter] at hrelease
  rw [hafter, hreply]
  constructor
  · intro h
    obtain ⟨hheld, hwhole, hmin⟩ := hrelease.mp ⟨h.held _ rfl, h.released _ rfl⟩
    exact ⟨hheld, hwhole, hmin, (replyNumber_eq_iff _).mp ((h.balance _ rfl).trans hbalance)⟩
  · rintro ⟨hheld, hwhole, hmin, hdollars⟩
    obtain ⟨hrest, hreleased⟩ := hrelease.mpr ⟨hheld, hwhole, hmin⟩
    constructor
    case balance =>
      rintro q ⟨⟩
      exact ((replyNumber_eq_iff _).mpr hdollars).trans hbalance.symm
    case held =>
      rintro q ⟨⟩
      exact hrest
    case effective =>
      rintro q ⟨⟩
    case released =>
      rintro q ⟨⟩
      exact hreleased

end Calls

/-! ### One call of the three -/

/-- A call of `Reservation` for a customer. -/
inductive ReservationCall
  | openHold (reservationId : String) (estimate : ℚ) (parentSpanId : Option String)
      (expiresAt : Option ℚ) (clock : ℚ)
  | reserve (estimate : ℚ) (parentSpanId : Option String)
  | reconcile (reservedUsd : ℚ) (parentSpanId : Option String)

/-- The store after the call and the dictionary that it returns, if it returns one. -/
def ReservationCall.run (r : Redis) (tenantId : Option String) (customerId : String) :
    ReservationCall → Redis × Option Receipt
  | .openHold reservationId estimate parentSpanId expiresAt clock =>
    let (r', reply) :=
      Reservation.openHold r tenantId reservationId customerId estimate parentSpanId expiresAt clock
    (r', openReceipt reservationId estimate parentSpanId reply)
  | .reserve estimate parentSpanId =>
    let (r', reply) := Reservation.reserve r tenantId customerId estimate parentSpanId
    (r', reserveReceipt estimate parentSpanId reply)
  | .reconcile reservedUsd parentSpanId =>
    let (r', reply) := Reservation.reconcile r tenantId customerId reservedUsd parentSpanId
    (r', some (reconcileReceipt reservedUsd parentSpanId reply))

/-- Every amount that the call has to report is in whole dollars. -/
def ReservationCall.InWholeDollars (r : Redis) (tenantId : Option String) (customerId : String) :
    ReservationCall → Prop
  | .openHold reservationId estimate parentSpanId _ _ =>
    0 < estimate → r.reservations.get reservationId = none →
      ∀ balance ∈ (r.budgets (readKey r tenantId customerId)).balanceUsd,
        Whole balance ∧ Whole (heldAfter r tenantId customerId estimate parentSpanId)
  | .reserve estimate parentSpanId =>
    0 < estimate → ∀ balance ∈ (r.budgets (readKey r tenantId customerId)).balanceUsd,
      Whole balance ∧ Whole (heldAfter r tenantId customerId estimate parentSpanId)
  | .reconcile reservedUsd _ =>
    0 ≤ r.held (readKey r tenantId customerId) ∧ Whole (r.held (readKey r tenantId customerId)) ∧
      Whole (min (r.held (readKey r tenantId customerId)) (max 0 reservedUsd)) ∧
      Whole (number (r.budgets (readKey r tenantId customerId)).balanceUsd)

/-- A balance of ten dollars and a half, of which a quarter is reserved, is told as ten. -/
def tenAndHalf : Redis := (configure {} (some "t") "acme" (21 / 2) none none).getD {}

end FluxMeter.Budget
