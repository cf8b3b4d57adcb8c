import FluxMeter.Budget.Account
import FluxMeter.Budget.BudgetEnforcerSink
import Mathlib.Tactic.Linarith
import Mathlib.Tactic.Ring

/-! What each hold operation can do: one inversion lemma for the admissions, exact release
and frame lemmas for the closers, and the totals of the recorded holds. -/
namespace FluxMeter.Budget
open Collections FluxMeter.Keys

/-- The hold a record keeps on the budget `b`. -/
def recordHold (b : BudgetKey) (record : ReservationRecord) : ℚ :=
  if record.heldKey = some b then record.reservedUsd else 0

/-- The hold a record keeps on the span `s`. -/
def recordSpanHold (s : SpanKey) (record : ReservationRecord) : ℚ :=
  if record.spanHeldKey = some s then record.reservedUsd else 0

namespace Redis

/-- The sum of `reserved_usd` over the open records held on `b`. -/
def recorded (r : Redis) (b : BudgetKey) : ℚ := r.reservations.weight fun _ => recordHold b

/-- The sum of `reserved_usd` over the open records that name the span `s`. -/
def spanRecorded (r : Redis) (s : SpanKey) : ℚ := r.reservations.weight fun _ => recordSpanHold s

/-- Every open record was written by `open`: it names its hold key and a positive amount. -/
def RecordsOpened (r : Redis) : Prop :=
  ∀ rid record, r.reservations.get rid = some record →
    (∃ b, record.heldKey = some b) ∧ 0 < record.reservedUsd

end Redis

theorem recordHold_nonneg {b : BudgetKey} {record : ReservationRecord}
    (h : 0 < record.reservedUsd) : 0 ≤ recordHold b record := by
  unfold recordHold
  split_ifs
  · exact h.le
  · exact le_rfl

theorem recordSpanHold_nonneg {s : SpanKey} {record : ReservationRecord}
    (h : 0 < record.reservedUsd) : 0 ≤ recordSpanHold s record := by
  unfold recordSpanHold
  split_ifs
  · exact h.le
  · exact le_rfl

/-- An open record's amount is part of the total of its budget. -/
theorem reserved_le_recorded {r : Redis} (hr : r.RecordsOpened) {rid : String}
    {record : ReservationRecord} {b : BudgetKey} (hget : r.reservations.get rid = some record)
    (hkey : record.heldKey = some b) : record.reservedUsd ≤ r.recorded b := by
  have htotal := r.reservations.weight_erase_add (fun _ => recordHold b) hget
  have hrest : 0 ≤ (r.reservations.erase rid).weight fun _ => recordHold b := by
    apply Table.weight_nonneg
    intro k v hk
    rw [Table.get_erase] at hk
    split_ifs at hk
    exact recordHold_nonneg (hr k v hk).2
  have hown : recordHold b record = record.reservedUsd := by simp [recordHold, hkey]
  unfold Redis.recorded
  linarith

theorem reserved_le_spanRecorded {r : Redis} (hr : r.RecordsOpened) {rid : String}
    {record : ReservationRecord} {s : SpanKey} (hget : r.reservations.get rid = some record)
    (hkey : record.spanHeldKey = some s) : record.reservedUsd ≤ r.spanRecorded s := by
  have htotal := r.reservations.weight_erase_add (fun _ => recordSpanHold s) hget
  have hrest : 0 ≤ (r.reservations.erase rid).weight fun _ => recordSpanHold s := by
    apply Table.weight_nonneg
    intro k v hk
    rw [Table.get_erase] at hk
    split_ifs at hk
    exact recordSpanHold_nonneg (hr k v hk).2
  have hown : recordSpanHold s record = record.reservedUsd := by simp [recordSpanHold, hkey]
  unfold Redis.spanRecorded
  linarith

/-! ### Admission -/

/-- A granted span check either leaves the store alone, because no span or no cap is named,
or adds the hold within the cap. -/
theorem admitSpan_ok {r r₁ : Redis} {span : Option SpanKey} {estimate spanHeld spanSpent : ℚ}
    (h : admitSpan r span estimate = .ok (r₁, spanHeld, spanSpent)) :
    (r₁ = r ∧ ∀ s, span = some s → (r.spans s).maxCostUsd = none) ∨
    ∃ s spanMax, span = some s ∧ (r.spans s).maxCostUsd = some spanMax ∧
      number (r.spans s).costUsd + r.spanHeld s + estimate ≤ spanMax ∧
      r₁ = r.incrSpanHeld s estimate := by
  cases span with
  | none =>
    simp only [admitSpan, Except.ok.injEq, Prod.mk.injEq] at h
    exact .inl ⟨h.1.symm, fun s hs => by simp at hs⟩
  | some s =>
    simp only [admitSpan] at h
    cases hmax : (r.spans s).maxCostUsd with
    | none =>
      simp only [hmax, Except.ok.injEq, Prod.mk.injEq] at h
      refine .inl ⟨h.1.symm, fun t ht => ?_⟩
      rwa [← Option.some.inj ht]
    | some spanMax =>
      simp only [hmax] at h
      split_ifs at h with hover
      simp only [Except.ok.injEq, Prod.mk.injEq] at h
      exact .inr ⟨s, spanMax, rfl, hmax, not_lt.mp hover, h.1.symm⟩

theorem admitSpan_frame {r r₁ : Redis} {span : Option SpanKey} {estimate spanHeld spanSpent : ℚ}
    (h : admitSpan r span estimate = .ok (r₁, spanHeld, spanSpent)) :
    r₁.budgets = r.budgets ∧ r₁.reservations = r.reservations ∧ r₁.pending = r.pending ∧
      r₁.windowReservations = r.windowReservations ∧ r₁.applied = r.applied := by
  rcases admitSpan_ok h with ⟨rfl, -⟩ | ⟨s, spanMax, -, -, -, rfl⟩
  · exact ⟨rfl, rfl, rfl, rfl, rfl⟩
  · exact ⟨rfl, rfl, rfl, rfl, rfl⟩

section Admitted
variable {r r₁ : Redis} {span : Option SpanKey} {estimate spanHeld spanSpent : ℚ}

/-- A span is admitted without a change to the budgets, so the hold on a budget is all they get. -/
theorem admitted_held (h : admitSpan r span estimate = .ok (r₁, spanHeld, spanSpent))
    (j k : BudgetKey) (q : ℚ) :
    (r₁.incrHeld k q).held j = r.held j + if j = k then q else 0 := by
  have hsame : r₁.held j = r.held j := by unfold Redis.held; rw [(admitSpan_frame h).1]
  rw [Redis.held_incrHeld, hsame]

theorem admitted_balanceUsd (h : admitSpan r span estimate = .ok (r₁, spanHeld, spanSpent))
    (j k : BudgetKey) (q : ℚ) :
    ((r₁.incrHeld k q).budgets j).balanceUsd = (r.budgets j).balanceUsd := by
  rw [Redis.balanceUsd_incrHeld, (admitSpan_frame h).1]

end Admitted

def OpenReply.isOpened : OpenReply → Bool
  | .opened .. => true
  | _ => false

def ReserveReply.isReserved : ReserveReply → Bool
  | .reserved .. => true
  | _ => false

/-- The record `open` writes. -/
def OpenArgs.record (a : OpenArgs) (budget : BudgetKey) (span : Option SpanKey) :
    ReservationRecord :=
  ⟨a.customerId, a.tenantId, a.estimate, a.parentSpanId, some budget, span⟩

/-- All an open can do: nothing, or under a fresh id and a sufficient balance one hold on the
budget, one on the capped span, and one record. -/
theorem openScript_cases (r : Redis) (budget : BudgetKey) (span : Option SpanKey) (a : OpenArgs) :
    ((openScript r budget span a).2.isOpened = false ∧ (openScript r budget span a).1 = r) ∨
    ∃ balance r₁ spanHeld spanSpent,
      (openScript r budget span a).2.isOpened = true ∧
      r.reservations.get a.reservationId = none ∧
      (r.budgets budget).balanceUsd = some balance ∧
      r.held budget + a.estimate ≤ balance ∧
      admitSpan r span a.estimate = .ok (r₁, spanHeld, spanSpent) ∧
      (openScript r budget span a).1 =
        { r₁.incrHeld budget a.estimate with
          reservations := r₁.reservations.set a.reservationId (a.record budget span)
          pending := r₁.pending.set a.reservationId a.deadline } := by
  unfold openScript
  cases hget : r.reservations.get a.reservationId with
  | some existing =>
    dsimp only
    split_ifs
    · exact .inl ⟨rfl, rfl⟩
    · exact .inl ⟨rfl, rfl⟩
  | none =>
    cases hbal : (r.budgets budget).balanceUsd with
    | none => exact .inl ⟨rfl, rfl⟩
    | some balance =>
      dsimp only
      split_ifs with hlow
      · exact .inl ⟨rfl, rfl⟩
      cases hspan : admitSpan r span a.estimate with
      | error e => exact .inl ⟨rfl, rfl⟩
      | ok g =>
        obtain ⟨r₁, spanHeld, spanSpent⟩ := g
        exact .inr ⟨balance, r₁, spanHeld, spanSpent, rfl, rfl, rfl, by linarith, rfl, rfl⟩

/-- All a reserve can do: nothing, or one hold on the budget and one on the capped span. -/
theorem reserveScript_cases (r : Redis) (budget : BudgetKey) (span : Option SpanKey)
    (estimate : ℚ) :
    ((reserveScript r budget span estimate).2.isReserved = false ∧
      (reserveScript r budget span estimate).1 = r) ∨
    ∃ balance r₁ spanHeld spanSpent,
      (reserveScript r budget span estimate).2.isReserved = true ∧
      (r.budgets budget).balanceUsd = some balance ∧
      r.held budget + estimate ≤ balance ∧
      admitSpan r span estimate = .ok (r₁, spanHeld, spanSpent) ∧
      (reserveScript r budget span estimate).1 = r₁.incrHeld budget estimate := by
  unfold reserveScript
  cases hbal : (r.budgets budget).balanceUsd with
  | none => exact .inl ⟨rfl, rfl⟩
  | some balance =>
    dsimp only
    split_ifs with hlow
    · exact .inl ⟨rfl, rfl⟩
    cases hspan : admitSpan r span estimate with
    | error e => exact .inl ⟨rfl, rfl⟩
    | ok g =>
      obtain ⟨r₁, spanHeld, spanSpent⟩ := g
      exact .inr ⟨balance, r₁, spanHeld, spanSpent, rfl, rfl, by linarith, rfl, rfl⟩

theorem openHold_refused {r : Redis} {t : Option String} {rid c : String} {estimate : ℚ}
    {parent : Option String} {expiresAt : Option ℚ} {clock : ℚ}
    (h : (Reservation.openHold r t rid c estimate parent expiresAt clock).2.isOpened = false) :
    (Reservation.openHold r t rid c estimate parent expiresAt clock).1 = r := by
  unfold Reservation.openHold at h ⊢
  split_ifs at h ⊢ with hpos
  · rfl
  dsimp only at h ⊢
  rcases openScript_cases r (budgetPrefixForRead r (stripTenant t) c)
    (Reservation.scope r (stripTenant t) parent)
    ⟨rid, c, (stripTenant t).getD "", parent.getD "", estimate, expiresAt.getD (clock + 900)⟩
    with ⟨-, hsame⟩ | ⟨balance, r₁, spanHeld, spanSpent, hyes, -⟩
  · exact hsame
  · rw [hyes] at h
    simp at h

theorem reserve_refused {r : Redis} {t : Option String} {c : String} {estimate : ℚ}
    {parent : Option String}
    (h : ¬ (Reservation.reserve r t c estimate parent).2.isReserved = true) :
    (Reservation.reserve r t c estimate parent).1 = r := by
  unfold Reservation.reserve at h ⊢
  split_ifs at h ⊢ with hpos
  · rfl
  · rcases reserveScript_cases r (budgetPrefixForRead r (stripTenant t) c)
      (Reservation.scope r (stripTenant t) parent) estimate with
      ⟨-, hsame⟩ | ⟨balance, r₁, spanHeld, spanSpent, hyes, -⟩
    · exact hsame
    · exact absurd hyes h

/-! ### Release -/

theorem releaseSpan_frame (r : Redis) (span : Option SpanKey) (released : ℚ) :
    (releaseSpan r span released).budgets = r.budgets ∧
      (releaseSpan r span released).reservations = r.reservations ∧
      (releaseSpan r span released).pending = r.pending ∧
      (releaseSpan r span released).windowReservations = r.windowReservations ∧
      (releaseSpan r span released).applied = r.applied := by
  cases span with
  | none => exact ⟨rfl, rfl, rfl, rfl, rfl⟩
  | some s =>
    unfold releaseSpan
    dsimp only
    split_ifs
    · exact ⟨rfl, rfl, rfl, rfl, rfl⟩
    · exact ⟨rfl, rfl, rfl, rfl, rfl⟩

theorem releaseSpan_caps (r : Redis) (span : Option SpanKey) (released : ℚ) (s : SpanKey) :
    ((releaseSpan r span released).spans s).maxCostUsd = (r.spans s).maxCostUsd ∧
      ((releaseSpan r span released).spans s).costUsd = (r.spans s).costUsd := by
  cases span with
  | none => exact ⟨rfl, rfl⟩
  | some t =>
    unfold releaseSpan
    dsimp only
    split_ifs
    · exact r.caps_incrSpanHeld s t _
    · exact ⟨rfl, rfl⟩

theorem releaseSpan_exact {r : Redis} {span : Option SpanKey} {released : ℚ} (s : SpanKey)
    (hpos : 0 < released) (hheld : span = some s → released ≤ r.spanHeld s) :
    (releaseSpan r span released).spanHeld s =
      r.spanHeld s - if span = some s then released else 0 := by
  cases span with
  | none => simp [releaseSpan]
  | some t =>
    unfold releaseSpan
    dsimp only
    by_cases hst : s = t
    · subst hst
      have hle := hheld rfl
      rw [if_pos (lt_of_lt_of_le hpos hle), r.spanHeld_incrSpanHeld, min_eq_right hle]
      simp
      ring
    · have hne : ¬ (some t = some s) := fun h => hst (Option.some.inj h).symm
      rw [if_neg hne, sub_zero]
      split_ifs
      · rw [r.spanHeld_incrSpanHeld, if_neg hst, add_zero]
      · rfl

theorem releaseSpan_of_zero {r : Redis} {span : Option SpanKey} {released : ℚ} {s : SpanKey}
    (hzero : r.spanHeld s = 0) : (releaseSpan r span released).spanHeld s = 0 := by
  cases span with
  | none => exact hzero
  | some t =>
    unfold releaseSpan
    dsimp only
    by_cases hst : s = t
    · subst hst
      rw [if_neg (by rw [hzero]; exact lt_irrefl 0)]
      exact hzero
    · split_ifs
      · rw [r.spanHeld_incrSpanHeld, if_neg hst, add_zero, hzero]
      · exact hzero

theorem releaseHold_frame (r : Redis) (b : BudgetKey) (span : Option SpanKey) (q : ℚ) :
    (releaseHold r b span q).1.reservations = r.reservations ∧
      (releaseHold r b span q).1.pending = r.pending ∧
      (releaseHold r b span q).1.windowReservations = r.windowReservations ∧
      (releaseHold r b span q).1.applied = r.applied := by
  unfold releaseHold
  dsimp only
  obtain ⟨-, h₁, h₂, h₃, h₄⟩ := releaseSpan_frame
    (if 0 < min (r.held b) q then r.incrHeld b (-(min (r.held b) q)) else r) span (min (r.held b) q)
  rw [h₁, h₂, h₃, h₄]
  split_ifs
  · exact ⟨rfl, rfl, rfl, rfl⟩
  · exact ⟨rfl, rfl, rfl, rfl⟩

theorem releaseHold_budgets (r : Redis) (b : BudgetKey) (span : Option SpanKey) (q : ℚ)
    (j : BudgetKey) :
    (releaseHold r b span q).1.budgets j =
      { r.budgets j with heldUsd := ((releaseHold r b span q).1.budgets j).heldUsd } := by
  unfold releaseHold
  dsimp only
  rw [(releaseSpan_frame _ span _).1]
  split_ifs
  · by_cases hj : j = b
    · subst hj; simp [Redis.incrHeld, Redis.setBudget]
    · simp [Redis.incrHeld, Redis.setBudget, Function.update_of_ne hj]
  · rfl

theorem releaseHold_caps (r : Redis) (b : BudgetKey) (span : Option SpanKey) (q : ℚ) (s : SpanKey) :
    ((releaseHold r b span q).1.spans s).maxCostUsd = (r.spans s).maxCostUsd ∧
      ((releaseHold r b span q).1.spans s).costUsd = (r.spans s).costUsd := by
  unfold releaseHold
  dsimp only
  obtain ⟨hmax, hcost⟩ := releaseSpan_caps
    (if 0 < min (r.held b) q then r.incrHeld b (-(min (r.held b) q)) else r) span (min (r.held b) q) s
  rw [hmax, hcost]
  split_ifs
  · exact ⟨rfl, rfl⟩
  · exact ⟨rfl, rfl⟩

theorem releaseHold_exact {r : Redis} {b : BudgetKey} (span : Option SpanKey) {q : ℚ}
    (hpos : 0 < q) (hheld : q ≤ r.held b) :
    (releaseHold r b span q).2 = q ∧
      ∀ j, (releaseHold r b span q).1.held j = r.held j - if j = b then q else 0 := by
  have hmin : min (r.held b) q = q := min_eq_right hheld
  refine ⟨hmin, fun j => ?_⟩
  unfold releaseHold
  dsimp only
  rw [hmin, if_pos hpos]
  have hbud := (releaseSpan_frame (r.incrHeld b (-q)) span q).1
  have hj := r.held_incrHeld j b (-q)
  unfold Redis.held at hj ⊢
  rw [hbud, hj]
  split_ifs <;> ring

theorem releaseHold_held_ne (r : Redis) {b j : BudgetKey} (span : Option SpanKey) (q : ℚ)
    (hj : j ≠ b) : (releaseHold r b span q).1.held j = r.held j := by
  unfold releaseHold
  dsimp only
  unfold Redis.held
  rw [(releaseSpan_frame _ span _).1]
  split_ifs
  · simp [Redis.incrHeld, Redis.setBudget, Function.update_of_ne hj]
  · rfl

theorem releaseHold_spanHeld {r : Redis} {b : BudgetKey} (span : Option SpanKey) {q : ℚ}
    (s : SpanKey) (hpos : 0 < q) (hheld : q ≤ r.held b)
    (hspan : span = some s → q ≤ r.spanHeld s) :
    (releaseHold r b span q).1.spanHeld s = r.spanHeld s - if span = some s then q else 0 := by
  unfold releaseHold
  dsimp only
  rw [min_eq_right hheld, if_pos hpos]
  exact releaseSpan_exact (r := r.incrHeld b (-q)) s hpos hspan

theorem releaseHold_spanHeld_of_zero {r : Redis} {b : BudgetKey} {span : Option SpanKey} {q : ℚ}
    {s : SpanKey} (hzero : r.spanHeld s = 0) :
    (releaseHold r b span q).1.spanHeld s = 0 := by
  unfold releaseHold
  dsimp only
  split_ifs
  · exact releaseSpan_of_zero (r := r.incrHeld b _) hzero
  · exact releaseSpan_of_zero hzero

theorem releaseHold_zero (r : Redis) (b : BudgetKey) (span : Option SpanKey) (j : BudgetKey) :
    (releaseHold r b span 0).1.held j = r.held j := by
  unfold releaseHold
  dsimp only
  rw [if_neg (not_lt.mpr (min_le_right _ _))]
  unfold Redis.held
  rw [(releaseSpan_frame r span _).1]

/-! ### Removing a record -/

theorem dropReservation_recorded {r : Redis} {rid : String} {record : ReservationRecord}
    (hget : r.reservations.get rid = some record) (b : BudgetKey) :
    (dropReservation r rid).recorded b + recordHold b record = r.recorded b :=
  r.reservations.weight_erase_add (fun _ => recordHold b) hget

theorem dropReservation_spanRecorded {r : Redis} {rid : String} {record : ReservationRecord}
    (hget : r.reservations.get rid = some record) (s : SpanKey) :
    (dropReservation r rid).spanRecorded s + recordSpanHold s record = r.spanRecorded s :=
  r.reservations.weight_erase_add (fun _ => recordSpanHold s) hget

theorem dropReservation_of_none {r : Redis} {rid : String}
    (hget : r.reservations.get rid = none) :
    (∀ b, (dropReservation r rid).recorded b = r.recorded b) ∧
      ∀ s, (dropReservation r rid).spanRecorded s = r.spanRecorded s :=
  ⟨fun b => r.reservations.weight_erase_of_none (fun _ => recordHold b) hget,
    fun s => r.reservations.weight_erase_of_none (fun _ => recordSpanHold s) hget⟩

theorem dropReservation_get (r : Redis) (rid : String) {k : String} {record : ReservationRecord}
    (h : (dropReservation r rid).reservations.get k = some record) :
    r.reservations.get k = some record := by
  rw [dropReservation, Table.get_erase] at h
  split_ifs at h
  exact h

theorem RecordsOpened.drop {r : Redis} (hr : r.RecordsOpened) (rid : String) :
    (dropReservation r rid).RecordsOpened :=
  fun k record hk => hr k record (dropReservation_get r rid hk)

end FluxMeter.Budget
