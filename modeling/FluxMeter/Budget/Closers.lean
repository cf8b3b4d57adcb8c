import FluxMeter.Budget.Ledger
import FluxMeter.Budget.Settlement

/-! The three closers of a reservation side by side: settle, expiry and the window that bills it.
They release the same amount from the same span; only the budget key they release from differs. -/
namespace FluxMeter.Budget
open Collections FluxMeter.Keys FluxMeter.Model Transition

/-- Two stores with the same holds, records and deadlines. -/
structure SameHolds (r r' : Redis) : Prop where
  held : ∀ b, r'.held b = r.held b
  spanHeld : ∀ s, r'.spanHeld s = r.spanHeld s
  reservations : r'.reservations = r.reservations
  pending : r'.pending = r.pending

namespace SameHolds
variable {r r' r'' : Redis}

theorem refl (r : Redis) : SameHolds r r := ⟨fun _ => rfl, fun _ => rfl, rfl, rfl⟩

theorem trans (h : SameHolds r r') (h' : SameHolds r' r'') : SameHolds r r'' where
  held b := (h'.held b).trans (h.held b)
  spanHeld s := (h'.spanHeld s).trans (h.spanHeld s)
  reservations := h'.reservations.trans h.reservations
  pending := h'.pending.trans h.pending

theorem symm (h : SameHolds r r') : SameHolds r' r where
  held b := (h.held b).symm
  spanHeld s := (h.spanHeld s).symm
  reservations := h.reservations.symm
  pending := h.pending.symm

end SameHolds

section Release
variable {r r' : Redis} {b j : BudgetKey} {span : Option SpanKey} {q : ℚ} {s : SpanKey}

theorem held_releaseHold (r : Redis) (b : BudgetKey) (span : Option SpanKey) (q : ℚ)
    (j : BudgetKey) :
    (releaseHold r b span q).1.held j = r.held j - if j = b then max 0 (min (r.held b) q) else 0 := by
  by_cases hj : j = b
  · subst hj
    rw [if_pos rfl]
    unfold releaseHold
    dsimp only
    unfold Redis.held
    rw [(releaseSpan_frame _ span _).1]
    by_cases hpos : 0 < min (number (r.budgets j).heldUsd) q
    · rw [if_pos hpos, max_eq_right hpos.le]
      simp only [Redis.incrHeld, Redis.setBudget_self, number_incrByFloat]
      ring
    · rw [if_neg hpos, max_eq_left (not_lt.mp hpos), sub_zero]
  · rw [if_neg hj, sub_zero]
    exact releaseHold_held_ne _ _ _ hj

theorem spanHeld_releaseSpan (r : Redis) (span : Option SpanKey) (q : ℚ) (s : SpanKey) :
    (releaseSpan r span q).spanHeld s = r.spanHeld s -
      if span = some s ∧ 0 < r.spanHeld s then min (r.spanHeld s) q else 0 := by
  cases span with
  | none => simp [releaseSpan]
  | some t =>
    unfold releaseSpan
    dsimp only
    by_cases hst : t = s
    · subst hst
      by_cases hpos : 0 < r.spanHeld t
      · rw [if_pos hpos, if_pos ⟨rfl, hpos⟩, Redis.spanHeld_incrSpanHeld, if_pos rfl]
        ring
      · have hno : ¬ (some t = some t ∧ 0 < r.spanHeld t) := by
          rintro ⟨-, h⟩
          exact hpos h
        rw [if_neg hpos, if_neg hno, sub_zero]
    · have hno : ¬ (some t = some s ∧ 0 < r.spanHeld s) := by
        rintro ⟨h, -⟩
        exact hst (Option.some.inj h)
      rw [if_neg hno, sub_zero]
      split_ifs
      · rw [Redis.spanHeld_incrSpanHeld, if_neg (Ne.symm hst), add_zero]
      · rfl

theorem spanHeld_releaseHold (r : Redis) (b : BudgetKey) (span : Option SpanKey) (q : ℚ)
    (s : SpanKey) :
    (releaseHold r b span q).1.spanHeld s = r.spanHeld s -
      if span = some s ∧ 0 < r.spanHeld s then min (r.spanHeld s) (min (r.held b) q) else 0 := by
  unfold releaseHold
  dsimp only
  by_cases hpos : 0 < min (r.held b) q
  · rw [if_pos hpos]
    exact spanHeld_releaseSpan (r.incrHeld b _) span _ s
  · rw [if_neg hpos]
    exact spanHeld_releaseSpan r span _ s

theorem SameHolds.releaseHold (h : SameHolds r r') (b : BudgetKey) (span : Option SpanKey) (q : ℚ) :
    SameHolds (releaseHold r b span q).1 (releaseHold r' b span q).1 := by
  obtain ⟨hres, hpend, -, -⟩ := releaseHold_frame r b span q
  obtain ⟨hres', hpend', -, -⟩ := releaseHold_frame r' b span q
  constructor
  case held => intro j; rw [held_releaseHold, held_releaseHold, h.held, h.held]
  case spanHeld => intro s; rw [spanHeld_releaseHold, spanHeld_releaseHold, h.spanHeld, h.held]
  case reservations => rw [hres, hres', h.reservations]
  case pending => rw [hpend, hpend', h.pending]

theorem SameHolds.dropReservation (h : SameHolds r r') (rid : String) :
    SameHolds (dropReservation r rid) (dropReservation r' rid) where
  held := h.held
  spanHeld := h.spanHeld
  reservations := by
    unfold Budget.dropReservation
    rw [h.reservations]
  pending := by
    unfold Budget.dropReservation
    rw [h.pending]

/-- Releases of a positive amount from two budgets agree exactly if it is one budget, or nothing is
held on either. -/
theorem releaseHold_sameHolds_iff {k : BudgetKey} (hq : 0 < q) (hb : 0 ≤ r.held b)
    (hk : 0 ≤ r.held k) :
    SameHolds (releaseHold r b span q).1 (releaseHold r k span q).1 ↔
      b = k ∨ r.held b = 0 ∧ r.held k = 0 := by
  constructor
  · intro h
    by_cases hbk : b = k
    · exact .inl hbk
    · have hatb := h.held b
      have hatk := h.held k
      rw [held_releaseHold, held_releaseHold, if_pos rfl, if_neg hbk] at hatb
      rw [held_releaseHold, held_releaseHold, if_pos rfl, if_neg (Ne.symm hbk)] at hatk
      have hmin : ∀ x : ℚ, 0 ≤ x → max 0 (min x q) = 0 → x = 0 := by
        intro x hx hzero
        rcases le_total x q with hle | hle
        · rw [min_eq_left hle, max_eq_right hx] at hzero
          exact hzero
        · rw [min_eq_right hle, max_eq_right hq.le] at hzero
          linarith
      exact .inr ⟨hmin _ hb (by linarith), hmin _ hk (by linarith)⟩
  · rintro (rfl | ⟨hzb, hzk⟩)
    · exact SameHolds.refl _
    · obtain ⟨hres, hpend, -, -⟩ := releaseHold_frame r b span q
      obtain ⟨hres', hpend', -, -⟩ := releaseHold_frame r k span q
      constructor
      case held => intro j; rw [held_releaseHold, held_releaseHold, hzb, hzk]; simp [hq.le]
      case spanHeld => intro s; rw [spanHeld_releaseHold, spanHeld_releaseHold, hzb, hzk]
      case reservations => rw [hres, hres']
      case pending => rw [hpend, hpend']

end Release

/-! ### The window that settles one reservation -/

private theorem recordWindow_sameHolds (r : Redis) (k : SinkKeys) (a : SinkArgs) :
    SameHolds r (recordWindow r k a) where
  held b := by
    unfold Redis.held
    rw [recordWindow_budgets]
  spanHeld _ := rfl
  reservations := rfl
  pending := rfl

/-- A fresh window to which only `rid` is attached releases the record of `rid` from its own
budget. -/
theorem window_sameHolds {r : Redis} {k : SinkKeys} {rid : String} {record : ReservationRecord}
    (a : SinkArgs) (hfresh : r.applied k.windowId = false)
    (honly : r.windowReservations k.windowId = [])
    (hget : r.reservations.get rid = some record) :
    SameHolds
      (dropReservation (releaseHold r k.budget (sinkSpan record) record.reservedUsd).1 rid)
      (sinkScript (attachReservation r rid k.windowId) k a).1 := by
  have hattached : (attachReservation r rid k.windowId).windowReservations k.windowId = [rid] := by
    simp [attachReservation, honly]
  have hsettled : SameHolds
      (dropReservation (releaseHold r k.budget (sinkSpan record) record.reservedUsd).1 rid)
      (settleWindow (recordWindow (attachReservation r rid k.windowId) k a) k) := by
    have hloop : settleWindow (recordWindow (attachReservation r rid k.windowId) k a) k =
        { settleOne k.budget (recordWindow (attachReservation r rid k.windowId) k a) rid with
          windowReservations := Function.update
            (recordWindow (attachReservation r rid k.windowId) k a).windowReservations
            k.windowId [] } := by
      unfold settleWindow
      have hset : (recordWindow (attachReservation r rid k.windowId) k a).windowReservations
          k.windowId = [rid] := hattached
      rw [hset]
      rfl
    have hattach : SameHolds r (attachReservation r rid k.windowId) :=
      ⟨fun _ => rfl, fun _ => rfl, rfl, rfl⟩
    have hsame : SameHolds r (recordWindow (attachReservation r rid k.windowId) k a) :=
      hattach.trans (recordWindow_sameHolds _ k a)
    have hget' : (recordWindow (attachReservation r rid k.windowId) k a).reservations.get rid =
        some record := hget
    have hone := (hsame.releaseHold k.budget (sinkSpan record) record.reservedUsd).dropReservation rid
    rw [← settleOne_of_some k.budget hget'] at hone
    rw [hloop]
    exact ⟨hone.held, hone.spanHeld, hone.reservations, hone.pending⟩
  rcases sinkScript_cases (attachReservation r rid k.windowId) k a with ⟨happ, -⟩ | ⟨-, -, hr⟩ |
    ⟨balance, -, -, hr⟩
  · have hset : r.applied k.windowId = true := happ
    rw [hfresh] at hset
    cases hset
  · rw [hr]
    exact hsettled
  · rw [hr]
    refine hsettled.trans ⟨fun b => ?_, fun _ => rfl, rfl, rfl⟩
    unfold Redis.held
    by_cases hb : b = k.budget
    · rw [hb, Redis.setBudget_self]
      unfold BudgetRow.deduct
      split_ifs
      · rfl
      · rfl
    · rw [Redis.setBudget_ne _ _ hb]

/-! ### Reachable stores -/

/-- The operations that bring a reservation about. -/
inductive OpeningOp
  | openHold (tenantId : Option String) (reservationId customerId : String) (estimate : ℚ)
      (parentSpanId : Option String) (expiresAt : Option ℚ) (clock : ℚ)
  | configure (tenantId : Option String) (customerId : String) (balanceUsd : ℚ)
      (alertThresholdUsd : Option ℚ) (maxRpm : Option ℤ)
  | topUp (tenantId : Option String) (customerId : String) (amountUsd : ℚ)

def openingStep (r : Redis) : OpeningOp → Option Redis
  | .openHold t rid c estimate parent expiresAt clock =>
    some (Reservation.openHold r t rid c estimate parent expiresAt clock).1
  | .configure t c balance alert rpm => some ((configure r t c balance alert rpm).getD r)
  | .topUp t c amount =>
    match topUp r t c amount with
    | .error _ => some r
    | .ok (r', _) => some r'

/-- The record an open writes: it names its keys, and no span only without a parent span. -/
def OpenRecord (record : ReservationRecord) : Prop :=
  record.heldKey.isSome ∧ 0 < record.reservedUsd ∧ sinkSpan record = record.spanHeldKey

/-- What opens, configures and top-ups keep: holds are not negative, every record names its keys,
and no window has been applied. -/
structure Opening (r : Redis) : Prop where
  held_nonneg : ∀ b, 0 ≤ r.held b
  records : ∀ rid record, r.reservations.get rid = some record → OpenRecord record
  unapplied : ∀ w, r.applied w = false
  unattached : ∀ w, r.windowReservations w = []

/-- A store before the first reservation: only spans, with their caps and costs, may be there. -/
structure BeforeOpening (r : Redis) : Prop where
  budgets : r.budgets = fun _ => {}
  reservations : r.reservations = .empty
  unapplied : ∀ w, r.applied w = false
  unattached : ∀ w, r.windowReservations w = []

section Reachable
variable {r r' : Redis}

theorem BeforeOpening.opening (h : BeforeOpening r) : Opening r where
  held_nonneg b := by simp [Redis.held, h.budgets]
  records rid record hget := by simp [h.reservations] at hget
  unapplied := h.unapplied
  unattached := h.unattached

theorem openRecord_record {a : OpenArgs} {budget : BudgetKey} {parent : Option String} {t : Option String}
    (hpos : 0 < a.estimate) (hparent : a.parentSpanId = parent.getD "") :
    OpenRecord (a.record budget (Reservation.scope r t parent)) := by
  refine ⟨rfl, hpos, ?_⟩
  unfold sinkSpan OpenArgs.record
  dsimp only
  cases hspan : Reservation.scope r t parent with
  | some s => rfl
  | none =>
    have hempty : parent.getD "" = "" := by
      unfold Reservation.scope at hspan
      cases parent with
      | none => rfl
      | some p =>
        dsimp only at hspan
        split_ifs at hspan with hp
        exact hp
    rw [hparent, hempty]
    simp

theorem Opening.openHold (h : Opening r) (t : Option String) (rid c : String) (estimate : ℚ)
    (parent : Option String) (expiresAt : Option ℚ) (clock : ℚ) :
    Opening (Reservation.openHold r t rid c estimate parent expiresAt clock).1 := by
  unfold Reservation.openHold
  split_ifs with hpos
  · exact h
  rcases openScript_cases r (budgetPrefixForRead r (stripTenant t) c)
    (Reservation.scope r (stripTenant t) parent)
    ⟨rid, c, (stripTenant t).getD "", parent.getD "", estimate, expiresAt.getD (clock + 900)⟩
    with ⟨-, hsame⟩ | ⟨balance, r₁, spanHeld, spanSpent, -, -, -, -, hspan, heq⟩
  · rw [hsame]
    exact h
  · obtain ⟨-, hres, -, hwin, happ⟩ := admitSpan_frame hspan
    rw [heq]
    constructor
    case held_nonneg =>
      intro b
      have hb := h.held_nonneg b
      have hold := admitted_held hspan b (budgetPrefixForRead r (stripTenant t) c) estimate
      unfold Redis.held at hb hold ⊢
      rw [hold]
      split_ifs <;> linarith
    case records =>
      intro k record hget
      dsimp only at hget
      rw [Table.get_set, hres] at hget
      split_ifs at hget with hk
      · rw [← Option.some.inj hget]
        exact openRecord_record (not_le.mp hpos) rfl
      · exact h.records k record hget
    case unapplied => intro w; rw [← h.unapplied w, ← happ]; rfl
    case unattached => intro w; rw [← h.unattached w, ← hwin]; rfl

theorem Opening.setBudget (h : Opening r) {k : BudgetKey} {row : BudgetRow}
    (hrow : 0 ≤ number row.heldUsd) : Opening (r.setBudget k row) where
  held_nonneg b := by
    unfold Redis.held
    by_cases hb : b = k
    · rw [hb, Redis.setBudget_self]
      exact hrow
    · rw [Redis.setBudget_ne _ _ hb]
      exact h.held_nonneg b
  records := h.records
  unapplied := h.unapplied
  unattached := h.unattached

theorem Opening.step {op : OpeningOp} (h : Opening r) (hstep : openingStep r op = some r') :
    Opening r' := by
  cases op with
  | openHold t rid c estimate parent expiresAt clock =>
    exact Option.some.inj hstep ▸ h.openHold t rid c estimate parent expiresAt clock
  | configure t c balance alert rpm =>
    rw [← Option.some.inj hstep]
    cases hconf : configure r t c balance alert rpm with
    | none => exact h
    | some r₁ =>
      obtain ⟨-, row, -, hheld, rfl⟩ := configure_cases hconf
      apply h.setBudget
      simp [hheld]
  | topUp t c amount =>
    simp only [openingStep] at hstep
    cases htop : topUp r t c amount with
    | error e =>
      rw [htop] at hstep
      exact Option.some.inj hstep ▸ h
    | ok p =>
      rw [htop] at hstep
      obtain ⟨-, row, hr, hrow⟩ := topUp_cases htop
      rw [← Option.some.inj hstep, hr]
      apply h.setBudget
      have hnonneg := h.held_nonneg
      unfold Redis.held at hnonneg
      rcases hrow with rfl | ⟨-, rfl⟩
      · exact hnonneg _
      · unfold BudgetRow.topUp migrate
        dsimp only
        cases hlegacy : (r.budgets (budgetPrefixForRead r (stripTenant t) c)).heldUsd with
        | none => exact hnonneg _
        | some x =>
          have hx := hnonneg (budgetPrefixForRead r (stripTenant t) c)
          rw [hlegacy] at hx
          exact hx

end Reachable

/-- In every state that opens, configures and top-ups reach, expiry does to the reservations that are
due what settle does to one after the other, so to a reservation that is due alone what settle does. A
window that holds only an open reservation agrees with settle exactly if the window's budget is the
one the hold was opened on, or neither has a hold left. -/
theorem closers_agree_iff {r₀ r : Redis} {ops : List OpeningOp} (hstart : BeforeOpening r₀)
    (hrun : run openingStep r₀ ops = some r) {rid : String}
    {record : ReservationRecord} {k : BudgetKey} (hget : r.reservations.get rid = some record)
    (hkey : record.heldKey = some k) (agg : UsageAggregate) :
    (∀ cutoff, (Reservation.expireDue r cutoff).1 =
      (Reservation.due r cutoff).foldl (fun r id => (Reservation.settle r id).1) r) ∧
    (∀ cutoff, Reservation.due r cutoff = [rid] →
      SameHolds (Reservation.settle r rid).1 (Reservation.expireDue r cutoff).1) ∧
    (SameHolds (Reservation.settle r rid).1
        (invoke (attachReservation r rid (sinkKeys agg).windowId) agg).1 ↔
      k = (sinkKeys agg).budget ∨ r.held k = 0 ∧ r.held (sinkKeys agg).budget = 0) := by
  have hopening : Opening r :=
    run_invariant (fun _ _ _ h hstep => Opening.step h hstep) hstart.opening hrun
  obtain ⟨-, hpos, hspan⟩ := hopening.records rid record hget
  have hclose : (Reservation.settle r rid).1 =
      dropReservation (releaseHold r k record.spanHeldKey record.reservedUsd).1 rid := by
    unfold Reservation.settle
    rw [close_of_some hget hkey]
  have hexpire : ∀ cutoff, (Reservation.expireDue r cutoff).1 =
      (Reservation.due r cutoff).foldl (fun r id => (Reservation.settle r id).1) r :=
    fun cutoff => expireDue_fst r cutoff
  have hwindow := window_sameHolds (sinkArgs agg) (hopening.unapplied (sinkKeys agg).windowId)
    (hopening.unattached _) hget
  rw [hspan] at hwindow
  refine ⟨hexpire, fun cutoff hdue => ?_, ?_⟩
  · rw [hexpire, hdue]
    exact SameHolds.refl _
  have hreleases : SameHolds (releaseHold r k record.spanHeldKey record.reservedUsd).1
      (releaseHold r (sinkKeys agg).budget record.spanHeldKey record.reservedUsd).1 ↔
        k = (sinkKeys agg).budget ∨ r.held k = 0 ∧ r.held (sinkKeys agg).budget = 0 :=
    releaseHold_sameHolds_iff hpos (hopening.held_nonneg k) (hopening.held_nonneg _)
  rw [hclose, ← hreleases]
  constructor
  · intro h
    have hreleased := h.trans hwindow.symm
    refine ⟨hreleased.held, hreleased.spanHeld, ?_, ?_⟩
    · rw [(releaseHold_frame r _ _ _).1, (releaseHold_frame r _ _ _).1]
    · rw [(releaseHold_frame r _ _ _).2.1, (releaseHold_frame r _ _ _).2.1]
  · exact fun h => (h.dropReservation rid).trans hwindow

/-- The window of the tenant's event, without cost. -/
def freeWindow : UsageAggregate :=
  { customerId := some "acme", tenantId := some "t", modelId := some "m", windowEnd := 10000 }

/-- A hold of the customer's own budget. -/
def heldByTenant : Redis :=
  (Reservation.openHold ((configure {} (some "t") "acme" 10 none none).getD {}) (some "t") "r1"
    "acme" 4 none none 0).1

theorem closers_agree_tenant :
    SameHolds (Reservation.settle heldByTenant "r1").1 (Reservation.expireDue heldByTenant 900).1 ∧
      SameHolds (Reservation.settle heldByTenant "r1").1
        (invoke (attachReservation heldByTenant "r1" (sinkKeys freeWindow).windowId)
          freeWindow).1 := by
  have hstart : BeforeOpening {} := ⟨rfl, rfl, fun _ => rfl, fun _ => rfl⟩
  have hrun : run openingStep {} [.configure (some "t") "acme" 10 none none,
      .openHold (some "t") "r1" "acme" 4 none none 0] = some heldByTenant := rfl
  have hget : heldByTenant.reservations.get "r1" =
      some ⟨"acme", "t", 4, "", some ⟨some "t", "acme"⟩, none⟩ := by decide +kernel
  have hdue : Reservation.due heldByTenant 900 = ["r1"] := by decide +kernel
  have hagree := closers_agree_iff hstart hrun hget rfl freeWindow
  exact ⟨hagree.2.1 900 hdue, hagree.2.2.mpr (.inl (by decide +kernel))⟩

/-- A tenant that still reads the legacy budget opens a hold there; its window releases from the
tenant's own budget, so the hold stays. -/
theorem not_closers_agree_legacy :
    ∃ r, run openingStep {} [.configure none "acme" 10 none none,
        .openHold (some "t") "r1" "acme" 4 none none 0] = some r ∧
      ¬ SameHolds (Reservation.settle r "r1").1
        (invoke (attachReservation r "r1" (sinkKeys freeWindow).windowId) freeWindow).1 := by
  refine ⟨_, (Option.some_get (by decide +kernel)).symm, fun h => ?_⟩
  have hheld := h.held ⟨none, "acme"⟩
  revert hheld
  decide +kernel

end FluxMeter.Budget
