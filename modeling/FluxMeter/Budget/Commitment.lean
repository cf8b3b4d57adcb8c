import FluxMeter.Budget.HoldConservation

/-! No over-commitment: admission keeps the holds of a budget within its balance and those of a
capped span within its cap, and the releases take back exactly what was admitted. -/
namespace FluxMeter.Budget
open Collections FluxMeter.Keys Transition

/-! ### The spans that admission reads -/

/-- No span appears or disappears, and no cap or cost moves. -/
def SpansFixed (r r' : Redis) : Prop :=
  ∀ j, (r'.spans j).present = (r.spans j).present ∧
    (r'.spans j).maxCostUsd = (r.spans j).maxCostUsd ∧ (r'.spans j).costUsd = (r.spans j).costUsd

namespace SpansFixed
variable {r r' r'' : Redis}

theorem refl (r : Redis) : SpansFixed r r := fun _ => ⟨rfl, rfl, rfl⟩

theorem of_eq (h : r'.spans = r.spans) : SpansFixed r r' := fun j => by
  rw [h]; exact ⟨rfl, rfl, rfl⟩

theorem trans (h : SpansFixed r r') (h' : SpansFixed r' r'') : SpansFixed r r'' := fun j =>
  ⟨(h' j).1.trans (h j).1, (h' j).2.1.trans (h j).2.1, (h' j).2.2.trans (h j).2.2⟩

theorem scope_eq (h : SpansFixed r r') (t parent : Option String) :
    Reservation.scope r' t parent = Reservation.scope r t parent := by
  unfold Reservation.scope
  cases parent with
  | none => rfl
  | some p =>
    dsimp only [spanPrefixForRead]
    rw [(h (spanPrefix t p)).1, (h ⟨none, p⟩).1]

end SpansFixed

theorem spansFixed_incrSpanHeld {r : Redis} {k : SpanKey} (q : ℚ)
    (hk : (r.spans k).present) : SpansFixed r (r.incrSpanHeld k q) := by
  intro j
  obtain ⟨hmax, hcost⟩ := r.caps_incrSpanHeld j k q
  refine ⟨?_, hmax, hcost⟩
  by_cases hj : j = k
  · subst hj
    rw [hk]
    simp [Redis.incrSpanHeld, Redis.setSpan, SpanRow.present, incrByFloat]
  · simp [Redis.incrSpanHeld, Redis.setSpan, Function.update_of_ne hj]

theorem spansFixed_admitSpan {r r₁ : Redis} {span : Option SpanKey} {estimate : ℚ}
    {spanHeld spanSpent : ℚ} (h : admitSpan r span estimate = .ok (r₁, spanHeld, spanSpent)) :
    SpansFixed r r₁ := by
  rcases admitSpan_ok h with ⟨rfl, -⟩ | ⟨s, spanMax, -, hmax, -, rfl⟩
  · exact SpansFixed.refl r₁
  · exact spansFixed_incrSpanHeld estimate (by simp [SpanRow.present, hmax])

theorem spansFixed_releaseHold (r : Redis) (b : BudgetKey) (span : Option SpanKey) (q : ℚ) :
    SpansFixed r (releaseHold r b span q).1 := by
  unfold releaseHold
  dsimp only
  have hfirst : SpansFixed r
      (if 0 < min (r.held b) q then r.incrHeld b (-(min (r.held b) q)) else r) := by
    split_ifs
    · exact SpansFixed.of_eq rfl
    · exact SpansFixed.refl r
  refine hfirst.trans ?_
  generalize (if 0 < min (r.held b) q then r.incrHeld b (-(min (r.held b) q)) else r) = r₁
  unfold releaseSpan
  cases span with
  | none => exact SpansFixed.refl r₁
  | some s =>
    dsimp only
    split_ifs with hpos
    · refine spansFixed_incrSpanHeld _ ?_
      cases hs : (r₁.spans s).heldUsd with
      | none => simp [Redis.spanHeld, hs] at hpos
      | some v => simp [SpanRow.present, hs]
    · exact SpansFixed.refl r₁

/-- An admission adds the estimate to the span it names when that span has a cap, and then
the cap still covers it. -/
theorem admitSpan_spanHeld {r r₁ : Redis} {span : Option SpanKey} {estimate cap : ℚ} {s : SpanKey}
    {spanHeld spanSpent : ℚ} (h : admitSpan r span estimate = .ok (r₁, spanHeld, spanSpent))
    (hcap : (r.spans s).maxCostUsd = some cap) :
    r₁.spanHeld s = r.spanHeld s + (if span = some s then estimate else 0) ∧
      (span = some s → number (r.spans s).costUsd + r.spanHeld s + estimate ≤ cap) := by
  rcases admitSpan_ok h with ⟨rfl, hno⟩ | ⟨j, spanMax, hspan, hmax, hle, rfl⟩
  · have hne : span ≠ some s := by
      intro hs
      rw [hno s hs] at hcap
      simp at hcap
    rw [if_neg hne, add_zero]
    exact ⟨rfl, fun hs => absurd hs hne⟩
  · rw [r.spanHeld_incrSpanHeld, hspan]
    constructor
    case left =>
      simp only [Option.some.injEq]
      by_cases hsj : s = j
      · subst hsj; rfl
      · rw [if_neg hsj, if_neg fun h => hsj h.symm]
    case right =>
      intro hs
      obtain rfl := Option.some.inj hs
      rw [hmax, Option.some.injEq] at hcap
      rw [← hcap]
      exact hle

/-! ### Releases -/

/-- The counters of every budget and of the span `s` are their recorded holds plus what `a` and
`x` say. -/
structure Solid (s : SpanKey) (a : BudgetKey → ℚ) (x : ℚ) (r : Redis) : Prop where
  records : r.RecordsOpened
  budgets : ∀ j, r.recorded j + a j = r.held j
  span : r.spanRecorded s + x = r.spanHeld s

/-- What a closer does to a solid store. -/
structure Shrunk (s : SpanKey) (a : BudgetKey → ℚ) (x : ℚ) (r₀ r : Redis) : Prop
    extends Solid s a x r, Removes r₀ r where
  fixed : SpansFixed r₀ r
  recorded_le : ∀ j, r.recorded j ≤ r₀.recorded j
  spanRecorded_le : r.spanRecorded s ≤ r₀.spanRecorded s

theorem releaseHold_recorded (r : Redis) (b : BudgetKey) (span : Option SpanKey) (q : ℚ) :
    (∀ j, (releaseHold r b span q).1.recorded j = r.recorded j) ∧
      ∀ s, (releaseHold r b span q).1.spanRecorded s = r.spanRecorded s := by
  have hres := (releaseHold_frame r b span q).1
  refine ⟨fun j => ?_, fun s => ?_⟩
  · unfold Redis.recorded; rw [hres]
  · unfold Redis.spanRecorded; rw [hres]

theorem close_shrunk {s : SpanKey} {a : BudgetKey → ℚ} {x : ℚ} {r₀ r : Redis}
    (ha : ∀ j, 0 ≤ a j) (hx : 0 ≤ x) (h : Shrunk s a x r₀ r) (rid : String) :
    Shrunk s a x r₀ (Reservation.close r rid).1 := by
  have hremoves := h.toRemoves.close rid
  have hbudgets : ∀ j, (Reservation.close r rid).1.recorded j + a j =
      (Reservation.close r rid).1.held j := fun j => close_balanced h.records (ha j) (h.budgets j)
  have hrecords : (Reservation.close r rid).1.RecordsOpened :=
    ((Removes.refl r).close rid).recordsOpened h.records
  cases hget : r.reservations.get rid with
  | none =>
    have hsame := close_of_none hget
    rw [hsame] at hbudgets hrecords hremoves ⊢
    exact ⟨⟨hrecords, hbudgets, h.span⟩, hremoves, h.fixed, h.recorded_le, h.spanRecorded_le⟩
  | some record =>
    obtain ⟨⟨k, hk⟩, hpos⟩ := h.records rid record hget
    have hclose := close_of_some hget hk
    set released := releaseHold r k record.spanHeldKey record.reservedUsd with hrel
    obtain ⟨hrec, hspanRec⟩ := releaseHold_recorded r k record.spanHeldKey record.reservedUsd
    have hget' : released.1.reservations.get rid = some record := by
      rw [hrel, (releaseHold_frame r k record.spanHeldKey record.reservedUsd).1]
      exact hget
    have hdrop := dropReservation_recorded hget'
    have hdropSpan := dropReservation_spanRecorded hget' s
    have hpart := recordSpanHold_nonneg (s := s) hpos
    rw [← hrel] at hrec hspanRec
    rw [hclose] at hbudgets hrecords hremoves ⊢
    refine ⟨⟨hrecords, hbudgets, ?_⟩, hremoves, ?_, fun j => ?_, ?_⟩
    · -- the budget covers the record, so the span gives back the whole amount
      have hle : record.reservedUsd ≤ r.held k := by
        have hmine := reserved_le_recorded h.records hget hk
        have hbal := h.budgets k
        have hak := ha k
        linarith
      have hspan := releaseHold_spanHeld (r := r) (b := k) record.spanHeldKey s hpos hle
        fun hs => by
          have hmine := reserved_le_spanRecorded h.records hget hs
          have hbal := h.span
          linarith
      have hown : recordSpanHold s record =
          if record.spanHeldKey = some s then record.reservedUsd else 0 := rfl
      have hbal := h.span
      have hrec' := hspanRec s
      change (dropReservation released.1 rid).spanRecorded s + x = released.1.spanHeld s
      rw [hspan, ← hown]
      linarith
    · exact h.fixed.trans (spansFixed_releaseHold r k record.spanHeldKey record.reservedUsd)
    · have hle := h.recorded_le j
      have hj := hdrop j
      have hpartj := recordHold_nonneg (b := j) hpos
      rw [hrec j] at hj
      change (dropReservation released.1 rid).recorded j ≤ _
      linarith
    · have hle := h.spanRecorded_le
      rw [hspanRec s] at hdropSpan
      change (dropReservation released.1 rid).spanRecorded s ≤ _
      linarith

theorem Solid.shrunk_refl {s : SpanKey} {a : BudgetKey → ℚ} {x : ℚ} {r : Redis}
    (h : Solid s a x r) : Shrunk s a x r r :=
  ⟨h, Removes.refl r, SpansFixed.refl r, fun _ => le_rfl, le_rfl⟩

theorem expireDue_shrunk {s : SpanKey} {a : BudgetKey → ℚ} {x : ℚ} {r : Redis}
    (ha : ∀ j, 0 ≤ a j) (hx : 0 ≤ x) (h : Solid s a x r) (cutoff : ℚ) :
    Shrunk s a x r (Reservation.expireDue r cutoff).1 := by
  rw [expireDue_fst]
  exact List.foldlRecOn _ _ h.shrunk_refl fun _ hs rid _ => close_shrunk ha hx hs rid

/-! ### Ledgers -/

namespace Ledger

/-- The reserve amounts that name the span `s` and are not reconciled yet. -/
def spanAnonymous (l : Ledger) (s : SpanKey) : ℚ :=
  (l.reserves.map fun call => if call.span = some s then call.amountUsd else 0).sum

/-- The operations of admission: no configure and no window, and reserves only by callers that
read their own budget. -/
def Admits (l : Ledger) : LedgerOp → Prop
  | .configure .. | .window .. => False
  | .reserve t c _ _ => readKey l.redis t c = ownKey t c
  | _ => True

instance (l : Ledger) : ∀ op, Decidable (l.Admits op)
  | .configure .. | .window .. => isFalse id
  | .reserve t c _ _ => inferInstanceAs (Decidable (readKey l.redis t c = ownKey t c))
  | .topUp .. | .openHold .. | .reconcile .. | .refresh .. | .settle .. | .expireDue ..
  | .attach .. => isTrue trivial

/-- The holds on the budget `b` and on the span `s`, whose cap is `cap` and whose cost is `cost`,
are exactly the open ones, and stay within the balance and the cap. -/
structure Committed (b : BudgetKey) (s : SpanKey) (cap cost : ℚ) (l : Ledger) : Prop where
  records : l.redis.RecordsOpened
  positive : ∀ call ∈ l.reserves, 0 < call.amountUsd
  own : ∀ call ∈ l.reserves, call.budget = ownKey call.tenantId call.customerId
  sameScope : ∀ call ∈ l.reserves,
    call.span = Reservation.scope l.redis (stripTenant call.tenantId) call.parentSpanId
  granted : ∀ call ∈ l.reserves, (l.redis.budgets call.budget).balanceUsd.isSome
  opened : ∀ rid record j, l.redis.reservations.get rid = some record →
    record.heldKey = some j → (l.redis.budgets j).balanceUsd.isSome
  covered : ∀ j, l.redis.recorded j + l.anonymous j ≤ l.redis.held j
  exact : l.redis.recorded b + l.anonymous b = l.redis.held b
  funded : ∃ balance, (l.redis.budgets b).balanceUsd = some balance ∧ l.redis.held b ≤ balance
  spanExact : l.redis.spanRecorded s + l.spanAnonymous s = l.redis.spanHeld s
  capped : (l.redis.spans s).maxCostUsd = some cap
  spent : number (l.redis.spans s).costUsd = cost
  within : cost + l.redis.spanHeld s ≤ max cap cost

variable {b : BudgetKey} {s : SpanKey} {cap cost : ℚ} {l l' : Ledger}

theorem spanAnonymous_nonneg (h : ∀ call ∈ l.reserves, 0 < call.amountUsd) (s : SpanKey) :
    0 ≤ l.spanAnonymous s := by
  apply List.sum_nonneg
  intro x hx
  obtain ⟨call, hc, rfl⟩ := List.mem_map.mp hx
  split_ifs
  · exact (h call hc).le
  · exact le_rfl

theorem spanRecorded_nonneg {r : Redis} (h : r.RecordsOpened) (s : SpanKey) :
    0 ≤ r.spanRecorded s :=
  r.reservations.weight_nonneg _ fun rid record hget => recordSpanHold_nonneg (h rid record hget).2

/-- What a budget holds beyond its records: its reserves, and what was copied from a legacy
budget. -/
def beyond (l : Ledger) (j : BudgetKey) : ℚ := l.redis.held j - l.redis.recorded j

theorem beyond_nonneg (h : Committed b s cap cost l) (j : BudgetKey) : 0 ≤ l.beyond j := by
  have hcov := h.covered j
  have hanon := anonymous_nonneg h.positive j
  unfold beyond
  linarith

theorem solid_of_committed (h : Committed b s cap cost l) :
    Solid s l.beyond (l.spanAnonymous s) l.redis :=
  ⟨h.records, fun j => by unfold beyond; ring, h.spanExact⟩

theorem Committed.of_shrunk {r : Redis} (h : Committed b s cap cost l)
    (hr : Shrunk s l.beyond (l.spanAnonymous s) l.redis r) :
    Committed b s cap cost { l with redis := r } := by
  have hheld : ∀ j, r.held j = r.recorded j + (l.redis.held j - l.redis.recorded j) :=
    fun j => (hr.budgets j).symm
  constructor
  case records => exact hr.records
  case positive => exact h.positive
  case own => exact h.own
  case sameScope =>
    intro call hc
    rw [h.sameScope call hc]
    exact (hr.fixed.scope_eq _ _).symm
  case granted =>
    intro call hc
    dsimp only
    rw [hr.balances]
    exact h.granted call hc
  case opened =>
    intro rid record j hget hj
    dsimp only
    rw [hr.balances]
    exact h.opened rid record j (hr.kept rid record hget) hj
  case covered =>
    intro j
    have hcov := h.covered j
    have hj := hheld j
    change r.recorded j + l.anonymous j ≤ r.held j
    linarith
  case exact =>
    have hex := h.exact
    have hj := hheld b
    change r.recorded b + l.anonymous b = r.held b
    linarith
  case funded =>
    obtain ⟨balance, hbal, hle⟩ := h.funded
    refine ⟨balance, (hr.balances b).trans hbal, ?_⟩
    have hj := hheld b
    have hrec := hr.recorded_le b
    dsimp only
    linarith
  case spanExact => exact hr.span
  case capped => exact (hr.fixed s).2.1.trans h.capped
  case spent =>
    dsimp only
    rw [(hr.fixed s).2.2]
    exact h.spent
  case within =>
    have hle := h.within
    have hrec := hr.spanRecorded_le
    have hspan := hr.span
    have hold := h.spanExact
    dsimp only
    linarith

theorem settle_committed (h : Committed b s cap cost l) (rid : String) :
    Committed b s cap cost { l with redis := (Reservation.settle l.redis rid).1 } :=
  h.of_shrunk (close_shrunk (beyond_nonneg h) (spanAnonymous_nonneg h.positive s)
    (solid_of_committed h).shrunk_refl rid)

theorem expireDue_committed (h : Committed b s cap cost l) (cutoff : ℚ) :
    Committed b s cap cost { l with redis := (Reservation.expireDue l.redis cutoff).1 } :=
  h.of_shrunk (expireDue_shrunk (beyond_nonneg h) (spanAnonymous_nonneg h.positive s)
    (solid_of_committed h) cutoff)

/-- What a granted hold leaves: one hold on the budget and one on the span, both with room for it. -/
structure HoldGranted (s : SpanKey) (cap : ℚ) (budget : BudgetKey) (span : Option SpanKey) (q : ℚ)
    (r r' : Redis) : Prop where
  balances : ∀ j, (r'.budgets j).balanceUsd = (r.budgets j).balanceUsd
  held : ∀ j, r'.held j = r.held j + if budget = j then q else 0
  spans : SpansFixed r r'
  spanHeld : r'.spanHeld s = r.spanHeld s + if span = some s then q else 0
  room : ∀ balance, (r.budgets budget).balanceUsd = some balance → r.held budget + q ≤ balance
  spanRoom : span = some s → number (r.spans s).costUsd + r.spanHeld s + q ≤ cap

theorem holdGranted {r r₁ : Redis} {budget : BudgetKey} {span : Option SpanKey}
    {q balance spanHeld spanSpent : ℚ} (hspan : admitSpan r span q = .ok (r₁, spanHeld, spanSpent))
    (hcapped : (r.spans s).maxCostUsd = some cap)
    (hbalance : (r.budgets budget).balanceUsd = some balance) (hroom : r.held budget + q ≤ balance) :
    HoldGranted s cap budget span q r (r₁.incrHeld budget q) := by
  obtain ⟨hspanHeld, hcap⟩ := admitSpan_spanHeld hspan hcapped
  constructor
  case balances => exact fun j => admitted_balanceUsd hspan j budget q
  case held =>
    intro j
    rw [admitted_held hspan]
    simp [eq_comm]
  case spans =>
    exact (spansFixed_admitSpan hspan).trans (SpansFixed.of_eq (Redis.incrHeld_spans r₁ budget q))
  case spanHeld => exact hspanHeld
  case room =>
    intro p hp
    rw [hbalance, Option.some.injEq] at hp
    rw [← hp]
    exact hroom
  case spanRoom => exact hcap

section Granted
variable {budget : BudgetKey} {span : Option SpanKey} {q : ℚ} {r : Redis}

theorem Committed.granted_funded (h : Committed b s cap cost l)
    (hg : HoldGranted s cap budget span q l.redis r) :
    ∃ balance, (r.budgets b).balanceUsd = some balance ∧ r.held b ≤ balance := by
  obtain ⟨own, hown, hle⟩ := h.funded
  refine ⟨own, (hg.balances b).trans hown, ?_⟩
  rw [hg.held]
  by_cases hb : budget = b
  · rw [if_pos hb]
    rw [← hb] at hown ⊢
    exact hg.room own hown
  · rw [if_neg hb, add_zero]
    exact hle

theorem Committed.granted_within (h : Committed b s cap cost l)
    (hg : HoldGranted s cap budget span q l.redis r) : cost + r.spanHeld s ≤ max cap cost := by
  have hle := h.within
  have hspent := h.spent
  rw [hg.spanHeld]
  by_cases hs : span = some s
  · have hroom := hg.spanRoom hs
    rw [if_pos hs]
    exact le_max_of_le_left (by linarith)
  · rw [if_neg hs]
    linarith

end Granted

private theorem openScript_committed {budget : BudgetKey} {span : Option SpanKey} {a : OpenArgs}
    (h : Committed b s cap cost l) (hpos : 0 < a.estimate) :
    Committed b s cap cost { l with redis := (openScript l.redis budget span a).1 } := by
  rcases openScript_cases l.redis budget span a with
    ⟨-, hsame⟩ | ⟨balance, r₁, spanHeld, spanSpent, -, hfresh, hbalance, hroom, hspan, hnew⟩
  · rw [hsame]; exact h
  have hres := (admitSpan_frame hspan).2.1
  rw [← hres] at hfresh
  set r' : Redis := { r₁.incrHeld budget a.estimate with
    reservations := r₁.reservations.set a.reservationId (a.record budget span)
    pending := r₁.pending.set a.reservationId a.deadline } with hr'
  have hg : HoldGranted s cap budget span a.estimate l.redis r' := by
    obtain ⟨hbalances, hheld, hspans, hspanHeld, hbudgetRoom, hspanRoom⟩ :=
      holdGranted hspan h.capped hbalance hroom
    exact ⟨hbalances, hheld, hspans, hspanHeld, hbudgetRoom, hspanRoom⟩
  have hown : ∀ j, recordHold j (a.record budget span) = if budget = j then a.estimate else 0 := by
    intro j
    simp [recordHold, OpenArgs.record]
  have hrecorded : ∀ j, r'.recorded j =
      recordHold j (a.record budget span) + l.redis.recorded j := by
    intro j
    have htotal := r₁.reservations.weight_set_of_none (a.record budget span)
      (fun _ => recordHold j) hfresh
    unfold Redis.recorded
    rw [hr', htotal, hres]
  have hspanRecorded : r'.spanRecorded s =
      recordSpanHold s (a.record budget span) + l.redis.spanRecorded s := by
    have htotal := r₁.reservations.weight_set_of_none (a.record budget span)
      (fun _ => recordSpanHold s) hfresh
    unfold Redis.spanRecorded
    rw [hr', htotal, hres]
  have hrecords : r'.RecordsOpened :=
    hnew ▸ (openScript_keeps b l.redis budget span hpos).records h.records
  rw [hnew]
  constructor
  case records => exact hrecords
  case positive => exact h.positive
  case own => exact h.own
  case sameScope =>
    intro call hc
    rw [h.sameScope call hc]
    exact (hg.spans.scope_eq _ _).symm
  case granted =>
    intro call hc
    dsimp only
    rw [hg.balances]
    exact h.granted call hc
  case opened =>
    intro rid record j hget hj
    dsimp only at hget ⊢
    rw [hg.balances]
    rw [hr', Table.get_set] at hget
    split_ifs at hget
    · rw [← Option.some.inj hget] at hj
      rw [← Option.some.inj hj, hbalance]
      rfl
    · exact h.opened rid record j (hres ▸ hget) hj
  case covered =>
    intro j
    have hcov := h.covered j
    change r'.recorded j + l.anonymous j ≤ r'.held j
    rw [hrecorded, hg.held, hown]
    linarith
  case exact =>
    have hex := h.exact
    change r'.recorded b + l.anonymous b = r'.held b
    rw [hrecorded, hg.held, hown]
    linarith
  case funded => exact h.granted_funded hg
  case spanExact =>
    have hex := h.spanExact
    have hmine : recordSpanHold s (a.record budget span) =
        if span = some s then a.estimate else 0 := rfl
    change r'.spanRecorded s + l.spanAnonymous s = r'.spanHeld s
    rw [hspanRecorded, hg.spanHeld, hmine]
    linarith
  case capped => exact (hg.spans s).2.1.trans h.capped
  case spent =>
    change number (r'.spans s).costUsd = cost
    rw [(hg.spans s).2.2]
    exact h.spent
  case within => exact h.granted_within hg

theorem openHold_committed (h : Committed b s cap cost l) (t : Option String) (rid c : String)
    (estimate : ℚ) (parent : Option String) (expiresAt : Option ℚ) (clock : ℚ) :
    Committed b s cap cost
      { l with redis := (Reservation.openHold l.redis t rid c estimate parent expiresAt clock).1 } := by
  unfold Reservation.openHold
  split_ifs with hpos
  · exact h
  · exact openScript_committed h (not_le.mp hpos)

theorem reserve_committed {t : Option String} {c : String} {estimate : ℚ} {parent : Option String}
    (h : Committed b s cap cost l) (hown : readKey l.redis t c = ownKey t c)
    (hreply : (Reservation.reserve l.redis t c estimate parent).2.isReserved) :
    Committed b s cap cost ⟨(Reservation.reserve l.redis t c estimate parent).1,
      ⟨t, c, parent, estimate, readKey l.redis t c,
        Reservation.scope l.redis (stripTenant t) parent⟩ :: l.reserves⟩ := by
  unfold Reservation.reserve at hreply ⊢
  split_ifs at hreply ⊢ with hpos
  · simp [ReserveReply.isReserved] at hreply
  dsimp only at hreply ⊢
  rcases reserveScript_cases l.redis (budgetPrefixForRead l.redis (stripTenant t) c)
      (Reservation.scope l.redis (stripTenant t) parent) estimate with
    ⟨hno, -⟩ | ⟨balance, r₁, spanHeld, spanSpent, -, hbalance, hroom, hspan, hnew⟩
  · rw [hno] at hreply; simp at hreply
  set budget := readKey l.redis t c with hbudget
  set span := Reservation.scope l.redis (stripTenant t) parent with hscope
  change _ = r₁.incrHeld budget estimate at hnew
  change (l.redis.budgets budget).balanceUsd = some balance at hbalance
  change l.redis.held budget + estimate ≤ balance at hroom
  rw [hnew]
  have hres := (admitSpan_frame hspan).2.1
  have hg := holdGranted hspan h.capped hbalance hroom
  have hrecorded : ∀ j, (r₁.incrHeld budget estimate).recorded j = l.redis.recorded j := by
    intro j
    unfold Redis.recorded
    rw [Redis.incrHeld_reservations, hres]
  constructor
  case records =>
    intro rid record hget
    exact h.records rid record (hres ▸ hget)
  case positive =>
    intro call hc
    rcases List.mem_cons.mp hc with rfl | hc
    · exact not_le.mp hpos
    · exact h.positive call hc
  case own =>
    intro call hc
    rcases List.mem_cons.mp hc with rfl | hc
    · exact hown
    · exact h.own call hc
  case sameScope =>
    intro call hc
    rcases List.mem_cons.mp hc with rfl | hc
    · exact (hg.spans.scope_eq _ _).symm
    · rw [h.sameScope call hc]
      exact (hg.spans.scope_eq _ _).symm
  case granted =>
    intro call hc
    dsimp only
    rw [hg.balances]
    rcases List.mem_cons.mp hc with rfl | hc
    · dsimp only
      rw [hbalance]
      rfl
    · exact h.granted call hc
  case opened =>
    intro rid record j hget hj
    dsimp only
    rw [hg.balances]
    exact h.opened rid record j (hres ▸ hget) hj
  case covered =>
    intro j
    have hcov := h.covered j
    unfold anonymous at hcov ⊢
    simp only [List.map_cons, List.sum_cons, hrecorded, hg.held]
    linarith
  case exact =>
    have hex := h.exact
    unfold anonymous at hex ⊢
    simp only [List.map_cons, List.sum_cons, hrecorded, hg.held]
    linarith
  case funded => exact h.granted_funded hg
  case spanExact =>
    have hex := h.spanExact
    unfold spanAnonymous at hex ⊢
    have hspanRecorded : (r₁.incrHeld budget estimate).spanRecorded s =
        l.redis.spanRecorded s := by
      unfold Redis.spanRecorded
      rw [Redis.incrHeld_reservations, hres]
    simp only [List.map_cons, List.sum_cons, hspanRecorded, hg.spanHeld]
    linarith
  case capped => exact (hg.spans s).2.1.trans h.capped
  case spent =>
    dsimp only
    rw [(hg.spans s).2.2]
    exact h.spent
  case within => exact h.granted_within hg

private theorem readKey_of_own (h : Committed b s cap cost l) {call : ReserveCall}
    (hc : call ∈ l.reserves) : readKey l.redis call.tenantId call.customerId = call.budget := by
  have hown := h.own call hc
  have hgranted := h.granted call hc
  have hpresent : (l.redis.budgets (ownKey call.tenantId call.customerId)).present := by
    rw [← hown]
    simp [BudgetRow.present, hgranted]
  unfold readKey budgetPrefixForRead
  unfold ownKey at hpresent hown
  simp only [hpresent, if_true, hown, ite_self]

theorem spanAnonymous_erase (r : Redis) {call : ReserveCall} (hc : call ∈ l.reserves)
    (s : SpanKey) : (if call.span = some s then call.amountUsd else 0) +
      spanAnonymous ⟨r, l.reserves.erase call⟩ s = l.spanAnonymous s :=
  List.sum_map_erase (fun call => if call.span = some s then call.amountUsd else 0) hc

theorem reconcile_committed {call : ReserveCall} (h : Committed b s cap cost l)
    (hc : call ∈ l.reserves) :
    Committed b s cap cost ⟨(Reservation.reconcile l.redis call.tenantId call.customerId
      call.amountUsd call.parentSpanId).1, l.reserves.erase call⟩ := by
  have hpos := h.positive call hc
  have hstep : (Reservation.reconcile l.redis call.tenantId call.customerId call.amountUsd
      call.parentSpanId).1 = (releaseHold l.redis call.budget call.span call.amountUsd).1 := by
    unfold Reservation.reconcile reconcileScript
    dsimp only
    rw [max_eq_right hpos.le, h.sameScope call hc, ← readKey_of_own h hc]
    rfl
  rw [hstep]
  have herase := fun j => anonymous_erase (l := l)
    (releaseHold l.redis call.budget call.span call.amountUsd).1 hc j
  have heraseSpan := spanAnonymous_erase (releaseHold l.redis call.budget call.span call.amountUsd).1
    hc s
  have hmine := amount_le_anonymous h.positive hc
  have hroom : call.amountUsd ≤ l.redis.held call.budget := by
    have hcov := h.covered call.budget
    have hrec := recorded_nonneg h.records call.budget
    linarith
  have hheld := (releaseHold_exact (r := l.redis) call.span hpos hroom).2
  have hspanHeld := releaseHold_spanHeld (r := l.redis) (b := call.budget) call.span s
    hpos hroom fun hs => by
      have hex := h.spanExact
      have hrec := spanRecorded_nonneg h.records s
      have hrest : 0 ≤ spanAnonymous ⟨l.redis, l.reserves.erase call⟩ s :=
        spanAnonymous_nonneg (fun x hx => h.positive x (List.mem_of_mem_erase hx)) s
      have hsum := spanAnonymous_erase l.redis hc s
      rw [if_pos hs] at hsum
      linarith
  obtain ⟨hrecorded, hspanRecorded⟩ := releaseHold_recorded l.redis call.budget call.span
    call.amountUsd
  have hres := (releaseHold_frame l.redis call.budget call.span call.amountUsd).1
  have hfixed := spansFixed_releaseHold l.redis call.budget call.span call.amountUsd
  have hbalances : ∀ j,
      ((releaseHold l.redis call.budget call.span call.amountUsd).1.budgets j).balanceUsd =
        (l.redis.budgets j).balanceUsd := by
    intro j
    rw [releaseHold_budgets]
  have hsym : ∀ j, (if j = call.budget then call.amountUsd else 0) =
      if call.budget = j then call.amountUsd else 0 := fun j => by simp [eq_comm]
  constructor
  case records =>
    intro rid record hget
    exact h.records rid record (hres ▸ hget)
  case positive => exact fun x hx => h.positive x (List.mem_of_mem_erase hx)
  case own => exact fun x hx => h.own x (List.mem_of_mem_erase hx)
  case sameScope =>
    intro x hx
    rw [h.sameScope x (List.mem_of_mem_erase hx)]
    exact (hfixed.scope_eq _ _).symm
  case granted =>
    intro x hx
    dsimp only
    rw [hbalances]
    exact h.granted x (List.mem_of_mem_erase hx)
  case opened =>
    intro rid record j hget hj
    dsimp only
    rw [hbalances]
    exact h.opened rid record j (hres ▸ hget) hj
  case covered =>
    intro j
    have hcov := h.covered j
    have hj := herase j
    dsimp only
    rw [hrecorded, hheld, hsym]
    linarith
  case exact =>
    have hex := h.exact
    have hj := herase b
    dsimp only
    rw [hrecorded, hheld, hsym]
    linarith
  case funded =>
    obtain ⟨balance, hbal, hle⟩ := h.funded
    refine ⟨balance, (hbalances b).trans hbal, ?_⟩
    dsimp only
    rw [hheld]
    split_ifs
    · linarith
    · linarith
  case spanExact =>
    have hex := h.spanExact
    dsimp only
    rw [hspanRecorded, hspanHeld]
    linarith
  case capped => exact (hfixed s).2.1.trans h.capped
  case spent =>
    dsimp only
    rw [(hfixed s).2.2]
    exact h.spent
  case within =>
    have hle := h.within
    dsimp only
    rw [hspanHeld]
    split_ifs
    · linarith
    · linarith

theorem Committed.of_frame {r : Redis} (h : Committed b s cap cost l)
    (hbud : r.budgets = l.redis.budgets) (hspans : r.spans = l.redis.spans)
    (hres : r.reservations = l.redis.reservations) :
    Committed b s cap cost { l with redis := r } := by
  refine h.of_shrunk ⟨⟨?_, fun j => ?_, ?_⟩, ⟨fun j => ?_, fun rid record hget => ?_⟩,
    SpansFixed.of_eq hspans, fun j => ?_, ?_⟩
  · intro rid record hget
    exact h.records rid record (hres ▸ hget)
  · have hj := (solid_of_committed h).budgets j
    unfold Redis.recorded Redis.held at hj ⊢
    rw [hbud, hres]
    exact hj
  · have hx := h.spanExact
    unfold Redis.spanRecorded Redis.spanHeld at hx ⊢
    rw [hspans, hres]
    exact hx
  · rw [hbud]
  · exact hres ▸ hget
  · unfold Redis.recorded; rw [hres]
  · unfold Redis.spanRecorded; rw [hres]

private theorem nothing_of_unconfigured (h : Committed b s cap cost l) {j : BudgetKey}
    (hj : (l.redis.budgets j).balanceUsd = none) :
    l.redis.recorded j = 0 ∧ l.anonymous j = 0 := by
  constructor
  case left =>
    apply recorded_of_none
    intro row hrow hkey
    have hget := (l.redis.reservations.get_eq_some_iff row.1 row.2).mpr hrow
    have hsome := h.opened row.1 row.2 j hget hkey
    rw [hj] at hsome
    simp at hsome
  case right =>
    unfold anonymous
    apply List.sum_eq_zero
    intro x hx
    obtain ⟨call, hc, rfl⟩ := List.mem_map.mp hx
    have hsome := h.granted call hc
    refine if_neg fun heq => ?_
    rw [heq, hj] at hsome
    simp at hsome

theorem held_nonneg (h : Committed b s cap cost l) (j : BudgetKey) : 0 ≤ l.redis.held j := by
  have hcov := h.covered j
  have hrec := recorded_nonneg h.records j
  have hanon := anonymous_nonneg h.positive j
  linarith

private theorem topUp_committed {t : Option String} {c : String} {amount newBalance : ℚ} {r : Redis}
    (h : Committed b s cap cost l) (hr : topUp l.redis t c amount = .ok (r, newBalance)) :
    Committed b s cap cost { l with redis := r } := by
  obtain ⟨hpos, row, rfl, hrow⟩ := topUp_cases hr
  set w := budgetPrefix (stripTenant t) c with hw
  have hbalances : ∀ j, (l.redis.budgets j).balanceUsd.isSome →
      ((l.redis.setBudget w (row.topUp amount)).budgets j).balanceUsd.isSome := by
    intro j hj
    by_cases hjw : j = w
    · rw [hjw, Redis.setBudget_self]; rfl
    · rw [Redis.setBudget_ne _ _ hjw]; exact hj
  have hother : ∀ j, j ≠ w → (l.redis.setBudget w (row.topUp amount)).held j = l.redis.held j := by
    intro j hj
    unfold Redis.held
    rw [Redis.setBudget_ne _ _ hj]
  have hmine : (l.redis.setBudget w (row.topUp amount)).held w = number row.heldUsd := by
    unfold Redis.held
    rw [Redis.setBudget_self]
    rfl
  obtain ⟨balance, hbal, hle⟩ := h.funded
  have hb : b = w → row = l.redis.budgets b := by
    rintro rfl
    rcases hrow with hown | ⟨hnone, -⟩
    · exact hown
    · rw [hnone] at hbal
      simp at hbal
  have hheldb : (l.redis.setBudget w (row.topUp amount)).held b = l.redis.held b := by
    by_cases hbw : b = w
    · rw [hbw, hmine, hb hbw, hbw]
      rfl
    · exact hother b hbw
  constructor
  case records => exact h.records
  case positive => exact h.positive
  case own => exact h.own
  case sameScope => exact h.sameScope
  case granted => exact fun call hc => hbalances _ (h.granted call hc)
  case opened => exact fun rid record j hget hj => hbalances _ (h.opened rid record j hget hj)
  case covered =>
    intro j
    change l.redis.recorded j + l.anonymous j ≤ _
    by_cases hjw : j = w
    · rw [hjw, hmine]
      rcases hrow with hown | ⟨hnone, hcopy⟩
      · rw [hown]
        exact h.covered w
      · -- the copied hold is one of two that are not negative, and nothing is open on `w` yet
        obtain ⟨hrec, hanon⟩ := nothing_of_unconfigured h hnone
        have hlegacy := held_nonneg h (budgetPrefixForRead l.redis (stripTenant t) c)
        have hown := held_nonneg h w
        rw [hrec, hanon, add_zero, hcopy]
        unfold Redis.held at hlegacy hown
        unfold migrate
        cases hheld : (l.redis.budgets (budgetPrefixForRead l.redis (stripTenant t) c)).heldUsd with
        | none => exact hown
        | some v =>
          rw [hheld] at hlegacy
          exact hlegacy
    · rw [hother j hjw]
      exact h.covered j
  case exact =>
    have hex := h.exact
    dsimp only
    rw [hheldb]
    exact hex
  case funded =>
    by_cases hbw : b = w
    · refine ⟨balance + amount, ?_, ?_⟩
      · dsimp only
        rw [hbw, Redis.setBudget_self, hb hbw]
        simp [BudgetRow.topUp, incrByFloat, hbal]
      · dsimp only
        rw [hheldb]
        linarith
    · refine ⟨balance, ?_, ?_⟩
      · dsimp only
        rw [Redis.setBudget_ne _ _ hbw]
        exact hbal
      · dsimp only
        rw [hheldb]
        exact hle
  case spanExact => exact h.spanExact
  case capped => exact h.capped
  case spent => exact h.spent
  case within => exact h.within

theorem step_committed {op : LedgerOp} (h : Committed b s cap cost l) (hok : l.Admits op)
    (hstep : l.step op = some l') : Committed b s cap cost l' := by
  cases op with
  | configure t c balance alert rpm => exact hok.elim
  | window k a => exact hok.elim
  | topUp t c amount =>
    unfold step at hstep
    dsimp only at hstep
    split at hstep
    · rw [← Option.some.inj hstep]; exact h
    next r newBalance hr =>
      rw [← Option.some.inj hstep]
      exact topUp_committed h hr
  | openHold t rid c estimate parent expiresAt clock =>
    rw [← Option.some.inj hstep]
    exact openHold_committed h _ _ _ _ _ _ _
  | reserve t c estimate parent =>
    unfold step at hstep
    dsimp only at hstep
    split_ifs at hstep with hreply
    · rw [← Option.some.inj hstep]
      exact reserve_committed h hok hreply
    · rw [← Option.some.inj hstep, reserve_refused hreply]
      exact h
  | reconcile call =>
    unfold step at hstep
    dsimp only at hstep
    split_ifs at hstep with hc
    rw [← Option.some.inj hstep]
    exact reconcile_committed h hc
  | refresh rid expiresAt clock =>
    rw [← Option.some.inj hstep]
    unfold Reservation.refresh
    split
    · exact h
    · exact h.of_frame rfl rfl rfl
  | settle rid =>
    rw [← Option.some.inj hstep]
    exact settle_committed h rid
  | expireDue cutoff =>
    rw [← Option.some.inj hstep]
    exact expireDue_committed h cutoff
  | attach rid w =>
    rw [← Option.some.inj hstep]
    exact h.of_frame rfl rfl rfl

/-- No holds yet on the configured budget `b` and on the span `s` with the cap `cap`. -/
structure NoHolds (b : BudgetKey) (s : SpanKey) (cap : ℚ) (l : Ledger) : Prop where
  noRecords : l.redis.reservations = .empty
  noReserves : l.reserves = []
  configured : ∃ balance, (l.redis.budgets b).balanceUsd = some balance ∧ 0 ≤ balance
  noHold : l.redis.held b = 0
  holdsNonneg : ∀ j, 0 ≤ l.redis.held j
  noSpanHold : l.redis.spanHeld s = 0
  capped : (l.redis.spans s).maxCostUsd = some cap

theorem committed_of_noHolds (h : l.NoHolds b s cap) :
    Committed b s cap (number (l.redis.spans s).costUsd) l := by
  have hno := h.noReserves
  constructor
  case records => intro rid record hget; simp [h.noRecords] at hget
  case positive => intro call hc; simp [hno] at hc
  case own => intro call hc; simp [hno] at hc
  case sameScope => intro call hc; simp [hno] at hc
  case granted => intro call hc; simp [hno] at hc
  case opened => intro rid record j hget; simp [h.noRecords] at hget
  case covered =>
    intro j
    simpa [anonymous, Redis.recorded, h.noRecords, hno] using h.holdsNonneg j
  case exact => simp [anonymous, Redis.recorded, h.noRecords, hno, h.noHold]
  case funded =>
    obtain ⟨balance, hbal, hle⟩ := h.configured
    exact ⟨balance, hbal, h.noHold.le.trans hle⟩
  case spanExact => simp [spanAnonymous, Redis.spanRecorded, h.noRecords, hno, h.noSpanHold]
  case capped => exact h.capped
  case spent => rfl
  case within =>
    rw [h.noSpanHold, add_zero]
    exact le_max_right _ _

/-- The limits that admission enforces on the budget `b` and on the span `s`. -/
structure WithinLimits (b : BudgetKey) (s : SpanKey) (cap cost : ℚ) (l : Ledger) : Prop where
  held_eq : l.redis.held b = l.redis.recorded b + l.anonymous b
  held_nonneg : 0 ≤ l.redis.held b
  held_le : ∃ balance, (l.redis.budgets b).balanceUsd = some balance ∧ l.redis.held b ≤ balance
  spanHeld_eq : l.redis.spanHeld s = l.redis.spanRecorded s + l.spanAnonymous s
  cap_eq : (l.redis.spans s).maxCostUsd = some cap ∧ number (l.redis.spans s).costUsd = cost
  within_cap : cost ≤ cap → cost + l.redis.spanHeld s ≤ cap
  over_cap : cap < cost → l.redis.spanHeld s = 0

private theorem withinLimits_of_committed (h : Committed b s cap cost l) :
    WithinLimits b s cap cost l := by
  have hrecorded := recorded_nonneg h.records b
  have hanon := anonymous_nonneg h.positive b
  have hspanRecorded := spanRecorded_nonneg h.records s
  have hspanAnon := spanAnonymous_nonneg h.positive s
  have hexact := h.exact
  have hspan := h.spanExact
  have hwithin := h.within
  constructor
  case held_eq => exact hexact.symm
  case held_nonneg => linarith
  case held_le => exact h.funded
  case spanHeld_eq => exact hspan.symm
  case cap_eq => exact ⟨h.capped, h.spent⟩
  case within_cap =>
    intro hle
    rwa [max_eq_left hle] at hwithin
  case over_cap =>
    intro hlt
    rw [max_eq_right hlt.le] at hwithin
    linarith

/-- Over every run of admissions, releases and top-ups from a state without holds, the holds of
`b` and `s` are exactly the open ones, stay within the balance and the cap, and a refused open
or reserve changes nothing. -/
theorem admission_within_limits {ops : List LedgerOp} (hstart : l.NoHolds b s cap)
    (hok : Guarded step Admits l ops) (hrun : run step l ops = some l') :
    WithinLimits b s cap (number (l.redis.spans s).costUsd) l' ∧
      (∀ t rid c estimate parent expiresAt clock,
        (Reservation.openHold l'.redis t rid c estimate parent expiresAt clock).2.isOpened = false →
        (Reservation.openHold l'.redis t rid c estimate parent expiresAt clock).1 = l'.redis) ∧
      ∀ t c estimate parent,
        (Reservation.reserve l'.redis t c estimate parent).2.isReserved = false →
        (Reservation.reserve l'.redis t c estimate parent).1 = l'.redis := by
  have hcommitted : Committed b s cap (number (l.redis.spans s).costUsd) l' := guarded_invariant
    (fun _ _ _ hinv hadmits hs => step_committed hinv hadmits hs) (committed_of_noHolds hstart)
    hok hrun
  refine ⟨withinLimits_of_committed hcommitted, ?_, ?_⟩
  · intro t rid c estimate parent expiresAt clock hno
    exact openHold_refused hno
  · intro t c estimate parent hno
    exact reserve_refused (by simp [hno])

/-- A configured budget and a span with a cap and a cost, before the first hold. -/
def cappedStart (b : BudgetKey) (s : SpanKey) (cap cost : ℚ) : Ledger where
  redis := (({} : Redis).setBudget b { balanceUsd := some 10, heldUsd := some 0 }).setSpan s
    { maxCostUsd := some cap, costUsd := some cost }

theorem cappedStart_noHolds (b : BudgetKey) (s : SpanKey) (cap cost : ℚ) :
    NoHolds b s cap (cappedStart b s cap cost) := by
  have hbudget : (cappedStart b s cap cost).redis.budgets b =
      { balanceUsd := some 10, heldUsd := some 0 } := Redis.setBudget_self {} b _
  have hspan : (cappedStart b s cap cost).redis.spans s =
      { maxCostUsd := some cap, costUsd := some cost } := Function.update_self _ _ _
  constructor
  case noRecords => rfl
  case noReserves => rfl
  case configured => exact ⟨10, by rw [hbudget], by norm_num⟩
  case noHold => unfold Redis.held; rw [hbudget, number_some]
  case holdsNonneg =>
    intro j
    unfold Redis.held
    by_cases hj : j = b
    · rw [hj, hbudget, number_some]
    · have hother : (cappedStart b s cap cost).redis.budgets j = {} := Redis.setBudget_ne {} _ hj
      rw [hother, number_none]
  case noSpanHold => unfold Redis.spanHeld; rw [hspan, number_none]
  case capped => rw [hspan]

theorem admission_within_limits_capped :
    ∃ l', run step (cappedStart ⟨some "t", "acme"⟩ ⟨some "t", "s"⟩ 5 1)
        [.openHold (some "t") "r1" "acme" 3 (some "s") none 0,
          .reserve (some "t") "acme" 1 (some "s"), .topUp (some "t") "acme" 2,
          .reconcile ⟨some "t", "acme", some "s", 1, ⟨some "t", "acme"⟩, some ⟨some "t", "s"⟩⟩,
          .expireDue 100] = some l' ∧
      WithinLimits ⟨some "t", "acme"⟩ ⟨some "t", "s"⟩ 5 1 l' := by
  refine ⟨_, (Option.some_get (by decide +kernel)).symm, ?_⟩
  exact (admission_within_limits (l := cappedStart ⟨some "t", "acme"⟩ ⟨some "t", "s"⟩ 5 1)
    (cappedStart_noHolds _ _ _ _) (by decide +kernel)
    (Option.some_get (by decide +kernel)).symm).1

/-- A cap below the cost a span already has is exceeded before the first hold. -/
theorem admission_over_cap :
    NoHolds ⟨none, "acme"⟩ ⟨none, "s"⟩ 3 (cappedStart ⟨none, "acme"⟩ ⟨none, "s"⟩ 3 5) ∧
    ∃ l', run step (cappedStart ⟨none, "acme"⟩ ⟨none, "s"⟩ 3 5) [] = some l' ∧
      ¬ number (l'.redis.spans ⟨none, "s"⟩).costUsd + l'.redis.spanHeld ⟨none, "s"⟩ ≤ 3 :=
  ⟨cappedStart_noHolds _ _ _ _, _, rfl, by decide +kernel⟩

end Ledger

end FluxMeter.Budget