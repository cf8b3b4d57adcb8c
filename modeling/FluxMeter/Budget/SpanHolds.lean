import FluxMeter.Budget.Closers
import FluxMeter.Budget.Commitment
import FluxMeter.Budget.Enforcement

/-! The hold counter of a span against the open holds that were added to it. Admission adds a hold
only to a span that has a cap then; a release lowers the span of the record or of the request. -/
namespace FluxMeter.Budget
open Collections FluxMeter.Keys Transition

/-- `POST /budget/{customer_id}/cap` for a span; `none` is the refusal of a negative cap. -/
def setHierarchyCap (r : Redis) (tenantId : Option String) (spanId : String) (maxCostUsd : ℚ) :
    Option Redis :=
  if maxCostUsd < 0 then none
  else
    let key := spanPrefix tenantId spanId
    some (r.setSpan key { r.spans key with maxCostUsd := some maxCostUsd })

/-- The span whose counter an admission raises. -/
def chargedSpan (r : Redis) (span : Option SpanKey) : Option SpanKey :=
  span.filter fun s => (r.spans s).maxCostUsd.isSome

/-- The ledger, and as a record of the run the span that each reservation was added to. The span of
an outstanding reserve is the one it was added to. -/
structure SpanLedger extends Ledger where
  charged : String → Option SpanKey := fun _ => none

inductive SpanOp
  | openHold (tenantId : Option String) (reservationId customerId : String) (estimate : ℚ)
      (parentSpanId : Option String) (expiresAt : Option ℚ) (clock : ℚ)
  | reserve (tenantId : Option String) (customerId : String) (estimate : ℚ)
      (parentSpanId : Option String)
  | reconcile (call : ReserveCall)
  | settle (reservationId : String)
  | expireDue (cutoff : ℚ)
  | attach (reservationId windowId : String)
  | window (k : SinkKeys) (a : SinkArgs)
  | setCap (tenantId : Option String) (spanId : String) (maxCostUsd : ℚ)

/-- The amount of a record that was added to the span `s`. -/
def heldOn (s : SpanKey) (charged : String → Option SpanKey) (reservationId : String)
    (record : ReservationRecord) : ℚ :=
  if charged reservationId = some s then record.reservedUsd else 0

namespace SpanLedger

def openHold (l : SpanLedger) (t : Option String) (rid c : String) (estimate : ℚ)
    (parent : Option String) (expiresAt : Option ℚ) (clock : ℚ) : SpanLedger :=
  let (r, reply) := Reservation.openHold l.redis t rid c estimate parent expiresAt clock
  let span := chargedSpan l.redis (Reservation.scope l.redis (stripTenant t) parent)
  if reply.isOpened then { l with redis := r, charged := Function.update l.charged rid span }
  else { l with redis := r }

def reserve (l : SpanLedger) (t : Option String) (c : String) (estimate : ℚ)
    (parent : Option String) : SpanLedger :=
  let (r, reply) := Reservation.reserve l.redis t c estimate parent
  let span := chargedSpan l.redis (Reservation.scope l.redis (stripTenant t) parent)
  if reply.isReserved then
    { l with
      redis := r
      reserves := ⟨t, c, parent, estimate, Ledger.readKey l.redis t c, span⟩ :: l.reserves }
  else { l with redis := r }

/-- A reconcile must name an outstanding reserve. -/
def step (l : SpanLedger) : SpanOp → Option SpanLedger
  | .openHold t rid c estimate parent expiresAt clock =>
    some (l.openHold t rid c estimate parent expiresAt clock)
  | .reserve t c estimate parent => some (l.reserve t c estimate parent)
  | .reconcile call =>
    if call ∈ l.reserves then
      some { l with
        redis := (Reservation.reconcile l.redis call.tenantId call.customerId call.amountUsd
          call.parentSpanId).1
        reserves := l.reserves.erase call }
    else none
  | .settle rid => some { l with redis := (Reservation.settle l.redis rid).1 }
  | .expireDue cutoff => some { l with redis := (Reservation.expireDue l.redis cutoff).1 }
  | .attach rid w => some { l with redis := attachReservation l.redis rid w }
  | .window k a => some { l with redis := (sinkScript l.redis k a).1 }
  | .setCap t spanId cap => some { l with redis := (setHierarchyCap l.redis t spanId cap).getD l.redis }

/-- The amounts of the open holds that were added to the span. -/
def openOn (l : SpanLedger) (s : SpanKey) : ℚ :=
  l.redis.reservations.weight (heldOn s l.charged) + l.toLedger.spanAnonymous s

/-- A record may be closed when its hold was added to the span it names, or that span holds
nothing. -/
def Tallied (l : SpanLedger) (rid : String) (record : ReservationRecord) : Prop :=
  record.spanHeldKey = l.charged rid ∨
    ∀ s, record.spanHeldKey = some s → l.redis.spanHeld s = 0

/-- Every hold that the step closes was added to the span from which it is released (or nothing is
held there), and a window settles reservations of its own budget. -/
def Traced (l : SpanLedger) : SpanOp → Prop
  | .reconcile call =>
    let span := Reservation.scope l.redis (stripTenant call.tenantId) call.parentSpanId
    span = call.span ∨ call.span = none ∧ ∀ s, span = some s → l.redis.spanHeld s = 0
  | .settle rid =>
    ∀ record, l.redis.reservations.get rid = some record → l.Tallied rid record
  | .expireDue cutoff => ∀ rid ∈ Reservation.due l.redis cutoff,
    ∀ record, l.redis.reservations.get rid = some record → l.Tallied rid record
  | .window k _ => l.redis.applied k.windowId = false →
    ∀ rid ∈ l.redis.windowReservations k.windowId,
      ∀ record, l.redis.reservations.get rid = some record →
        record.heldKey = some k.budget ∧ l.Tallied rid record
  | _ => True

/-- The hold counters of the budgets cover the open holds, and those of the spans are the open
holds that were added to them. -/
structure Sound (l : SpanLedger) : Prop where
  records : ∀ rid record, l.redis.reservations.get rid = some record → OpenRecord record
  named : ∀ rid record s, l.redis.reservations.get rid = some record → l.charged rid = some s →
    record.spanHeldKey = some s
  positive : ∀ call ∈ l.reserves, 0 < call.amountUsd
  own : ∀ call ∈ l.reserves, Ledger.readKey l.redis call.tenantId call.customerId = call.budget
  covered : ∀ b, l.redis.recorded b + l.toLedger.anonymous b ≤ l.redis.held b
  exact : ∀ s, l.redis.spanHeld s = l.openOn s

variable {l l' : SpanLedger}

theorem Sound.recordsOpened (h : Sound l) : l.redis.RecordsOpened := fun rid record hget => by
  obtain ⟨hkey, hpos, -⟩ := h.records rid record hget
  exact ⟨Option.isSome_iff_exists.mp hkey, hpos⟩

theorem heldOn_nonneg (h : Sound l) {rid : String} {record : ReservationRecord}
    (hget : l.redis.reservations.get rid = some record) (s : SpanKey) :
    0 ≤ heldOn s l.charged rid record := by
  have hpos := (h.records rid record hget).2.1
  unfold heldOn
  split_ifs
  · exact hpos.le
  · exact le_rfl

theorem heldOn_le_spanHeld (h : Sound l) {rid : String} {record : ReservationRecord}
    (hget : l.redis.reservations.get rid = some record) (s : SpanKey) :
    heldOn s l.charged rid record ≤ l.redis.spanHeld s := by
  have hsplit := l.redis.reservations.weight_erase_add (heldOn s l.charged) hget
  have hrest : 0 ≤ (l.redis.reservations.erase rid).weight (heldOn s l.charged) := by
    apply Table.weight_nonneg
    intro k v hk
    rw [Table.get_erase] at hk
    split_ifs at hk
    exact heldOn_nonneg h hk s
  have hanon := Ledger.spanAnonymous_nonneg h.positive s
  have hexact := h.exact s
  unfold openOn at hexact
  linarith

theorem readKey_of_present {r r' : Redis}
    (h : ∀ b, (r'.budgets b).present = (r.budgets b).present) (t : Option String) (c : String) :
    Ledger.readKey r' t c = Ledger.readKey r t c := by
  unfold Ledger.readKey budgetPrefixForRead
  dsimp only
  rw [h, h]

theorem releaseHold_present (r : Redis) (b : BudgetKey) (span : Option SpanKey) (q : ℚ)
    (j : BudgetKey) :
    ((releaseHold r b span q).1.budgets j).present = (r.budgets j).present := by
  unfold BudgetRow.present
  rw [releaseHold_heldUsd_isSome, releaseHold_budgets]

theorem Sound.of_frame {r : Redis} (h : Sound l) (hres : r.reservations = l.redis.reservations)
    (hpresent : ∀ b, (r.budgets b).present = (l.redis.budgets b).present)
    (hheld : ∀ b, r.held b = l.redis.held b) (hspan : ∀ s, r.spanHeld s = l.redis.spanHeld s) :
    Sound { l with redis := r } where
  records rid record hget := h.records rid record (hres ▸ hget)
  named rid record s hget := h.named rid record s (hres ▸ hget)
  positive := h.positive
  own call hc := (readKey_of_present hpresent _ _).trans (h.own call hc)
  covered b := by
    have hcov := h.covered b
    rw [← hheld b] at hcov
    unfold Redis.recorded at hcov ⊢
    dsimp only
    rw [hres]
    exact hcov
  exact s := by
    have hexact := h.exact s
    rw [← hspan s] at hexact
    unfold openOn at hexact ⊢
    dsimp only
    rw [hres]
    exact hexact

/-! ### Releases -/

theorem reserved_le_held (h : Sound l) {rid : String} {record : ReservationRecord} {b : BudgetKey}
    (hget : l.redis.reservations.get rid = some record) (hkey : record.heldKey = some b) :
    record.reservedUsd ≤ l.redis.held b := by
  have hmine := reserved_le_recorded h.recordsOpened hget hkey
  have hanon := Ledger.anonymous_nonneg h.positive b
  have hcov := h.covered b
  linarith

/-- A tallied record gives back to every span what was added for it. -/
theorem release_spanHeld (h : Sound l) {rid : String} {record : ReservationRecord} {b : BudgetKey}
    (hget : l.redis.reservations.get rid = some record) (hkey : record.heldKey = some b)
    (ht : l.Tallied rid record) (s : SpanKey) :
    (releaseHold l.redis b record.spanHeldKey record.reservedUsd).1.spanHeld s =
      l.redis.spanHeld s - heldOn s l.charged rid record := by
  have hpos := (h.records rid record hget).2.1
  have hle := reserved_le_held h hget hkey
  have hpart := heldOn_le_spanHeld h hget s
  rcases ht with hown | hzero
  · have hspan : record.spanHeldKey = some s → record.reservedUsd ≤ l.redis.spanHeld s := by
      intro hs
      unfold heldOn at hpart
      rwa [← hown, if_pos hs] at hpart
    rw [releaseHold_spanHeld _ s hpos hle hspan, hown]
    rfl
  · by_cases hs : record.spanHeldKey = some s
    · have hpart' := heldOn_nonneg h hget s
      have hnone := hzero s hs
      have hkept : (releaseHold l.redis b record.spanHeldKey record.reservedUsd).1.spanHeld s = 0 :=
        releaseHold_spanHeld_of_zero hnone
      linarith
    · have hnot : l.charged rid ≠ some s := fun hc => hs (h.named rid record s hget hc)
      rw [releaseHold_spanHeld _ s hpos hle fun hs' => absurd hs' hs, if_neg hs]
      unfold heldOn
      rw [if_neg hnot]

theorem Sound.release (h : Sound l) {rid : String} {record : ReservationRecord} {b : BudgetKey}
    (hget : l.redis.reservations.get rid = some record) (hkey : record.heldKey = some b)
    (ht : l.Tallied rid record) :
    Sound { l with
      redis := dropReservation
        (releaseHold l.redis b record.spanHeldKey record.reservedUsd).1 rid } := by
  have hpos := (h.records rid record hget).2.1
  have hspan := release_spanHeld h hget hkey ht
  obtain ⟨-, hheld⟩ := releaseHold_exact record.spanHeldKey hpos (reserved_le_held h hget hkey)
  set r := (releaseHold l.redis b record.spanHeldKey record.reservedUsd).1 with hr
  have hres : r.reservations = l.redis.reservations := (releaseHold_frame _ _ _ _).1
  have hget' : r.reservations.get rid = some record := by rw [hres]; exact hget
  constructor
  case records =>
    intro k v hk
    exact h.records k v (hres ▸ dropReservation_get r rid hk)
  case named =>
    intro k v s hk
    exact h.named k v s (hres ▸ dropReservation_get r rid hk)
  case positive => exact h.positive
  case own =>
    intro call hc
    have hpresent : ∀ j, (r.budgets j).present = (l.redis.budgets j).present :=
      releaseHold_present l.redis b record.spanHeldKey record.reservedUsd
    exact (readKey_of_present hpresent _ _).trans (h.own call hc)
  case covered =>
    intro j
    have hcov := h.covered j
    have hdrop := dropReservation_recorded hget' j
    have hrecorded : r.recorded j = l.redis.recorded j := by
      unfold Redis.recorded
      rw [hres]
    have hown : recordHold j record = if j = b then record.reservedUsd else 0 := by
      unfold recordHold
      rw [hkey]
      simp only [Option.some.injEq, eq_comm]
    have hj := hheld j
    rw [← hown] at hj
    show (dropReservation r rid).recorded j + l.toLedger.anonymous j ≤ r.held j
    linarith
  case exact =>
    intro s
    have hexact := h.exact s
    have hdrop := l.redis.reservations.weight_erase_add (heldOn s l.charged) hget
    have hs := hspan s
    have hweight : (dropReservation r rid).reservations = l.redis.reservations.erase rid := by
      unfold dropReservation
      rw [hres]
    unfold openOn at hexact ⊢
    dsimp only
    rw [hweight]
    show r.spanHeld s = (l.redis.reservations.erase rid).weight (heldOn s l.charged) +
      l.toLedger.spanAnonymous s
    linarith

/-! ### Closing one and closing many -/

/-- What a sweep of closings has done to the store so far. -/
structure Swept (l : SpanLedger) (r : Redis) : Prop where
  sound : Sound { l with redis := r }
  kept : ∀ rid record, r.reservations.get rid = some record →
    l.redis.reservations.get rid = some record
  zero : ∀ s, l.redis.spanHeld s = 0 → r.spanHeld s = 0

theorem swept_refl (h : Sound l) : Swept l l.redis := ⟨h, fun _ _ hget => hget, fun _ hs => hs⟩

theorem Swept.tallied {r : Redis} (h : Swept l r) {rid : String} {record : ReservationRecord}
    (ht : l.Tallied rid record) : Tallied { l with redis := r } rid record :=
  ht.imp id fun hzero s hs => h.zero s (hzero s hs)

theorem Swept.release {r : Redis} (h : Swept l r) {rid : String} {record : ReservationRecord}
    {b : BudgetKey} (hget : r.reservations.get rid = some record)
    (hkey : record.heldKey = some b) (ht : l.Tallied rid record) :
    Swept l (dropReservation (releaseHold r b record.spanHeldKey record.reservedUsd).1 rid) where
  sound := h.sound.release hget hkey (h.tallied ht)
  kept k v hk := by
    have hres := (releaseHold_frame r b record.spanHeldKey record.reservedUsd).1
    have hk' := dropReservation_get _ rid hk
    rw [hres] at hk'
    exact h.kept k v hk'
  zero s hs := releaseHold_spanHeld_of_zero (h.zero s hs)

theorem Swept.of_frame {r r' : Redis} (h : Swept l r) (hres : r'.reservations = r.reservations)
    (hpresent : ∀ b, (r'.budgets b).present = (r.budgets b).present)
    (hheld : ∀ b, r'.held b = r.held b) (hspan : ∀ s, r'.spanHeld s = r.spanHeld s) :
    Swept l r' where
  sound := h.sound.of_frame hres hpresent hheld hspan
  kept k v hk := h.kept k v (hres ▸ hk)
  zero s hs := (hspan s).trans (h.zero s hs)

theorem Swept.of_sameReservations {r r' : Redis} (h : Swept l r) (hsame : SameReservations r r') :
    Swept l r' := by
  refine h.of_frame hsame.reservations (fun b => ?_) (fun b => ?_) fun s => ?_
  · unfold BudgetRow.present
    rw [hsame.present, hsame.heldUsd]
  · unfold Redis.held
    rw [hsame.heldUsd]
  · unfold Redis.spanHeld
    rw [hsame.spans]

theorem Swept.close {r : Redis} (h : Swept l r) {rid : String}
    (ht : ∀ record, l.redis.reservations.get rid = some record → l.Tallied rid record) :
    Swept l (Reservation.close r rid).1 := by
  cases hget : r.reservations.get rid with
  | none =>
    exact h.of_sameReservations (close_missing hget)
  | some record =>
    obtain ⟨b, hkey⟩ := Option.isSome_iff_exists.mp (h.sound.records rid record hget).1
    rw [close_of_some hget hkey]
    exact h.release hget hkey (ht record (h.kept rid record hget))

theorem Swept.settleOne {r : Redis} (h : Swept l r) {rid : String} {b : BudgetKey}
    (ht : ∀ record, l.redis.reservations.get rid = some record →
      record.heldKey = some b ∧ l.Tallied rid record) :
    Swept l (settleOne b r rid) := by
  cases hget : r.reservations.get rid with
  | none =>
    exact h.of_sameReservations (settleOne_missing b hget)
  | some record =>
    obtain ⟨hkey, htallied⟩ := ht record (h.kept rid record hget)
    rw [settleOne_of_some b hget, (h.sound.records rid record hget).2.2]
    exact h.release hget hkey htallied

theorem expireDue_sound (h : Sound l) (cutoff : ℚ) (ht : l.Traced (.expireDue cutoff)) :
    Sound { l with redis := (Reservation.expireDue l.redis cutoff).1 } := by
  have hswept : Swept l (Reservation.expireDue l.redis cutoff).1 := by
    rw [expireDue_fst]
    exact List.foldlRecOn _ _ (swept_refl h) fun r hr rid hrid => hr.close (ht rid hrid)
  exact hswept.sound

theorem window_sound (h : Sound l) (k : SinkKeys) (a : SinkArgs) (ht : l.Traced (.window k a)) :
    Sound { l with redis := (sinkScript l.redis k a).1 } := by
  have hswept : Swept l (sinkScript l.redis k a).1 :=
    sinkScript_preserves a (fun _ _ hsame hr => hr.of_sameReservations hsame)
      (fun hfresh rid hrid _ hr => hr.settleOne (ht hfresh rid hrid)) (swept_refl h)
  exact hswept.sound

/-! ### Admissions -/

/-- An admission adds the estimate to the span that has a cap, and to no other. -/
theorem admitSpan_charged {r r₁ : Redis} {span : Option SpanKey} {estimate spanHeld spanSpent : ℚ}
    (h : admitSpan r span estimate = .ok (r₁, spanHeld, spanSpent)) (s : SpanKey) :
    r₁.spanHeld s = r.spanHeld s + if chargedSpan r span = some s then estimate else 0 := by
  rcases admitSpan_ok h with ⟨rfl, hno⟩ | ⟨t, cap, rfl, hcap, -, rfl⟩
  · have hnot : chargedSpan r₁ span ≠ some s := by
      intro hs
      obtain ⟨hspan, hsome⟩ := Option.filter_eq_some_iff.mp hs
      rw [hno s hspan] at hsome
      cases hsome
    rw [if_neg hnot, add_zero]
  · have hcharged : chargedSpan r (some t) = some t := by
      unfold chargedSpan
      rw [Option.filter_some, hcap]
      rfl
    rw [hcharged, Redis.spanHeld_incrSpanHeld]
    simp only [Option.some.injEq, eq_comm]

theorem incrHeld_present {r : Redis} {b : BudgetKey} {balance : ℚ}
    (hbalance : (r.budgets b).balanceUsd = some balance) (q : ℚ) (j : BudgetKey) :
    ((r.incrHeld b q).budgets j).present = (r.budgets j).present := by
  unfold Redis.incrHeld
  by_cases hj : j = b
  · rw [hj, Redis.setBudget_self]
    unfold BudgetRow.present
    rw [hbalance]
    rfl
  · rw [Redis.setBudget_ne _ _ hj]

theorem openHold_sound (h : Sound l) (t : Option String) (rid c : String) (estimate : ℚ)
    (parent : Option String) (expiresAt : Option ℚ) (clock : ℚ) :
    Sound (l.openHold t rid c estimate parent expiresAt clock) := by
  unfold openHold Reservation.openHold
  by_cases hpos : estimate ≤ 0
  · rw [if_pos hpos]
    exact h
  rw [if_neg hpos]
  dsimp only
  set budget := budgetPrefixForRead l.redis (stripTenant t) c
  set span := Reservation.scope l.redis (stripTenant t) parent with hspan
  rcases openScript_cases l.redis budget span
    ⟨rid, c, (stripTenant t).getD "", parent.getD "", estimate, expiresAt.getD (clock + 900)⟩
    with ⟨hno, hsame⟩ | ⟨balance, r₁, spanHeld, spanSpent, hyes, hnone, hbalance, -, hadmit, heq⟩
  · rw [hno, hsame]
    exact h
  rw [hyes, if_pos rfl, heq]
  obtain ⟨hbud, hres, -, -, -⟩ := admitSpan_frame hadmit
  have hcharged := admitSpan_charged hadmit
  have hother : ∀ k v s, l.redis.reservations.get k = some v →
      heldOn s (Function.update l.charged rid (chargedSpan l.redis span)) k v =
        heldOn s l.charged k v := by
    intro k v s hk
    have hne : k ≠ rid := by
      rintro rfl
      rw [hnone] at hk
      cases hk
    unfold heldOn
    rw [Function.update_of_ne hne]
  constructor
  case records =>
    intro k record hk
    dsimp only at hk
    rw [Table.get_set, hres] at hk
    split_ifs at hk with hkey
    · rw [← Option.some.inj hk]
      exact openRecord_record (not_le.mp hpos) rfl
    · exact h.records k record hk
  case named =>
    intro k record s hk hs
    dsimp only at hk hs
    rw [Table.get_set, hres] at hk
    split_ifs at hk with hkey
    · rw [hkey, Function.update_self] at hs
      rw [← Option.some.inj hk]
      exact (Option.filter_eq_some_iff.mp hs).1
    · rw [Function.update_of_ne hkey] at hs
      exact h.named k record s hk hs
  case positive => exact h.positive
  case own =>
    intro call hc
    refine (readKey_of_present (fun b => ?_) _ _).trans (h.own call hc)
    have hbalance' : (r₁.budgets budget).balanceUsd = some balance := by rw [hbud]; exact hbalance
    have hpresent := incrHeld_present hbalance' estimate b
    rw [hbud] at hpresent
    exact hpresent
  case covered =>
    intro b
    have hcov := h.covered b
    have hheld := admitted_held hadmit b budget estimate
    have hweight := l.redis.reservations.weight_set_of_none
      (OpenArgs.record ⟨rid, c, (stripTenant t).getD "", parent.getD "", estimate,
        expiresAt.getD (clock + 900)⟩ budget span) (fun _ => recordHold b) hnone
    have hown : recordHold b (OpenArgs.record ⟨rid, c, (stripTenant t).getD "", parent.getD "",
        estimate, expiresAt.getD (clock + 900)⟩ budget span) =
        if b = budget then estimate else 0 := by
      unfold recordHold OpenArgs.record
      simp only [Option.some.injEq, eq_comm]
    rw [hown] at hweight
    unfold Redis.recorded at hcov ⊢
    dsimp only
    rw [hres, hweight]
    show _ ≤ (r₁.incrHeld budget estimate).held b
    rw [hheld]
    show _ + _ + l.toLedger.anonymous b ≤ _
    linarith
  case exact =>
    intro s
    have hexact := h.exact s
    have hweight := l.redis.reservations.weight_set_of_none
      (OpenArgs.record ⟨rid, c, (stripTenant t).getD "", parent.getD "", estimate,
        expiresAt.getD (clock + 900)⟩ budget span)
      (heldOn s (Function.update l.charged rid (chargedSpan l.redis span))) hnone
    have hold := l.redis.reservations.weight_congr fun k v hk => hother k v s hk
    have hown : heldOn s (Function.update l.charged rid (chargedSpan l.redis span)) rid
        (OpenArgs.record ⟨rid, c, (stripTenant t).getD "", parent.getD "", estimate,
          expiresAt.getD (clock + 900)⟩ budget span) =
        if chargedSpan l.redis span = some s then estimate else 0 := by
      unfold heldOn
      rw [Function.update_self]
      rfl
    have hs := hcharged s
    unfold openOn at hexact ⊢
    dsimp only
    rw [hres, hweight, hold, hown]
    show r₁.spanHeld s = _ + _ + l.toLedger.spanAnonymous s
    linarith

theorem reserve_sound (h : Sound l) (t : Option String) (c : String) (estimate : ℚ)
    (parent : Option String) : Sound (l.reserve t c estimate parent) := by
  unfold reserve Reservation.reserve
  by_cases hpos : estimate ≤ 0
  · rw [if_pos hpos]
    exact h
  rw [if_neg hpos]
  dsimp only
  set budget := budgetPrefixForRead l.redis (stripTenant t) c with hbudget
  set span := Reservation.scope l.redis (stripTenant t) parent
  rcases reserveScript_cases l.redis budget span estimate with ⟨hno, hsame⟩ |
    ⟨balance, r₁, spanHeld, spanSpent, hyes, hbalance, -, hadmit, heq⟩
  · rw [hno, hsame]
    exact h
  rw [hyes, if_pos rfl, heq]
  obtain ⟨hbud, hres, -, -, -⟩ := admitSpan_frame hadmit
  have hpresent : ∀ b, ((r₁.incrHeld budget estimate).budgets b).present =
      (l.redis.budgets b).present := by
    have hbalance' : (r₁.budgets budget).balanceUsd = some balance := by rw [hbud]; exact hbalance
    intro b
    rw [incrHeld_present hbalance', hbud]
  constructor
  case records => exact fun k record hk => h.records k record (hres ▸ hk)
  case named => exact fun k record s hk => h.named k record s (hres ▸ hk)
  case positive =>
    intro call hc
    rcases List.mem_cons.mp hc with rfl | hc
    · exact not_le.mp hpos
    · exact h.positive call hc
  case own =>
    intro call hc
    rcases List.mem_cons.mp hc with rfl | hc
    · exact readKey_of_present hpresent _ _
    · exact (readKey_of_present hpresent _ _).trans (h.own call hc)
  case covered =>
    intro b
    have hcov := h.covered b
    have hheld := admitted_held hadmit b budget estimate
    have hrecorded : (r₁.incrHeld budget estimate).recorded b = l.redis.recorded b := by
      unfold Redis.recorded
      rw [Redis.incrHeld_reservations, hres]
    have hsum : Ledger.anonymous ⟨r₁.incrHeld budget estimate,
        ⟨t, c, parent, estimate, budget, chargedSpan l.redis span⟩ :: l.reserves⟩ b =
        (if b = budget then estimate else 0) + l.toLedger.anonymous b := by
      unfold Ledger.anonymous
      rw [List.map_cons, List.sum_cons]
      simp only [eq_comm]
    dsimp only
    rw [hrecorded, hheld]
    show _ + Ledger.anonymous ⟨r₁.incrHeld budget estimate,
      ⟨t, c, parent, estimate, budget, chargedSpan l.redis span⟩ :: l.reserves⟩ b ≤ _
    rw [hsum]
    linarith
  case exact =>
    intro s
    have hexact := h.exact s
    have hs := admitSpan_charged hadmit s
    have hsum : Ledger.spanAnonymous ⟨r₁.incrHeld budget estimate,
        ⟨t, c, parent, estimate, budget, chargedSpan l.redis span⟩ :: l.reserves⟩ s =
        (if chargedSpan l.redis span = some s then estimate else 0) +
          l.toLedger.spanAnonymous s := by
      unfold Ledger.spanAnonymous
      rw [List.map_cons, List.sum_cons]
    unfold openOn at hexact ⊢
    dsimp only
    rw [Redis.incrHeld_reservations, hres]
    show r₁.spanHeld s = _ + Ledger.spanAnonymous ⟨r₁.incrHeld budget estimate,
      ⟨t, c, parent, estimate, budget, chargedSpan l.redis span⟩ :: l.reserves⟩ s
    rw [hsum]
    linarith

private theorem reconcile_spanHeld (h : Sound l) {call : ReserveCall} (hc : call ∈ l.reserves)
    (hle : call.amountUsd ≤ l.redis.held call.budget) (ht : l.Traced (.reconcile call))
    (s : SpanKey) :
    (releaseHold l.redis call.budget
        (Reservation.scope l.redis (stripTenant call.tenantId) call.parentSpanId)
        call.amountUsd).1.spanHeld s =
      l.redis.spanHeld s - if call.span = some s then call.amountUsd else 0 := by
  have hpos := h.positive call hc
  have hpart : (if call.span = some s then call.amountUsd else 0) ≤ l.redis.spanHeld s := by
    have hexact := h.exact s
    have hrest : 0 ≤ Ledger.spanAnonymous ⟨l.redis, l.reserves.erase call⟩ s :=
      Ledger.spanAnonymous_nonneg (fun x hx => h.positive x (List.mem_of_mem_erase hx)) s
    have hsum := Ledger.spanAnonymous_erase l.redis hc s
    have hweight : 0 ≤ l.redis.reservations.weight (heldOn s l.charged) :=
      Table.weight_nonneg _ _ fun k v hk => heldOn_nonneg h hk s
    unfold openOn at hexact
    linarith
  rcases ht with hsame | ⟨hnone, hzero⟩
  · have hroom : Reservation.scope l.redis (stripTenant call.tenantId) call.parentSpanId = some s →
        call.amountUsd ≤ l.redis.spanHeld s := by
      intro hs
      rwa [← hsame, if_pos hs] at hpart
    rw [releaseHold_spanHeld _ s hpos hle hroom, hsame]
  · rw [hnone, if_neg (by simp), sub_zero]
    by_cases hs : Reservation.scope l.redis (stripTenant call.tenantId) call.parentSpanId = some s
    · rw [hzero s hs]
      exact releaseHold_spanHeld_of_zero (hzero s hs)
    · rw [releaseHold_spanHeld _ s hpos hle fun hs' => absurd hs' hs, if_neg hs, sub_zero]

theorem reconcile_sound (h : Sound l) {call : ReserveCall} (hc : call ∈ l.reserves)
    (ht : l.Traced (.reconcile call)) :
    Sound { l with
      redis := (Reservation.reconcile l.redis call.tenantId call.customerId call.amountUsd
        call.parentSpanId).1
      reserves := l.reserves.erase call } := by
  have hpos := h.positive call hc
  have hle : call.amountUsd ≤ l.redis.held call.budget := by
    have hmine := Ledger.amount_le_anonymous h.positive hc
    have hrec := Ledger.recorded_nonneg h.recordsOpened call.budget
    have hcov := h.covered call.budget
    linarith
  have hspanHeld := reconcile_spanHeld h hc hle ht
  set span := Reservation.scope l.redis (stripTenant call.tenantId) call.parentSpanId
  have hrelease : (Reservation.reconcile l.redis call.tenantId call.customerId call.amountUsd
      call.parentSpanId).1 = (releaseHold l.redis call.budget span call.amountUsd).1 := by
    have hkey : budgetPrefixForRead l.redis (stripTenant call.tenantId) call.customerId =
        call.budget := h.own call hc
    unfold Reservation.reconcile reconcileScript
    dsimp only
    rw [hkey, max_eq_right hpos.le]
  rw [hrelease]
  obtain ⟨-, hheld⟩ := releaseHold_exact span hpos hle
  obtain ⟨hrecorded, -⟩ := releaseHold_recorded l.redis call.budget span call.amountUsd
  have hpresent := releaseHold_present l.redis call.budget span call.amountUsd
  have hres := (releaseHold_frame l.redis call.budget span call.amountUsd).1
  set r := (releaseHold l.redis call.budget span call.amountUsd).1
  constructor
  case records => exact fun k record hk => h.records k record (hres ▸ hk)
  case named => exact fun k record s hk => h.named k record s (hres ▸ hk)
  case positive => exact fun x hx => h.positive x (List.mem_of_mem_erase hx)
  case own =>
    intro x hx
    exact (readKey_of_present hpresent _ _).trans (h.own x (List.mem_of_mem_erase hx))
  case covered =>
    intro b
    have hcov := h.covered b
    have hsum := Ledger.anonymous_erase r hc b
    have hrec := hrecorded b
    have hb := hheld b
    simp only [eq_comm (a := b)] at hb
    show r.recorded b + Ledger.anonymous ⟨r, l.reserves.erase call⟩ b ≤ r.held b
    linarith
  case exact =>
    intro s
    have hexact := h.exact s
    have hsum := Ledger.spanAnonymous_erase r hc s
    have hs := hspanHeld s
    unfold openOn at hexact ⊢
    dsimp only
    rw [hres]
    show r.spanHeld s = _ + Ledger.spanAnonymous ⟨r, l.reserves.erase call⟩ s
    linarith

/-! ### Runs -/

private theorem setCap_spanHeld (r : Redis) (t : Option String) (spanId : String) (cap : ℚ)
    (s : SpanKey) :
    ((setHierarchyCap r t spanId cap).getD r).spanHeld s = r.spanHeld s := by
  unfold setHierarchyCap
  split_ifs
  · rfl
  · show number (Function.update r.spans _ _ s).heldUsd = _
    by_cases hs : s = spanPrefix t spanId
    · rw [hs, Function.update_self]
      rfl
    · rw [Function.update_of_ne hs]
      rfl

private theorem setCap_frame (r : Redis) (t : Option String) (spanId : String) (cap : ℚ) :
    ((setHierarchyCap r t spanId cap).getD r).reservations = r.reservations ∧
      ((setHierarchyCap r t spanId cap).getD r).budgets = r.budgets := by
  unfold setHierarchyCap
  split_ifs
  · exact ⟨rfl, rfl⟩
  · exact ⟨rfl, rfl⟩

theorem step_sound {op : SpanOp} (h : Sound l) (ht : l.Traced op) (hstep : l.step op = some l') :
    Sound l' := by
  cases op with
  | openHold t rid c estimate parent expiresAt clock =>
    rw [← Option.some.inj hstep]
    exact openHold_sound h t rid c estimate parent expiresAt clock
  | reserve t c estimate parent =>
    rw [← Option.some.inj hstep]
    exact reserve_sound h t c estimate parent
  | reconcile call =>
    simp only [step] at hstep
    split_ifs at hstep with hc
    rw [← Option.some.inj hstep]
    exact reconcile_sound h hc ht
  | settle rid =>
    rw [← Option.some.inj hstep]
    exact ((swept_refl h).close ht).sound
  | expireDue cutoff =>
    rw [← Option.some.inj hstep]
    exact expireDue_sound h cutoff ht
  | attach rid w =>
    rw [← Option.some.inj hstep]
    exact h.of_frame rfl (fun _ => rfl) (fun _ => rfl) fun _ => rfl
  | window k a =>
    rw [← Option.some.inj hstep]
    exact window_sound h k a ht
  | setCap t spanId cap =>
    obtain ⟨hres, hbud⟩ := setCap_frame l.redis t spanId cap
    rw [← Option.some.inj hstep]
    refine h.of_frame hres (fun b => ?_) (fun b => ?_) (setCap_spanHeld l.redis t spanId cap)
    · rw [hbud]
    · unfold Redis.held
      rw [hbud]

structure Unheld (l : SpanLedger) : Prop where
  records : l.redis.reservations = .empty
  reserves : l.reserves = []
  budgets : ∀ b, 0 ≤ l.redis.held b
  spans : ∀ s, l.redis.spanHeld s = 0

theorem Unheld.sound (h : Unheld l) : Sound l := by
  have hanon : ∀ b, l.toLedger.anonymous b = 0 := fun b => by simp [Ledger.anonymous, h.reserves]
  constructor
  case records => intro rid record hget; simp [h.records] at hget
  case named => intro rid record s hget; simp [h.records] at hget
  case positive => simp [h.reserves]
  case own => simp [h.reserves]
  case covered =>
    intro b
    have hb := h.budgets b
    unfold Redis.recorded
    rw [hanon, h.records, Table.weight_empty]
    linarith
  case exact =>
    intro s
    have hanonymous : l.toLedger.spanAnonymous s = 0 := by simp [Ledger.spanAnonymous, h.reserves]
    unfold openOn
    rw [hanonymous, h.records, h.spans, Table.weight_empty, add_zero]

/-- In every run in which each hold is released from the span it was added to, the hold counter of
every span is the sum of the open holds that were added to it, and a settle lowers it by exactly
what was added. -/
theorem span_holds_exact {ops : List SpanOp} (hstart : Unheld l) (hok : Guarded step Traced l ops)
    (hrun : run step l ops = some l') :
    (∀ s, l'.redis.spanHeld s = l'.openOn s) ∧
      ∀ rid record, l'.redis.reservations.get rid = some record → l'.Tallied rid record →
        ∀ s, (Reservation.settle l'.redis rid).1.spanHeld s =
          l'.redis.spanHeld s - if l'.charged rid = some s then record.reservedUsd else 0 := by
  have hsound : Sound l' :=
    guarded_invariant (fun _ _ _ h ht hs => step_sound h ht hs) hstart.sound hok hrun
  refine ⟨hsound.exact, fun rid record hget ht s => ?_⟩
  obtain ⟨b, hkey⟩ := Option.isSome_iff_exists.mp (hsound.records rid record hget).1
  have hclose : (Reservation.settle l'.redis rid).1 =
      dropReservation (releaseHold l'.redis b record.spanHeldKey record.reservedUsd).1 rid := by
    unfold Reservation.settle
    rw [close_of_some hget hkey]
  rw [hclose]
  exact release_spanHeld hsound hget hkey ht s

instance (l : SpanLedger) (rid : String) (record : ReservationRecord) :
    Decidable (l.Tallied rid record) :=
  inferInstanceAs (Decidable (record.spanHeldKey = l.charged rid ∨
    ∀ s ∈ record.spanHeldKey, l.redis.spanHeld s = 0))

instance (l : SpanLedger) : ∀ op, Decidable (l.Traced op)
  | .reconcile call =>
    inferInstanceAs (Decidable (
      Reservation.scope l.redis (stripTenant call.tenantId) call.parentSpanId = call.span ∨
      call.span = none ∧
        ∀ s ∈ Reservation.scope l.redis (stripTenant call.tenantId) call.parentSpanId,
          l.redis.spanHeld s = 0))
  | .settle rid =>
    inferInstanceAs (Decidable (∀ record ∈ l.redis.reservations.get rid, l.Tallied rid record))
  | .expireDue cutoff =>
    inferInstanceAs (Decidable (∀ rid ∈ Reservation.due l.redis cutoff,
      ∀ record ∈ l.redis.reservations.get rid, l.Tallied rid record))
  | .window k _ =>
    inferInstanceAs (Decidable (l.redis.applied k.windowId = false →
      ∀ rid ∈ l.redis.windowReservations k.windowId, ∀ record ∈ l.redis.reservations.get rid,
        record.heldKey = some k.budget ∧ l.Tallied rid record))
  | .openHold .. | .reserve .. | .attach .. | .setCap .. => isTrue trivial

/-- A customer's budget of ten dollars, and no hold. -/
def fundedLedger : SpanLedger where
  redis := ({} : Redis).setBudget ⟨none, "acme"⟩ { balanceUsd := some 10, heldUsd := some 0 }

private theorem fundedLedger_unheld : Unheld fundedLedger where
  records := rfl
  reserves := rfl
  budgets b := by
    unfold fundedLedger Redis.held
    by_cases hb : b = ⟨none, "acme"⟩
    · rw [hb, Redis.setBudget_self]
      exact le_rfl
    · rw [Redis.setBudget_ne _ _ hb]
      exact le_rfl
  spans _ := rfl

/-- A hold of the uncapped span is settled before the cap is set, a reserve is reconciled and a
window settles the hold of the capped span. -/
theorem span_holds_exact_capped :
    ∃ l', run step fundedLedger [.openHold none "r1" "acme" (1 / 2) (some "s") none 0,
        .settle "r1", .setCap none "s" 1, .openHold none "r2" "acme" (3 / 5) (some "s") none 0,
        .reserve none "acme" (1 / 5) (some "s"),
        .reconcile ⟨none, "acme", some "s", 1 / 5, ⟨none, "acme"⟩, some ⟨none, "s"⟩⟩,
        .attach "r2" "w",
        .window ⟨"w", ⟨none, "acme"⟩, "c", "m", id, "v", "p", "d", "i"⟩ { costUsd := 1 / 2 },
        .openHold none "r3" "acme" (2 / 5) (some "s") none 0] = some l' ∧
      ∀ s, l'.redis.spanHeld s = l'.openOn s :=
  ⟨_, (Option.some_get (by decide +kernel)).symm,
    (span_holds_exact fundedLedger_unheld (by decide +kernel)
      (Option.some_get (by decide +kernel)).symm).1⟩

/-- A hold opened before the cap is set is taken off the capped span when it is settled. -/
theorem not_span_holds_exact :
    ∃ l', run step fundedLedger [.openHold none "r1" "acme" (1 / 2) (some "s") none 0,
        .setCap none "s" 1, .openHold none "r2" "acme" (3 / 5) (some "s") none 0,
        .settle "r1"] = some l' ∧
      l'.redis.spanHeld ⟨none, "s"⟩ = 1 / 10 ∧ l'.openOn ⟨none, "s"⟩ = 3 / 5 :=
  ⟨_, (Option.some_get (by decide +kernel)).symm, by decide +kernel, by decide +kernel⟩

end SpanLedger

end FluxMeter.Budget
