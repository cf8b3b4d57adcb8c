import FluxMeter.Budget.Closers
import FluxMeter.Budget.Commitment
import FluxMeter.Job.SpanAttribution
import FluxMeter.Job.WindowAttribution

/-! The cap of a span over the life of its calls. A window releases the hold of a billed call, and
a session window, on a stream of its own, writes the cost that admission reads. -/
namespace FluxMeter.Job
open Collections FluxMeter.Budget FluxMeter.Keys FluxMeter.Model Transition

/-- `SpanSink.invoke` as admission sees it: the cost of the span is overwritten. -/
def writeSpan (r : Redis) (span : SpanAggregate) : Redis :=
  { r with spans := fun k => { r.spans k with
      costUsd := (((spanSink {} span).spans k).map SpanTotals.costUsd).or (r.spans k).costUsd } }

/-- The store and the session windows, and as a record of the run the open reservations whose call
was billed, and what the billed calls of each span cost whose hold is closed. -/
structure SpanLife where
  redis : Redis := {}
  job : SpanJob := {}
  billed : String → Bool := fun _ => false
  spent : SpanKey → ℚ := fun _ => 0

inductive LifeOp
  | openHold (tenantId : Option String) (reservationId customerId : String) (estimate : ℚ)
      (parentSpanId : Option String) (expiresAt : Option ℚ) (clock : ℚ)
  | event (e : TokenEvent)
  | watermark (w : ℤ)
  | window (k : SinkKeys) (a : SinkArgs)
  | expireDue (cutoff : ℚ)

namespace SpanLife

/-- The holds on the span whose call was billed. -/
def billedOn (l : SpanLife) (r : Redis) (s : SpanKey) : ℚ :=
  r.reservations.weight fun rid record => if l.billed rid then recordSpanHold s record else 0

/-- Billed calls whose hold the closer took away are spent. -/
def close (l : SpanLife) (r : Redis) : SpanLife :=
  { l with redis := r, spent := fun s => l.spent s + (l.billedOn l.redis s - l.billedOn r s) }

def openHold (l : SpanLife) (t : Option String) (rid c : String) (estimate : ℚ)
    (parent : Option String) (expiresAt : Option ℚ) (clock : ℚ) : SpanLife :=
  let (r, reply) := Reservation.openHold l.redis t rid c estimate parent expiresAt clock
  if reply.isOpened then { l with redis := r, billed := Function.update l.billed rid false }
  else { l with redis := r }

/-- The call of an open reservation is billed once; any other cost is spent at once. -/
def bill (l : SpanLife) (e : TokenEvent) (costUsd : ℚ) : SpanLife :=
  match e.reservationId with
  | none => l
  | some rid =>
    if (l.redis.reservations.get rid).isSome ∧ l.billed rid = false then
      { l with billed := Function.update l.billed rid true }
    else
      { l with spent := Function.update l.spent (eventScope e) (l.spent (eventScope e) + costUsd) }

/-- The event projection attaches the reservation to the window of the event. -/
def project (windowMillis : ℤ) (r : Redis) (e : TokenEvent) : Redis :=
  match e.reservationId with
  | none => r
  | some rid => attachReservation r rid (projectionWindowId windowMillis e)

/-- The windows that fire at a watermark are written by the sink. -/
def advance (l : SpanLife) (w : ℤ) : SpanLife :=
  { l with
    redis := if w ≤ l.job.watermark then l.redis
      else (l.job.due w).foldl (fun r session => writeSpan r session.acc) l.redis
    job := l.job.advance w }

def step (price : TokenEvent → ℚ) (windowMillis : ℤ) (l : SpanLife) : LifeOp → Option SpanLife
  | .openHold t rid c estimate parent expiresAt clock =>
    some (l.openHold t rid c estimate parent expiresAt clock)
  | .event e =>
    some { l.bill e (price e) with
      redis := project windowMillis l.redis e
      job := l.job.addEvent price e }
  | .watermark w => some (l.advance w)
  | .window k a => some (l.close (sinkScript l.redis k a).1)
  | .expireDue cutoff => some (l.close (Reservation.expireDue l.redis cutoff).1)

/-- The billed holds on the span among the given reservations. -/
def releasing (l : SpanLife) (rids : List String) (s : SpanKey) : ℚ :=
  l.redis.reservations.weight fun rid record =>
    if l.billed rid ∧ rid ∈ rids then recordSpanHold s record else 0

/-- A call is billed while its reservation is open, at the reserved cost; the holds of billed calls
are closed only when the span's stored cost covers them, and no session window writes less. -/
def Ordered (price : TokenEvent → ℚ) (s : SpanKey) (l : SpanLife) : LifeOp → Prop
  | .openHold .. => True
  | .event e => ∀ rid, e.reservationId = some rid →
      l.billed rid = false ∧ ∃ record, l.redis.reservations.get rid = some record ∧
        record.reservedUsd = price e
  | .watermark w => l.job.watermark < w →
      ∀ session ∈ l.job.due w, session.scope = s → l.spent s ≤ session.acc.costUsd
  | .window k _ => l.redis.applied k.windowId = false →
      l.spent s + l.releasing (l.redis.windowReservations k.windowId) s ≤
        number (l.redis.spans s).costUsd
  | .expireDue cutoff =>
      l.spent s + l.releasing (Reservation.due l.redis cutoff) s ≤ number (l.redis.spans s).costUsd

/-- The stored cost of the span covers its closed calls. -/
def Visible (s : SpanKey) (l : SpanLife) : Prop := l.spent s ≤ number (l.redis.spans s).costUsd

/-- A call is billed as in an ordered run, and a call is admitted on the span only while the stored
cost covers the closed ones. -/
def Admits (price : TokenEvent → ℚ) (s : SpanKey) (l : SpanLife) : LifeOp → Prop
  | .openHold t _ _ _ parent _ _ =>
    Reservation.scope l.redis (stripTenant t) parent = some s → Visible s l
  | .event e => Ordered price s l (.event e)
  | _ => True

/-- The holds of a capped span cover its open calls, and the open and the closed ones together stay
within the cap. -/
structure Within (s : SpanKey) (cap : ℚ) (l : SpanLife) : Prop where
  records : ∀ rid record, l.redis.reservations.get rid = some record → OpenRecord record
  capped : (l.redis.spans s).maxCostUsd = some cap
  covered : l.redis.spanRecorded s ≤ l.redis.spanHeld s
  total : l.redis.spanRecorded s + l.spent s ≤ cap

variable {price : TokenEvent → ℚ} {windowMillis : ℤ} {s : SpanKey} {cap : ℚ} {l l' : SpanLife}

/-! ### Closing -/

/-- A store that a closer left: it took records away among `rids`, and their holds from the span. -/
structure Closing (l : SpanLife) (s : SpanKey) (rids : List String) (r : Redis) : Prop where
  kept : ∀ rid record, r.reservations.get rid = some record →
    l.redis.reservations.get rid = some record
  others : ∀ rid, rid ∉ rids → r.reservations.get rid = l.redis.reservations.get rid
  capped : (r.spans s).maxCostUsd = (l.redis.spans s).maxCostUsd
  spent : (r.spans s).costUsd = (l.redis.spans s).costUsd
  covered : r.spanRecorded s ≤ r.spanHeld s

theorem closing_refl (h : Within s cap l) (rids : List String) : Closing l s rids l.redis :=
  ⟨fun _ _ hget => hget, fun _ _ => rfl, rfl, rfl, h.covered⟩

private theorem spanHeld_release_ge (r : Redis) (b : BudgetKey) {record : ReservationRecord}
    (hpos : 0 < record.reservedUsd) (s : SpanKey) :
    r.spanHeld s - recordSpanHold s record ≤
      (releaseHold r b record.spanHeldKey record.reservedUsd).1.spanHeld s := by
  rw [spanHeld_releaseHold]
  unfold recordSpanHold
  by_cases hs : record.spanHeldKey = some s
  · rw [if_pos hs]
    by_cases hheld : 0 < r.spanHeld s
    · rw [if_pos ⟨hs, hheld⟩]
      have hle : min (r.spanHeld s) (min (r.held b) record.reservedUsd) ≤ record.reservedUsd :=
        (min_le_right _ _).trans (min_le_right _ _)
      linarith
    · rw [if_neg fun h => hheld h.2]
      linarith
  · rw [if_neg hs, if_neg fun h => hs h.1]

theorem Closing.release {rids : List String} {r : Redis} {rid : String} {b : BudgetKey}
    {record : ReservationRecord} (hc : Closing l s rids r) (hrid : rid ∈ rids)
    (hget : r.reservations.get rid = some record) (hpos : 0 < record.reservedUsd) :
    Closing l s rids
      (dropReservation (releaseHold r b record.spanHeldKey record.reservedUsd).1 rid) := by
  have hres := (releaseHold_frame r b record.spanHeldKey record.reservedUsd).1
  obtain ⟨hmax, hcost⟩ := releaseHold_caps r b record.spanHeldKey record.reservedUsd s
  have hge := spanHeld_release_ge r b hpos s
  set r₁ := (releaseHold r b record.spanHeldKey record.reservedUsd).1
  have hget₁ : r₁.reservations.get rid = some record := by rw [hres]; exact hget
  constructor
  case kept =>
    intro k v hk
    exact hc.kept k v (hres ▸ dropReservation_get r₁ rid hk)
  case others =>
    intro k hk
    have hne : k ≠ rid := by
      rintro rfl
      exact hk hrid
    show (r₁.reservations.erase rid).get k = _
    rw [Table.get_erase_ne _ hne, hres]
    exact hc.others k hk
  case capped => exact hmax.trans hc.capped
  case spent => exact hcost.trans hc.spent
  case covered =>
    have hdrop := dropReservation_spanRecorded hget₁ s
    have hsame : r₁.spanRecorded s = r.spanRecorded s := by
      unfold Redis.spanRecorded
      rw [hres]
    have hcov := hc.covered
    show (dropReservation r₁ rid).spanRecorded s ≤ r₁.spanHeld s
    linarith

theorem Closing.of_sameReservations {rids : List String} {r r' : Redis} (hc : Closing l s rids r)
    (hsame : SameReservations r r') : Closing l s rids r' where
  kept k v hk := hc.kept k v (hsame.reservations ▸ hk)
  others k hk := by
    rw [hsame.reservations]
    exact hc.others k hk
  capped := by
    rw [hsame.spans]
    exact hc.capped
  spent := by
    rw [hsame.spans]
    exact hc.spent
  covered := by
    have hcov := hc.covered
    unfold Redis.spanRecorded Redis.spanHeld at hcov ⊢
    rw [hsame.reservations, hsame.spans]
    exact hcov

theorem Closing.settleOne {rids : List String} {r : Redis} {rid : String} (h : Within s cap l)
    (hc : Closing l s rids r) (hrid : rid ∈ rids) (b : BudgetKey) :
    Closing l s rids (settleOne b r rid) := by
  cases hget : r.reservations.get rid with
  | none =>
    exact hc.of_sameReservations (settleOne_missing b hget)
  | some record =>
    have hopen := h.records rid record (hc.kept rid record hget)
    rw [settleOne_of_some b hget, hopen.2.2]
    exact hc.release hrid hget hopen.2.1

theorem Closing.close {rids : List String} {r : Redis} {rid : String} (h : Within s cap l)
    (hc : Closing l s rids r) (hrid : rid ∈ rids) :
    Closing l s rids (Reservation.close r rid).1 := by
  cases hget : r.reservations.get rid with
  | none =>
    exact hc.of_sameReservations (close_missing hget)
  | some record =>
    have hopen := h.records rid record (hc.kept rid record hget)
    obtain ⟨b, hkey⟩ := Option.isSome_iff_exists.mp hopen.1
    rw [close_of_some hget hkey]
    exact hc.release hrid hget hopen.2.1

/-- The holds on the span whose call was not billed. -/
def unbilledOn (l : SpanLife) (r : Redis) (s : SpanKey) : ℚ :=
  r.reservations.weight fun rid record => if l.billed rid then 0 else recordSpanHold s record

theorem spanRecorded_split (l : SpanLife) (r : Redis) (s : SpanKey) :
    r.spanRecorded s = l.billedOn r s + l.unbilledOn r s := by
  unfold Redis.spanRecorded billedOn unbilledOn
  rw [← Table.weight_add]
  refine Table.weight_congr _ fun rid record _ => ?_
  split_ifs
  · rw [add_zero]
  · rw [zero_add]

section Totals
variable {rids : List String} {r : Redis}

theorem billedOn_le (h : Within s cap l) (hc : Closing l s rids r) :
    l.billedOn l.redis s ≤ l.billedOn r s + l.releasing rids s := by
  have hsplit : l.billedOn l.redis s = l.releasing rids s + l.redis.reservations.weight
      fun rid record => if l.billed rid ∧ rid ∉ rids then recordSpanHold s record else 0 := by
    unfold billedOn releasing
    rw [← Table.weight_add]
    refine Table.weight_congr _ fun rid record _ => ?_
    by_cases hbilled : l.billed rid = true
    · by_cases hrid : rid ∈ rids
      · simp [hbilled, hrid]
      · simp [hbilled, hrid]
    · simp [hbilled]
  have hrest : (l.redis.reservations.weight fun rid record =>
      if l.billed rid ∧ rid ∉ rids then recordSpanHold s record else 0) ≤ l.billedOn r s := by
    refine Table.weight_le_weight _ _ (fun rid record hget => ?_) fun rid record hget => ?_
    · have hpos := (h.records rid record (hc.kept rid record hget)).2.1
      split_ifs
      · exact recordSpanHold_nonneg hpos
      · exact le_rfl
    · by_cases hrid : l.billed rid = true ∧ rid ∉ rids
      · right
        refine ⟨record, (hc.others rid hrid.2).trans hget, ?_⟩
        rw [if_pos hrid, if_pos hrid.1]
      · left
        rw [if_neg hrid]
  linarith

private theorem unbilledOn_le (h : Within s cap l) (hc : Closing l s rids r) :
    l.unbilledOn r s ≤ l.unbilledOn l.redis s := by
  have hnonneg : ∀ rid record, l.redis.reservations.get rid = some record →
      0 ≤ if l.billed rid = true then 0 else recordSpanHold s record := by
    intro rid record hget
    have hpos := (h.records rid record hget).2.1
    split_ifs
    · exact le_rfl
    · exact recordSpanHold_nonneg hpos
  refine Table.weight_le_weight _ _ hnonneg fun rid record hget => ?_
  exact .inr ⟨record, hc.kept rid record hget, le_rfl⟩

/-- A closer keeps the total: what it takes from the open calls is spent. -/
theorem close_within (h : Within s cap l) (hc : Closing l s rids r) : Within s cap (l.close r) := by
  have hunbilled := unbilledOn_le h hc
  have hbefore := spanRecorded_split l l.redis s
  have hafter := spanRecorded_split l r s
  have htotal := h.total
  constructor
  case records => exact fun rid record hget => h.records rid record (hc.kept rid record hget)
  case capped => exact hc.capped.trans h.capped
  case covered => exact hc.covered
  case total =>
    show r.spanRecorded s + (l.spent s + (l.billedOn l.redis s - l.billedOn r s)) ≤ cap
    linarith

/-- It keeps the stored cost above the closed calls where that covers the billed holds, too. -/
theorem close_visible (h : Within s cap l) (hc : Closing l s rids r)
    (hvisible : l.spent s + l.releasing rids s ≤ number (l.redis.spans s).costUsd) :
    Visible s (l.close r) := by
  have hbilled := billedOn_le h hc
  show l.spent s + (l.billedOn l.redis s - l.billedOn r s) ≤ number (r.spans s).costUsd
  rw [hc.spent]
  linarith

end Totals

theorem window_closing (h : Within s cap l) (k : SinkKeys) (a : SinkArgs) :
    Closing l s (l.redis.windowReservations k.windowId) (sinkScript l.redis k a).1 :=
  sinkScript_preserves a (fun _ _ hsame hc => hc.of_sameReservations hsame)
    (fun _ _ hrid _ hc => hc.settleOne h hrid k.budget) (closing_refl h _)

theorem window_visible (h : Within s cap l) (hvisible : Visible s l) (k : SinkKeys) (a : SinkArgs)
    (hok : l.Ordered price s (.window k a)) : Visible s (l.close (sinkScript l.redis k a).1) := by
  by_cases hfresh : l.redis.applied k.windowId = false
  · exact close_visible h (window_closing h k a) (hok hfresh)
  · have happlied : l.redis.applied k.windowId = true := by simpa using hfresh
    have hsame : (sinkScript l.redis k a).1 = l.redis := by
      unfold sinkScript
      rw [if_pos happlied]
    have hnothing : l.releasing [] s = 0 := by simp [releasing, Table.weight]
    unfold Visible at hvisible
    rw [hsame]
    exact close_visible h (closing_refl h []) (by rw [hnothing]; linarith)

theorem expireDue_closing (h : Within s cap l) (cutoff : ℚ) :
    Closing l s (Reservation.due l.redis cutoff) (Reservation.expireDue l.redis cutoff).1 := by
  rw [expireDue_fst]
  exact List.foldlRecOn _ _ (closing_refl h _) fun r hr rid hrid => hr.close h hrid

/-! ### Admission and billing -/

/-- An admission on the span finds room for its estimate next to the stored cost. -/
theorem openHold_within (h : Within s cap l) (t : Option String) (rid c : String) (estimate : ℚ)
    (parent : Option String) (expiresAt : Option ℚ) (clock : ℚ)
    (hok : l.Admits price s (.openHold t rid c estimate parent expiresAt clock)) :
    Within s cap (l.openHold t rid c estimate parent expiresAt clock) ∧
      (Visible s l → Visible s (l.openHold t rid c estimate parent expiresAt clock)) := by
  unfold openHold Reservation.openHold
  by_cases hpos : estimate ≤ 0
  · rw [if_pos hpos]
    exact ⟨h, fun hvisible => hvisible⟩
  rw [if_neg hpos]
  dsimp only
  set budget := budgetPrefixForRead l.redis (stripTenant t) c
  set span := Reservation.scope l.redis (stripTenant t) parent
  set args : OpenArgs := ⟨rid, c, (stripTenant t).getD "", parent.getD "", estimate,
    expiresAt.getD (clock + 900)⟩ with hargs
  rcases openScript_cases l.redis budget span args with ⟨hno, hsame⟩ |
    ⟨balance, r₁, spanHeld, spanSpent, hyes, hnone, -, -, hadmit, heq⟩
  · rw [hno, hsame]
    exact ⟨h, fun hvisible => hvisible⟩
  rw [hyes, if_pos rfl, heq]
  obtain ⟨-, hres, -, -, -⟩ := admitSpan_frame hadmit
  obtain ⟨-, hmax, hcost⟩ := spansFixed_admitSpan hadmit s
  obtain ⟨hheld, hroom⟩ := admitSpan_spanHeld hadmit h.capped
  have hrecorded : ((r₁.reservations.set rid (args.record budget span)).weight fun _ =>
      recordSpanHold s) = (if span = some s then estimate else 0) + l.redis.spanRecorded s := by
    rw [hres]
    exact l.redis.reservations.weight_set_of_none _ (fun _ => recordSpanHold s) hnone
  have hcov := h.covered
  have htotal := h.total
  have hsame : Visible s l → l.spent s ≤ number (r₁.spans s).costUsd := by
    intro hvisible
    rw [hcost]
    exact hvisible
  refine ⟨?_, hsame⟩
  constructor
  case records =>
    intro k record hk
    dsimp only at hk
    rw [Table.get_set, hres] at hk
    split_ifs at hk with hkey
    · rw [← Option.some.inj hk]
      exact openRecord_record (not_le.mp hpos) rfl
    · exact h.records k record hk
  case capped => exact hmax.trans h.capped
  case covered =>
    show (r₁.reservations.set rid (args.record budget span)).weight _ ≤ r₁.spanHeld s
    rw [hrecorded, hheld]
    linarith
  case total =>
    show (r₁.reservations.set rid (args.record budget span)).weight _ + l.spent s ≤ cap
    rw [hrecorded]
    by_cases hspan : span = some s
    · have hle := hroom hspan
      have hvisible : l.spent s ≤ number (l.redis.spans s).costUsd := hok hspan
      have hest : args.estimate = estimate := rfl
      rw [if_pos hspan]
      linarith
    · rw [if_neg hspan]
      linarith

theorem event_within (h : Within s cap l) {e : TokenEvent} (hok : l.Ordered price s (.event e)) :
    Within s cap { l.bill e (price e) with
        redis := project windowMillis l.redis e
        job := l.job.addEvent price e } ∧
      (Visible s l → Visible s { l.bill e (price e) with
        redis := project windowMillis l.redis e
        job := l.job.addEvent price e }) := by
  have hredis : (project windowMillis l.redis e).reservations = l.redis.reservations ∧
      (project windowMillis l.redis e).spans = l.redis.spans := by
    unfold project
    split
    · exact ⟨rfl, rfl⟩
    · exact ⟨rfl, rfl⟩
  have hspent : (l.bill e (price e)).spent = l.spent := by
    unfold bill
    cases hrid : e.reservationId with
    | none => rfl
    | some rid =>
      obtain ⟨hbilled, record, hget, -⟩ := hok rid hrid
      dsimp only
      rw [if_pos ⟨by rw [hget]; rfl, hbilled⟩]
  obtain ⟨hres, hspans⟩ := hredis
  constructor
  swap
  · intro hvisible
    unfold Visible at hvisible ⊢
    dsimp only
    rw [hspans, hspent]
    exact hvisible
  constructor
  case records => exact fun rid record hget => h.records rid record (hres ▸ hget)
  case capped => exact hspans ▸ h.capped
  case covered =>
    have hcov := h.covered
    unfold Redis.spanRecorded Redis.spanHeld at hcov ⊢
    dsimp only
    rw [hres, hspans]
    exact hcov
  case total =>
    have htotal := h.total
    unfold Redis.spanRecorded at htotal ⊢
    dsimp only
    rw [hres, hspent]
    exact htotal

/-! ### Session windows -/

private theorem writeSpan_cost (r : Redis) (span : SpanAggregate) (s : SpanKey) :
    ((writeSpan r span).spans s).costUsd = (r.spans s).costUsd ∨
      spanScope span.tenantId (span.spanId.getD "") = s ∧
        ((writeSpan r span).spans s).costUsd = some span.costUsd := by
  unfold writeSpan spanSink
  dsimp only
  cases span.spanId with
  | none => exact .inl rfl
  | some id =>
    dsimp only
    split_ifs with hid
    · exact .inl rfl
    · dsimp only
      by_cases hs : s = spanScope span.tenantId id
      · right
        rw [hs, Function.update_self]
        exact ⟨rfl, rfl⟩
      · left
        rw [Function.update_of_ne hs]
        rfl

private theorem foldl_writeSpan (sessions : List Session) (r : Redis) :
    let r' := sessions.foldl (fun r session => writeSpan r session.acc) r
    r'.reservations = r.reservations ∧ (r'.spans s).maxCostUsd = (r.spans s).maxCostUsd ∧
      r'.spanHeld s = r.spanHeld s := by
  refine List.foldlRecOn (motive := fun r' : Redis => r'.reservations = r.reservations ∧
    (r'.spans s).maxCostUsd = (r.spans s).maxCostUsd ∧ r'.spanHeld s = r.spanHeld s) _ _
    ⟨rfl, rfl, rfl⟩ fun r' hr' session hin => hr'

private theorem foldl_writeSpan_cost {sessions : List Session} {r : Redis} {spent : ℚ}
    (hr : spent ≤ number (r.spans s).costUsd)
    (hok : ∀ session ∈ sessions, session.scope = s → spent ≤ session.acc.costUsd) :
    spent ≤ number
      ((sessions.foldl (fun r session => writeSpan r session.acc) r).spans s).costUsd := by
  refine List.foldlRecOn (motive := fun r' : Redis => spent ≤ number (r'.spans s).costUsd) _ _ hr
    fun r' hcost session hin => ?_
  rcases writeSpan_cost r' session.acc s with hsame | ⟨hscope, hwritten⟩
  · rw [hsame]
    exact hcost
  · rw [hwritten]
    exact hok session hin hscope

private theorem advance_within (h : Within s cap l) (w : ℤ) : Within s cap (l.advance w) := by
  unfold advance
  by_cases hw : w ≤ l.job.watermark
  · rw [if_pos hw]
    exact ⟨h.records, h.capped, h.covered, h.total⟩
  · rw [if_neg hw]
    obtain ⟨hres, hmax, hheld⟩ := foldl_writeSpan (s := s) (l.job.due w) l.redis
    have hrecorded : ((l.job.due w).foldl (fun r session => writeSpan r session.acc)
        l.redis).spanRecorded s = l.redis.spanRecorded s := by
      unfold Redis.spanRecorded
      rw [hres]
    constructor
    case records => exact fun rid record hget => h.records rid record (hres ▸ hget)
    case capped => exact hmax.trans h.capped
    case covered =>
      dsimp only
      rw [hrecorded, hheld]
      exact h.covered
    case total =>
      dsimp only
      rw [hrecorded]
      exact h.total

theorem advance_visible {w : ℤ} (hvisible : Visible s l) (hok : l.Ordered price s (.watermark w)) :
    Visible s (l.advance w) := by
  unfold advance
  by_cases hw : w ≤ l.job.watermark
  · rw [if_pos hw]
    exact hvisible
  · rw [if_neg hw]
    exact foldl_writeSpan_cost hvisible (hok (not_le.mp hw))

/-! ### Runs -/

theorem step_within {op : LifeOp} (h : Within s cap l) (hok : l.Admits price s op)
    (hstep : l.step price windowMillis op = some l') : Within s cap l' := by
  cases op with
  | openHold t rid c estimate parent expiresAt clock =>
    rw [← Option.some.inj hstep]
    exact (openHold_within h t rid c estimate parent expiresAt clock hok).1
  | event e =>
    rw [← Option.some.inj hstep]
    exact (event_within h hok).1
  | watermark w =>
    rw [← Option.some.inj hstep]
    exact advance_within h w
  | window k a =>
    rw [← Option.some.inj hstep]
    exact close_within h (window_closing h k a)
  | expireDue cutoff =>
    rw [← Option.some.inj hstep]
    exact close_within h (expireDue_closing h cutoff)

/-- While the closed calls are visible, an ordered step admits. -/
theorem admits_of_ordered {op : LifeOp} (hvisible : Visible s l) (hok : l.Ordered price s op) :
    l.Admits price s op := by
  cases op with
  | openHold t rid c estimate parent expiresAt clock => exact fun _ => hvisible
  | event e => exact hok
  | watermark w => trivial
  | window k a => trivial
  | expireDue cutoff => trivial

theorem step_visible {op : LifeOp} (h : Within s cap l) (hvisible : Visible s l)
    (hok : l.Ordered price s op) (hstep : l.step price windowMillis op = some l') : Visible s l' := by
  cases op with
  | openHold t rid c estimate parent expiresAt clock =>
    rw [← Option.some.inj hstep]
    exact (openHold_within h t rid c estimate parent expiresAt clock
      (admits_of_ordered hvisible hok)).2 hvisible
  | event e =>
    rw [← Option.some.inj hstep]
    exact (event_within h hok).2 hvisible
  | watermark w =>
    rw [← Option.some.inj hstep]
    exact advance_visible hvisible hok
  | window k a =>
    rw [← Option.some.inj hstep]
    exact window_visible h hvisible k a hok
  | expireDue cutoff =>
    rw [← Option.some.inj hstep]
    exact close_visible h (expireDue_closing h cutoff) hok

/-- A span with a cap before its first call. -/
structure BeforeSpan (s : SpanKey) (cap : ℚ) (l : SpanLife) : Prop where
  records : l.redis.reservations = .empty
  capped : (l.redis.spans s).maxCostUsd = some cap
  cap_nonneg : 0 ≤ cap
  held : 0 ≤ l.redis.spanHeld s
  cost : 0 ≤ number (l.redis.spans s).costUsd
  unspent : l.spent s = 0

theorem BeforeSpan.within (h : BeforeSpan s cap l) : Within s cap l := by
  have hnone : l.redis.spanRecorded s = 0 := by simp [Redis.spanRecorded, h.records]
  constructor
  case records => intro rid record hget; simp [h.records] at hget
  case capped => exact h.capped
  case covered => rw [hnone]; exact h.held
  case total => rw [hnone, h.unspent, add_zero]; exact h.cap_nonneg

theorem BeforeSpan.visible (h : BeforeSpan s cap l) : Visible s l := by
  unfold Visible
  rw [h.unspent]
  exact h.cost

private theorem ordered_run {ops : List LifeOp} (hstart : BeforeSpan s cap l)
    (hok : Guarded (step price windowMillis) (Ordered price s) l ops) :
    Guarded (step price windowMillis) (Admits price s) l ops ∧
      (run (step price windowMillis) l ops = some l' → Visible s l') := by
  have hstep : ∀ u op v, Within s cap u ∧ Visible s u → u.Ordered price s op →
      u.step price windowMillis op = some v → Within s cap v ∧ Visible s v := fun u op v hu ho hs =>
    ⟨step_within hu.1 (admits_of_ordered hu.2 ho) hs, step_visible hu.1 hu.2 ho hs⟩
  have hinit : Within s cap l ∧ Visible s l := ⟨hstart.within, hstart.visible⟩
  refine ⟨?_, fun hrun => (guarded_invariant hstep hinit hok hrun).2⟩
  rw [guarded_iff_forall] at hok ⊢
  intro past op later u hsplit hpast
  have hbefore : Guarded (step price windowMillis) (Ordered price s) l past := by
    rw [guarded_iff_forall]
    intro past' op' later' u' hsplit' hpast'
    refine hok past' op' (later' ++ op :: later) u' ?_ hpast'
    rw [hsplit, hsplit', List.append_assoc, List.cons_append]
  exact admits_of_ordered (guarded_invariant hstep hinit hbefore hpast).2
    (hok past op later u hsplit hpast)

/-- In every run that admits calls on the span only while its stored cost covers the closed ones, the
open and the closed calls together stay within the cap; and where the stored cost covers the billed
calls before their holds are closed, the closed ones are visible to the next admission. -/
theorem span_cap_kept {ops : List LifeOp} (hstart : BeforeSpan s cap l)
    (hok : Guarded (step price windowMillis) (Admits price s) l ops)
    (hrun : run (step price windowMillis) l ops = some l') :
    l'.redis.spanRecorded s + l'.spent s ≤ cap ∧
      (Guarded (step price windowMillis) (Ordered price s) l ops →
        l'.spent s ≤ number (l'.redis.spans s).costUsd) := by
  have hwithin : Within s cap l' :=
    guarded_invariant (fun _ _ _ h ho hs => step_within h ho hs) hstart.within hok hrun
  exact ⟨hwithin.total, fun hordered => (ordered_run hstart hordered).2 hrun⟩

instance : ∀ op, Decidable (Ordered price s l op)
  | .openHold .. => isTrue trivial
  | .event e => inferInstanceAs (Decidable (∀ rid ∈ e.reservationId,
      l.billed rid = false ∧ ∃ record ∈ l.redis.reservations.get rid, record.reservedUsd = price e))
  | .watermark w => inferInstanceAs (Decidable (l.job.watermark < w →
      ∀ session ∈ l.job.due w, session.scope = s → l.spent s ≤ session.acc.costUsd))
  | .window k _ => inferInstanceAs (Decidable (l.redis.applied k.windowId = false →
      l.spent s + l.releasing (l.redis.windowReservations k.windowId) s ≤
        number (l.redis.spans s).costUsd))
  | .expireDue cutoff => inferInstanceAs (Decidable (
      l.spent s + l.releasing (Reservation.due l.redis cutoff) s ≤ number (l.redis.spans s).costUsd))

instance : ∀ op, Decidable (Admits price s l op)
  | .openHold t _ _ _ parent _ _ => inferInstanceAs (Decidable (
      Reservation.scope l.redis (stripTenant t) parent = some s →
        l.spent s ≤ number (l.redis.spans s).costUsd))
  | .event e => inferInstanceAs (Decidable (Ordered price s l (.event e)))
  | .watermark _ | .window .. | .expireDue _ => isTrue trivial

def cappedSpan : SpanLife where
  redis := (({} : Redis).setBudget ⟨none, "acme"⟩ { balanceUsd := some 10, heldUsd := some 0 }).setSpan
    ⟨none, "s"⟩ { maxCostUsd := some 1 }

theorem cappedSpan_before : BeforeSpan ⟨none, "s"⟩ 1 cappedSpan where
  records := rfl
  capped := rfl
  cap_nonneg := zero_le_one
  held := le_rfl
  cost := le_rfl
  unspent := rfl

/-- The call of the reservation `r1` in the span. -/
def reservedCall : TokenEvent :=
  { customerId := some "acme", modelId := some "m", parentSpanId := some "s",
    reservationId := some "r1", inputTokens := 1 }

def reservedWindow : UsageAggregate :=
  { customerId := some "acme", modelId := some "m", windowEnd := 10000, costMicro := 600000 }

/-- The session window fires before the tumbling window settles, so the second call is refused. -/
def sessionFirst : List LifeOp :=
  [.openHold none "r1" "acme" (3 / 5) (some "s") none 0, .event reservedCall, .watermark 70000,
    .window (sinkKeys reservedWindow) (sinkArgs reservedWindow),
    .openHold none "r2" "acme" (3 / 5) (some "s") none 80]

theorem span_cap_kept_visible :
    ∃ l', run (step (fun _ => 3 / 5) 10000) cappedSpan sessionFirst = some l' ∧
      l'.redis.spanRecorded ⟨none, "s"⟩ + l'.spent ⟨none, "s"⟩ ≤ 1 ∧
      l'.spent ⟨none, "s"⟩ ≤ number (l'.redis.spans ⟨none, "s"⟩).costUsd := by
  have hok : Guarded (step (fun _ => 3 / 5) 10000) (Admits (fun _ => 3 / 5) ⟨none, "s"⟩) cappedSpan
      sessionFirst := by decide +kernel
  have hordered : Guarded (step (fun _ => 3 / 5) 10000) (Ordered (fun _ => 3 / 5) ⟨none, "s"⟩)
      cappedSpan sessionFirst := by decide +kernel
  have hrun : (run (step (fun _ => 3 / 5) 10000) cappedSpan sessionFirst).isSome := by
    decide +kernel
  obtain ⟨l', hrun⟩ := Option.isSome_iff_exists.mp hrun
  obtain ⟨htotal, hvisible⟩ := span_cap_kept cappedSpan_before hok hrun
  exact ⟨l', hrun, htotal, hvisible hordered⟩

/-- The tumbling window settles before the session window fires: the second call is admitted on the
amount that the first one has spent. -/
theorem not_span_cap_kept :
    ∃ l', run (step (fun _ => 3 / 5) 10000) cappedSpan
        [.openHold none "r1" "acme" (3 / 5) (some "s") none 0, .event reservedCall,
          .window (sinkKeys reservedWindow) (sinkArgs reservedWindow),
          .openHold none "r2" "acme" (3 / 5) (some "s") none 20] = some l' ∧
      l'.redis.spanRecorded ⟨none, "s"⟩ + l'.spent ⟨none, "s"⟩ = 6 / 5 :=
  ⟨_, (Option.some_get (by decide +kernel)).symm, by decide +kernel⟩

end SpanLife

end FluxMeter.Job
