import FluxMeter.Budget.Store
import FluxMeter.Model.SpanAggregate
import FluxMeter.Transition.Runs
import Mathlib.Algebra.BigOperators.Group.List.Basic
import Mathlib.Tactic.Abel
import Mathlib.Tactic.Linarith

/-! Span attribution: events keyed by their parent span id, session windows with a gap of 60
seconds, and the sink that overwrites the span's totals when a session fires. -/
namespace FluxMeter.Job
open FluxMeter.Budget FluxMeter.Keys FluxMeter.Model Transition

/-- What `SpanSink` writes under one span prefix. -/
structure SpanTotals where
  costUsd : ℚ
  totalTokens : ℤ
  callCount : ℤ
  durationMs : ℤ
  customerId : Option String
  deriving DecidableEq

structure SpanStore where
  spans : SpanKey → Option SpanTotals := fun _ => none
  /-- The sorted sets `…customer:{customerId}:spans`. -/
  customerSpans : String → String → Option ℚ := fun _ _ => none

/-- `scopePrefix(tenantId, "span", spanId)`. -/
def spanScope (tenantId : Option String) (spanId : String) : SpanKey :=
  ⟨if hasTenant tenantId then tenantId else none, spanId⟩

def totalsOf (span : SpanAggregate) : SpanTotals where
  costUsd := span.costUsd
  totalTokens := span.totalTokens
  callCount := span.callCount
  durationMs := span.getDurationMs
  customerId := span.customerId

/-- `SpanSink.invoke`. -/
def spanSink (store : SpanStore) (span : SpanAggregate) : SpanStore :=
  match span.spanId with
  | none => store
  | some id =>
    if id = "" then store
    else
      let customerKey := customerPrefix span.tenantId (TokenEvent.orNull span.customerId) ++ ":spans"
      { spans := Function.update store.spans (spanScope span.tenantId id) (some (totalsOf span))
        customerSpans := Function.update store.customerSpans customerKey
          (Function.update (store.customerSpans customerKey) id (some span.costUsd)) }

/-- An open session window of one span id. -/
structure Session where
  spanId : String
  start : ℤ
  stop : ℤ
  acc : SpanAggregate
  deriving DecidableEq

def sessionGap : ℤ := 60 * 1000

/-- `TimeWindow.intersects`: windows that touch are merged too. -/
def Session.intersects (s other : Session) : Bool := s.start ≤ other.stop && other.start ≤ s.stop

/-- The operator's windows, the sink's store, and as a record of the run the events it has seen and
the spans it has written. -/
structure SpanJob where
  sessions : List Session := []
  watermark : ℤ := -(2 ^ 63)
  store : SpanStore := {}
  arrived : List TokenEvent := []
  fired : List SpanKey := []

inductive SpanAction
  | event (e : TokenEvent)
  | watermark (w : ℤ)

def eventScope (e : TokenEvent) : SpanKey := spanScope e.tenantId (e.parentSpanId.getD "")

def Session.scope (s : Session) : SpanKey := spanScope s.acc.tenantId (s.acc.spanId.getD "")

/-- The event of an action that carries a parent span id. -/
def SpanAction.carried : SpanAction → Option TokenEvent
  | .event e => if e.parentSpanId.getD "" = "" then none else some e
  | .watermark _ => none

def spanEvents (actions : List SpanAction) : List TokenEvent :=
  actions.filterMap SpanAction.carried

namespace SpanJob

/-- The window that an event opens before it is merged with others. -/
def windowFor (e : TokenEvent) : Session where
  spanId := e.parentSpanId.getD ""
  start := e.timestamp
  stop := wrap64 (e.timestamp + sessionGap)
  acc := {}

def touches (e : TokenEvent) (s : Session) : Bool :=
  s.spanId = e.parentSpanId.getD "" && s.intersects (windowFor e)

/-- The states of merged windows; which of them is the left one is not specified. -/
def mergeAll : List Session → SpanAggregate
  | [] => {}
  | s :: ss => ss.foldl (fun acc other => acc.merge other.acc) s.acc

def merged (price : TokenEvent → ℚ) (e : TokenEvent) (touched : List Session) : Session where
  spanId := e.parentSpanId.getD ""
  start := touched.foldl (fun t s => min t s.start) (windowFor e).start
  stop := touched.foldl (fun t s => max t s.stop) (windowFor e).stop
  acc := (mergeAll touched).addEvent e (price e)

def addEvent (price : TokenEvent → ℚ) (j : SpanJob) (e : TokenEvent) : SpanJob :=
  if e.parentSpanId.getD "" = "" then j
  else
    let touched := j.sessions.filter (touches e)
    let window := merged price e touched
    if window.stop - 1 ≤ j.watermark then
      { j with sessions := j.sessions.filter fun s => ¬ touches e s }
    else
      { j with
        sessions := window :: j.sessions.filter fun s => ¬ touches e s
        arrived := e :: j.arrived }

/-- The windows that fire at a watermark, in the order of their timers. -/
def due (j : SpanJob) (w : ℤ) : List Session :=
  (j.sessions.filter fun s => s.stop - 1 ≤ w).mergeSort fun s s' => s.stop ≤ s'.stop

def advance (j : SpanJob) (w : ℤ) : SpanJob :=
  if w ≤ j.watermark then j
  else
    { sessions := j.sessions.filter fun s => ¬ s.stop - 1 ≤ w
      watermark := w
      store := (j.due w).foldl (fun store s => spanSink store s.acc) j.store
      arrived := j.arrived
      fired := (j.due w).map Session.scope ++ j.fired }

def step (price : TokenEvent → ℚ) (j : SpanJob) : SpanAction → Option SpanJob
  | .event e => some (j.addEvent price e)
  | .watermark w => some (j.advance w)

/-- The event is on time for its session window, its span has not fired yet and its windows are of
the same tenant; a window fires only when it is the only one of its span. -/
def Steady (j : SpanJob) : SpanAction → Prop
  | .event e => e.parentSpanId.getD "" ≠ "" → j.watermark < (windowFor e).stop - 1 ∧
      eventScope e ∉ j.fired ∧ ∀ s ∈ j.sessions, touches e s → s.scope = eventScope e
  | .watermark w => ∀ s ∈ j.sessions, s.stop - 1 ≤ w →
      j.sessions.countP (fun s' => s'.scope = s.scope) = 1

end SpanJob

/-! ### Sums over open windows and over events -/

section Sums
variable {M : Type*} [AddCommMonoid M]

/-- The sum of a field over the open windows of a span. -/
def openSum (f : SpanAggregate → M) (k : SpanKey) (ss : List Session) : M :=
  ((ss.filter fun s => s.scope = k).map fun s => f s.acc).sum

def eventSum (f : TokenEvent → M) (k : SpanKey) (es : List TokenEvent) : M :=
  ((es.filter fun e => eventScope e = k).map f).sum

theorem eventSum_cons (f : TokenEvent → M) (k : SpanKey) (e : TokenEvent) (es : List TokenEvent) :
    eventSum f k (e :: es) = (if eventScope e = k then f e else 0) + eventSum f k es := by
  unfold eventSum
  by_cases hk : eventScope e = k
  · rw [List.filter_cons_of_pos (by simpa using hk), if_pos hk, List.map_cons, List.sum_cons]
  · rw [List.filter_cons_of_neg (by simpa using hk), if_neg hk, zero_add]

theorem eventSum_perm (f : TokenEvent → M) (k : SpanKey) {es es' : List TokenEvent}
    (h : es.Perm es') : eventSum f k es = eventSum f k es' :=
  ((h.filter _).map f).sum_eq

theorem openSum_cons (f : SpanAggregate → M) (k : SpanKey) (s : Session) (ss : List Session) :
    openSum f k (s :: ss) = (if s.scope = k then f s.acc else 0) + openSum f k ss := by
  unfold openSum
  by_cases hk : s.scope = k
  · rw [List.filter_cons_of_pos (by simpa using hk), if_pos hk, List.map_cons, List.sum_cons]
  · rw [List.filter_cons_of_neg (by simpa using hk), if_neg hk, zero_add]

theorem openSum_partition (f : SpanAggregate → M) (k : SpanKey) (q : Session → Prop)
    [DecidablePred q] (ss : List Session) :
    openSum f k (ss.filter fun s => q s) + openSum f k (ss.filter fun s => ¬ q s) =
      openSum f k ss := by
  unfold openSum
  rw [List.filter_comm (fun s => decide (s.scope = k)) (fun s => decide (q s)),
    List.filter_comm (fun s => decide (s.scope = k)) (fun s => decide (¬ q s))]
  exact List.sum_map_filter_add_sum_map_filter_not q _ _

theorem openSum_of_other (f : SpanAggregate → M) {k : SpanKey} {ss : List Session}
    (h : ∀ s ∈ ss, s.scope ≠ k) : openSum f k ss = 0 := by
  unfold openSum
  rw [List.filter_eq_nil_iff.mpr fun s hs => by simpa using h s hs]
  rfl

theorem openSum_of_same (f : SpanAggregate → M) {k : SpanKey} {ss : List Session}
    (h : ∀ s ∈ ss, s.scope = k) : openSum f k ss = (ss.map fun s => f s.acc).sum := by
  unfold openSum
  rw [List.filter_eq_self.mpr fun s hs => by simpa using h s hs]

end Sums

/-! ### Merged windows -/

namespace SpanJob
variable {price : TokenEvent → ℚ} {e : TokenEvent} {touched : List Session}

theorem mergeAll_ids (s : Session) (ss : List Session) :
    (mergeAll (s :: ss)).tenantId = s.acc.tenantId := by
  have hfold : ∀ (l : List Session) (acc : SpanAggregate),
      (l.foldl (fun acc other => acc.merge other.acc) acc).tenantId = acc.tenantId := by
    intro l
    induction l with
    | nil => exact fun _ => rfl
    | cons x l ih => exact fun acc => ih _
  exact hfold ss s.acc

theorem mergeAll_costUsd (ss : List Session) :
    (mergeAll ss).costUsd = (ss.map fun s => s.acc.costUsd).sum := by
  have hfold : ∀ (l : List Session) (acc : SpanAggregate),
      (l.foldl (fun acc other => acc.merge other.acc) acc).costUsd =
        acc.costUsd + (l.map fun s => s.acc.costUsd).sum := by
    intro l
    induction l with
    | nil => exact fun acc => (add_zero _).symm
    | cons x l ih =>
      intro acc
      rw [List.foldl_cons, ih, List.map_cons, List.sum_cons, ← add_assoc]
      rfl
  cases ss with
  | nil => rfl
  | cons s ss => exact hfold ss s.acc

theorem mergeAll_callCount (ss : List Session) :
    wrap32 (mergeAll ss).callCount = wrap32 (ss.map fun s => s.acc.callCount).sum := by
  have hfold : ∀ (l : List Session) (acc : SpanAggregate),
      wrap32 (l.foldl (fun acc other => acc.merge other.acc) acc).callCount =
        wrap32 (acc.callCount + (l.map fun s => s.acc.callCount).sum) := by
    intro l
    induction l with
    | nil => exact fun acc => by simp
    | cons x l ih =>
      intro acc
      rw [List.foldl_cons, ih, List.map_cons, List.sum_cons, ← add_assoc]
      exact wrap32_add _ _
  cases ss with
  | nil => rfl
  | cons s ss => exact hfold ss s.acc

theorem mergeAll_totalTokens (ss : List Session) :
    wrap64 (mergeAll ss).totalTokens = wrap64 (ss.map fun s => s.acc.totalTokens).sum := by
  have hfold : ∀ (l : List Session) (acc : SpanAggregate),
      wrap64 (l.foldl (fun acc other => acc.merge other.acc) acc).totalTokens =
        wrap64 (acc.totalTokens + (l.map fun s => s.acc.totalTokens).sum) := by
    intro l
    induction l with
    | nil => exact fun acc => by simp
    | cons x l ih =>
      intro acc
      rw [List.foldl_cons, ih, List.map_cons, List.sum_cons, ← add_assoc]
      exact wrap64_add _ _
  cases ss with
  | nil => rfl
  | cons s ss => exact hfold ss s.acc

variable (price) in
theorem merged_scope (h : ∀ s ∈ touched, s.scope = eventScope e) :
    (merged price e touched).scope = eventScope e := by
  have hblank : (eventScope e).tenant = none →
      (spanScope (mergeAll touched).tenantId (e.parentSpanId.getD "")).tenant = none := by
    intro hnone
    cases touched with
    | nil => rfl
    | cons s ss =>
      rw [mergeAll_ids, ← hnone, ← h s List.mem_cons_self]
      rfl
  unfold eventScope at hblank ⊢
  unfold Session.scope merged SpanAggregate.addEvent
  dsimp only
  cases ht : e.tenantId with
  | none =>
    rw [ht] at hblank
    have htenant := hblank rfl
    unfold spanScope at htenant ⊢
    dsimp only at htenant ⊢
    rw [htenant]
    rfl
  | some t =>
    rw [ht] at hblank
    dsimp only
    by_cases hb : isBlank t = true
    · have htenant := hblank (by simp [spanScope, hasTenant, hb])
      rw [if_pos hb]
      unfold spanScope at htenant ⊢
      dsimp only at htenant ⊢
      rw [htenant]
      simp [hasTenant, hb]
    · rw [if_neg hb]

/-! ### The sink -/

theorem spanSink_scope {s : Session} {id : String} (hid : s.acc.spanId = some id) (hne : id ≠ "")
    (store : SpanStore) :
    (spanSink store s.acc).spans = Function.update store.spans s.scope (some (totalsOf s.acc)) := by
  unfold spanSink Session.scope
  rw [hid]
  dsimp only
  rw [if_neg hne]
  rfl

/-- After some windows have been written, a span has the totals of its only window, or none of them
was its own. -/
theorem foldl_spanSink {k : SpanKey} (ss : List Session)
    (hids : ∀ s ∈ ss, ∃ id, s.acc.spanId = some id ∧ id ≠ "") (store : SpanStore) :
    ((∀ s ∈ ss, s.scope ≠ k) →
      (ss.foldl (fun store s => spanSink store s.acc) store).spans k = store.spans k) ∧
    ∀ w ∈ ss, w.scope = k → (∀ s ∈ ss, s.scope = k → s = w) →
      (ss.foldl (fun store s => spanSink store s.acc) store).spans k = some (totalsOf w.acc) := by
  induction ss generalizing store with
  | nil => exact ⟨fun _ => rfl, fun w hw => absurd hw List.not_mem_nil⟩
  | cons s ss ih =>
    obtain ⟨id, hid, hne⟩ := hids s List.mem_cons_self
    obtain ⟨hother, hown⟩ := ih (fun x hx => hids x (List.mem_cons_of_mem _ hx))
      (spanSink store s.acc)
    constructor
    · intro h
      rw [List.foldl_cons, hother fun x hx => h x (List.mem_cons_of_mem _ hx),
        spanSink_scope hid hne, Function.update_of_ne (Ne.symm (h s List.mem_cons_self))]
    · intro w hw hk honly
      rw [List.foldl_cons]
      by_cases hlater : ∃ x ∈ ss, x.scope = k
      · obtain ⟨x, hx, hxk⟩ := hlater
        have hxw : x = w := honly x (List.mem_cons_of_mem _ hx) hxk
        exact hown w (hxw ▸ hx) hk fun y hy => honly y (List.mem_cons_of_mem _ hy)
      · have hnone : ∀ x ∈ ss, x.scope ≠ k := fun x hx hxk => hlater ⟨x, hx, hxk⟩
        have hsw : s = w := by
          rcases List.mem_cons.mp hw with heq | hin
          · exact heq.symm
          · exact absurd hk (hnone w hin)
        rw [hother hnone, spanSink_scope hid hne, hsw, hk, Function.update_self]

/-! ### The invariant -/

/-- The totals of a span are the sums over its events, in the arithmetic of the Java fields. -/
structure Totals (price : TokenEvent → ℚ) (k : SpanKey) (es : List TokenEvent) (t : SpanTotals) :
    Prop where
  cost : t.costUsd = eventSum price k es
  tokens : t.totalTokens = wrap64 (eventSum TokenEvent.getTotalTokens k es)
  calls : t.callCount = wrap32 (eventSum (fun _ => 1) k es)
  customer : ∃ e ∈ es, eventScope e = k ∧ t.customerId = e.customerId

/-- The events of a span are in its open windows until it has fired, then in the store. -/
structure Attributed (price : TokenEvent → ℚ) (j : SpanJob) : Prop where
  ids : ∀ s ∈ j.sessions, s.acc.spanId = some s.spanId ∧ s.spanId ≠ ""
  narrow : ∀ s ∈ j.sessions, wrap32 s.acc.callCount = s.acc.callCount ∧
    wrap64 s.acc.totalTokens = s.acc.totalTokens
  customers : ∀ s ∈ j.sessions, ∃ e ∈ j.arrived, eventScope e = s.scope ∧
    s.acc.customerId = e.customerId
  cost : ∀ k, k ∉ j.fired →
    openSum SpanAggregate.costUsd k j.sessions = eventSum price k j.arrived
  tokens : ∀ k, k ∉ j.fired → wrap64 (openSum SpanAggregate.totalTokens k j.sessions) =
    wrap64 (eventSum TokenEvent.getTotalTokens k j.arrived)
  calls : ∀ k, k ∉ j.fired → wrap32 (openSum SpanAggregate.callCount k j.sessions) =
    wrap32 (eventSum (fun _ => 1) k j.arrived)
  waiting : ∀ e ∈ j.arrived, eventScope e ∉ j.fired → ∃ s ∈ j.sessions, s.scope = eventScope e
  closed : ∀ k ∈ j.fired, (∀ s ∈ j.sessions, s.scope ≠ k) ∧
    ∃ t, j.store.spans k = some t ∧ Totals price k j.arrived t

variable {j j' : SpanJob}

theorem attributed_init (store : SpanStore) : Attributed price { store } := by
  constructor <;> simp [openSum, eventSum]

theorem Totals.cons {k : SpanKey} {es : List TokenEvent} {t : SpanTotals} (h : Totals price k es t)
    (hk : eventScope e ≠ k) : Totals price k (e :: es) t where
  cost := by rw [eventSum_cons, if_neg hk, zero_add]; exact h.cost
  tokens := by rw [eventSum_cons, if_neg hk, zero_add]; exact h.tokens
  calls := by rw [eventSum_cons, if_neg hk, zero_add]; exact h.calls
  customer := by
    obtain ⟨e', he', hscope, hcustomer⟩ := h.customer
    exact ⟨e', List.mem_cons_of_mem _ he', hscope, hcustomer⟩

theorem Totals.perm {k : SpanKey} {es es' : List TokenEvent} {t : SpanTotals}
    (h : Totals price k es t) (hperm : es.Perm es') : Totals price k es' t where
  cost := by rw [← eventSum_perm price k hperm]; exact h.cost
  tokens := by rw [← eventSum_perm TokenEvent.getTotalTokens k hperm]; exact h.tokens
  calls := by rw [← eventSum_perm (fun _ => (1 : ℤ)) k hperm]; exact h.calls
  customer := by
    obtain ⟨e', he', hrest⟩ := h.customer
    exact ⟨e', hperm.subset he', hrest⟩

variable (price) in
/-- The window of an event adds the event to the windows it replaces. -/
theorem openSum_merged {M : Type*} [AddCommMonoid M] (f : SpanAggregate → M) (k : SpanKey)
    (hsame : ∀ s ∈ j.sessions, touches e s → s.scope = eventScope e) :
    openSum f k (merged price e (j.sessions.filter (touches e)) ::
        j.sessions.filter fun s => ¬ touches e s) +
      (if eventScope e = k then ((j.sessions.filter (touches e)).map fun s => f s.acc).sum else 0) =
    (if eventScope e = k then f (merged price e (j.sessions.filter (touches e))).acc else 0) +
      openSum f k j.sessions := by
  have htouched : ∀ s ∈ j.sessions.filter (touches e), s.scope = eventScope e := by
    intro s hs
    obtain ⟨hs, htouch⟩ := List.mem_filter.mp hs
    exact hsame s hs htouch
  have hpart := openSum_partition f k (fun s => touches e s = true) j.sessions
  have hfilter : (j.sessions.filter fun s => decide (touches e s = true)) =
      j.sessions.filter (touches e) := by simp
  rw [hfilter] at hpart
  rw [openSum_cons, merged_scope price htouched, ← hpart]
  by_cases hk : eventScope e = k
  · rw [if_pos hk, if_pos hk, openSum_of_same f (k := k) fun s hs => (htouched s hs).trans hk]
    abel
  · have hother : openSum f k (j.sessions.filter (touches e)) = 0 :=
      openSum_of_other f fun s hs heq => hk ((htouched s hs).symm.trans heq)
    rw [if_neg hk, if_neg hk, hother]
    abel

variable (price) in
/-- How the sum over the open windows moves with the integer fields of one event. -/
theorem openSum_int (f : SpanAggregate → ℤ) (k : SpanKey)
    (hsame : ∀ s ∈ j.sessions, touches e s → s.scope = eventScope e) :
    openSum f k (merged price e (j.sessions.filter (touches e)) ::
        j.sessions.filter fun s => ¬ touches e s) = openSum f k j.sessions +
      if eventScope e = k then f (merged price e (j.sessions.filter (touches e))).acc -
        ((j.sessions.filter (touches e)).map fun s => f s.acc).sum else 0 := by
  have hsum := openSum_merged price f k hsame
  split_ifs at hsum ⊢
  · linarith
  · linarith

theorem stop_le_merged (e : TokenEvent) (touched : List Session) :
    (windowFor e).stop ≤ (merged price e touched).stop := by
  have hfold : ∀ (l : List Session) (t : ℤ), t ≤ l.foldl (fun t s => max t s.stop) t := by
    intro l
    induction l with
    | nil => exact fun t => le_refl t
    | cons s l ih => exact fun t => le_trans (le_max_left t s.stop) (ih _)
  exact hfold _ _

theorem addEvent_attributed (h : Attributed price j) (hok : j.Steady (.event e)) :
    Attributed price (j.addEvent price e) := by
  unfold addEvent
  by_cases hempty : e.parentSpanId.getD "" = ""
  · rw [if_pos hempty]
    exact h
  rw [if_neg hempty]
  obtain ⟨htimely, hopen, hsame⟩ := hok hempty
  have hstop := @stop_le_merged price e (j.sessions.filter (touches e))
  dsimp only
  rw [if_neg (by omega)]
  have htouched : ∀ s ∈ j.sessions.filter (touches e), s.scope = eventScope e := by
    intro s hs
    obtain ⟨hs, htouch⟩ := List.mem_filter.mp hs
    exact hsame s hs htouch
  have hscope := merged_scope price htouched
  have hmem : ∀ s, s ∈ j.sessions.filter (fun s => ¬ touches e s) → s ∈ j.sessions :=
    fun s hs => (List.mem_filter.mp hs).1
  obtain ⟨parent, hparent⟩ : ∃ p, e.parentSpanId = some p := by
    cases hp : e.parentSpanId with
    | none => simp [hp] at hempty
    | some p => exact ⟨p, rfl⟩
  constructor
  case ids =>
    intro s hs
    rcases List.mem_cons.mp hs with rfl | hs
    · refine ⟨?_, hempty⟩
      simp [merged, SpanAggregate.addEvent, hparent]
    · exact h.ids s (hmem s hs)
  case narrow =>
    intro s hs
    rcases List.mem_cons.mp hs with rfl | hs
    · simp only [merged, SpanAggregate.addEvent]
      unfold wrap32 wrap64
      constructor <;> omega
    · exact h.narrow s (hmem s hs)
  case customers =>
    intro s hs
    rcases List.mem_cons.mp hs with rfl | hs
    · exact ⟨e, List.mem_cons_self, hscope.symm, rfl⟩
    · obtain ⟨e', he', hrest⟩ := h.customers s (hmem s hs)
      exact ⟨e', List.mem_cons_of_mem _ he', hrest⟩
  case cost =>
    intro k hk
    have hsum := openSum_merged price SpanAggregate.costUsd k hsame
    have hcost : (merged price e (j.sessions.filter (touches e))).acc.costUsd =
        ((j.sessions.filter (touches e)).map fun s => s.acc.costUsd).sum + price e := by
      rw [← mergeAll_costUsd]
      rfl
    rw [hcost, h.cost k hk] at hsum
    rw [eventSum_cons]
    split_ifs at hsum ⊢ with hek
    · linarith
    · linarith
  case tokens =>
    intro k hk
    rw [openSum_int price SpanAggregate.totalTokens k hsame, eventSum_cons]
    have htokens : wrap64 (merged price e (j.sessions.filter (touches e))).acc.totalTokens =
        wrap64 (((j.sessions.filter (touches e)).map fun s => s.acc.totalTokens).sum +
          e.getTotalTokens) := by
      have hmerge := mergeAll_totalTokens (j.sessions.filter (touches e))
      simp only [merged, SpanAggregate.addEvent]
      unfold wrap64 at hmerge ⊢
      omega
    have hold := h.tokens k hk
    unfold wrap64 at hold htokens ⊢
    split_ifs with hek
    · omega
    · omega
  case calls =>
    intro k hk
    rw [openSum_int price SpanAggregate.callCount k hsame, eventSum_cons]
    have hcalls : wrap32 (merged price e (j.sessions.filter (touches e))).acc.callCount =
        wrap32 (((j.sessions.filter (touches e)).map fun s => s.acc.callCount).sum + 1) := by
      have hmerge := mergeAll_callCount (j.sessions.filter (touches e))
      simp only [merged, SpanAggregate.addEvent]
      unfold wrap32 at hmerge ⊢
      omega
    have hold := h.calls k hk
    unfold wrap32 at hold hcalls ⊢
    split_ifs with hek
    · omega
    · omega
  case waiting =>
    intro e' he' hfired
    by_cases hek : eventScope e' = eventScope e
    · exact ⟨_, List.mem_cons_self, hscope.trans hek.symm⟩
    · rcases List.mem_cons.mp he' with rfl | he'
      · exact absurd rfl hek
      · obtain ⟨s, hs, hse⟩ := h.waiting e' he' hfired
        refine ⟨s, List.mem_cons_of_mem _ (List.mem_filter.mpr ⟨hs, ?_⟩), hse⟩
        have hno : ¬ touches e s = true := fun ht => hek (hse.symm.trans (hsame s hs ht))
        simpa using hno
  case closed =>
    intro k hk
    have hek : eventScope e ≠ k := fun heq => hopen (heq ▸ hk)
    obtain ⟨hnone, t, hstore, htotals⟩ := h.closed k hk
    refine ⟨fun s hs => ?_, t, hstore, htotals.cons hek⟩
    rcases List.mem_cons.mp hs with rfl | hs
    · rw [hscope]
      exact hek
    · exact hnone s (hmem s hs)

theorem eq_of_countP_one {ss : List Session} {k : SpanKey}
    (hone : ss.countP (fun s => s.scope = k) = 1) {s s' : Session} (hs : s ∈ ss)
    (hk : s.scope = k) (hs' : s' ∈ ss) (hk' : s'.scope = k) : s = s' := by
  rw [List.countP_eq_length_filter, List.length_eq_one_iff] at hone
  obtain ⟨x, hx⟩ := hone
  have hmem : ∀ y ∈ ss, y.scope = k → y = x := by
    intro y hy hyk
    have hin : y ∈ ss.filter fun s => s.scope = k := List.mem_filter.mpr ⟨hy, by simpa using hyk⟩
    rw [hx] at hin
    exact List.mem_singleton.mp hin
  rw [hmem s hs hk, hmem s' hs' hk']

theorem mem_due {w : ℤ} {s : Session} : s ∈ j.due w ↔ s ∈ j.sessions ∧ s.stop - 1 ≤ w := by
  unfold due
  rw [List.mem_mergeSort, List.mem_filter, decide_eq_true_eq]

private theorem openSum_only {M : Type*} [AddCommMonoid M] (f : SpanAggregate → M) {s : Session}
    {ss : List Session} (hs : s ∈ ss)
    (hone : ss.countP (fun s' => s'.scope = s.scope) = 1) : openSum f s.scope ss = f s.acc := by
  unfold openSum
  rw [List.countP_eq_length_filter, List.length_eq_one_iff] at hone
  obtain ⟨x, hx⟩ := hone
  have hin : s ∈ ss.filter fun s' => s'.scope = s.scope :=
    List.mem_filter.mpr ⟨hs, by simp⟩
  rw [hx] at hin ⊢
  rw [← List.mem_singleton.mp hin, List.map_singleton, List.sum_singleton]

private theorem advance_attributed {w : ℤ} (h : Attributed price j) (hok : j.Steady (.watermark w)) :
    Attributed price (j.advance w) := by
  unfold advance
  split_ifs with hw
  · exact h
  have hids : ∀ s ∈ j.due w, ∃ id, s.acc.spanId = some id ∧ id ≠ "" :=
    fun s hs => ⟨s.spanId, h.ids s (mem_due.mp hs).1⟩
  have hmem : ∀ s, s ∈ j.sessions.filter (fun s => ¬ s.stop - 1 ≤ w) →
      s ∈ j.sessions ∧ s ∉ j.due w := by
    intro s hs
    obtain ⟨hin, hlate⟩ := List.mem_filter.mp hs
    exact ⟨hin, fun hdue => (of_decide_eq_true hlate) (mem_due.mp hdue).2⟩
  -- a span that did not fire keeps its windows
  have hkept : ∀ k, k ∉ (j.due w).map Session.scope → ∀ {M : Type} [AddCommMonoid M]
      (f : SpanAggregate → M), openSum f k (j.sessions.filter fun s => ¬ s.stop - 1 ≤ w) =
        openSum f k j.sessions := by
    intro k hk M _ f
    have hfired : openSum f k (j.sessions.filter fun s => s.stop - 1 ≤ w) = 0 := by
      apply openSum_of_other f
      intro s hs heq
      obtain ⟨hin, hdue⟩ := List.mem_filter.mp hs
      exact hk (List.mem_map.mpr ⟨s, mem_due.mpr ⟨hin, of_decide_eq_true hdue⟩, heq⟩)
    rw [← openSum_partition f k (fun s => s.stop - 1 ≤ w) j.sessions, hfired, zero_add]
  constructor
  case ids => exact fun s hs => h.ids s (hmem s hs).1
  case narrow => exact fun s hs => h.narrow s (hmem s hs).1
  case customers => exact fun s hs => h.customers s (hmem s hs).1
  case cost =>
    intro k hk
    rw [List.mem_append, not_or] at hk
    rw [hkept k hk.1]
    exact h.cost k hk.2
  case tokens =>
    intro k hk
    rw [List.mem_append, not_or] at hk
    rw [hkept k hk.1]
    exact h.tokens k hk.2
  case calls =>
    intro k hk
    rw [List.mem_append, not_or] at hk
    rw [hkept k hk.1]
    exact h.calls k hk.2
  case waiting =>
    intro e he hk
    rw [List.mem_append, not_or] at hk
    obtain ⟨s, hs, hse⟩ := h.waiting e he hk.2
    refine ⟨s, List.mem_filter.mpr ⟨hs, decide_eq_true fun hdue => hk.1 ?_⟩, hse⟩
    exact List.mem_map.mpr ⟨s, mem_due.mpr ⟨hs, hdue⟩, hse⟩
  case closed =>
    intro k hk
    by_cases hnew : k ∈ (j.due w).map Session.scope
    · obtain ⟨s, hs, rfl⟩ := List.mem_map.mp hnew
      obtain ⟨hin, hdue⟩ := mem_due.mp hs
      have hone := hok s hin hdue
      have honly : ∀ s' ∈ j.sessions, s'.scope = s.scope → s' = s :=
        fun s' hs' hk' => eq_of_countP_one hone hs' hk' hin rfl
      -- a window that is still open has its span not fired yet
      have hopen : s.scope ∉ j.fired := fun hfired => (h.closed _ hfired).1 s hin rfl
      refine ⟨fun s' hs' hk' => ?_, totalsOf s.acc, ?_, ?_⟩
      · obtain ⟨hin', hnot⟩ := hmem s' hs'
        exact hnot (honly s' hin' hk' ▸ hs)
      · exact (foldl_spanSink (j.due w) hids j.store).2 s hs rfl
          fun s' hs' hk' => honly s' (mem_due.mp hs').1 hk'
      · obtain ⟨hcalls, htokens⟩ := h.narrow s hin
        have hcost := h.cost _ hopen
        have htokens' := h.tokens _ hopen
        have hcalls' := h.calls _ hopen
        rw [openSum_only _ hin hone] at hcost htokens' hcalls'
        obtain ⟨e, he, hscope, hcustomer⟩ := h.customers s hin
        exact ⟨hcost, htokens.symm.trans htokens', hcalls.symm.trans hcalls', e, he, hscope,
          hcustomer⟩
    · have hold := (List.mem_append.mp hk).resolve_left hnew
      obtain ⟨hnone, t, hstore, htotals⟩ := h.closed k hold
      refine ⟨fun s hs => hnone s (hmem s hs).1, t, ?_, htotals⟩
      have hsame := (foldl_spanSink (j.due w) hids j.store).1 fun s hs heq =>
        hnew (List.mem_map.mpr ⟨s, hs, heq⟩)
      exact hsame.trans hstore

theorem step_attributed {a : SpanAction} (h : Attributed price j) (hok : j.Steady a)
    (hstep : j.step price a = some j') : Attributed price j' := by
  cases a with
  | event e => exact Option.some.inj hstep ▸ addEvent_attributed h hok
  | watermark w => exact Option.some.inj hstep ▸ advance_attributed h hok

theorem step_unfired {a : SpanAction} (h : Attributed price j) (hstep : j.step price a = some j')
    {k : SpanKey} (hk : k ∉ j'.fired) : k ∉ j.fired ∧ j'.store.spans k = j.store.spans k := by
  cases a with
  | event e =>
    have hsame : (j.addEvent price e).fired = j.fired ∧ (j.addEvent price e).store = j.store := by
      unfold addEvent
      dsimp only
      split_ifs
      · exact ⟨rfl, rfl⟩
      · exact ⟨rfl, rfl⟩
      · exact ⟨rfl, rfl⟩
    rw [← Option.some.inj hstep] at hk ⊢
    rw [hsame.1] at hk
    rw [hsame.2]
    exact ⟨hk, rfl⟩
  | watermark w =>
    have hids : ∀ s ∈ j.due w, ∃ id, s.acc.spanId = some id ∧ id ≠ "" :=
      fun s hs => ⟨s.spanId, h.ids s (mem_due.mp hs).1⟩
    rw [← Option.some.inj hstep] at hk ⊢
    unfold advance at hk ⊢
    split_ifs at hk ⊢ with hw
    · exact ⟨hk, rfl⟩
    · rw [List.mem_append, not_or] at hk
      refine ⟨hk.2, (foldl_spanSink (j.due w) hids j.store).1 fun s hs heq => ?_⟩
      exact hk.1 (List.mem_map.mpr ⟨s, hs, heq⟩)

theorem step_arrived {a : SpanAction} (hok : j.Steady a) (hstep : j.step price a = some j') :
    j'.arrived = a.carried.toList ++ j.arrived := by
  cases a with
  | event e =>
    rw [← Option.some.inj hstep]
    unfold addEvent SpanAction.carried
    dsimp only
    by_cases hempty : e.parentSpanId.getD "" = ""
    · rw [if_pos hempty, if_pos hempty]
      rfl
    · have htimely := (hok hempty).1
      have hstop := @stop_le_merged price e (j.sessions.filter (touches e))
      rw [if_neg hempty, if_neg hempty, if_neg (by omega)]
      rfl
  | watermark w =>
    rw [← Option.some.inj hstep]
    unfold advance
    split_ifs
    · rfl
    · rfl

theorem run_arrived {actions : List SpanAction} (hok : Guarded (step price) Steady j actions)
    (hrun : run (step price) j actions = some j') :
    j'.arrived.Perm (spanEvents actions ++ j.arrived) := by
  induction actions generalizing j with
  | nil =>
    obtain rfl := Option.some.inj hrun
    exact List.Perm.refl _
  | cons a actions ih =>
    obtain ⟨i, hi, hrest⟩ := run_cons_eq_some.mp hrun
    have hperm := ih (hok.2 i hi) hrest
    rw [step_arrived hok.1 hi] at hperm
    refine hperm.trans ?_
    have hcons : spanEvents (a :: actions) = a.carried.toList ++ spanEvents actions := by
      unfold spanEvents
      rw [List.filterMap_cons]
      cases a.carried <;> rfl
    rw [hcons, ← List.append_assoc]
    exact List.perm_append_comm.append_right _

def spanEvent (tenant customer : String) (timestamp : ℤ) : TokenEvent :=
  { tenantId := some tenant, customerId := some customer, parentSpanId := some "s"
    inputTokens := 1, timestamp }

instance {j : SpanJob} : ∀ a, Decidable (Steady j a)
  | .event e => inferInstanceAs (Decidable (e.parentSpanId.getD "" ≠ "" →
      j.watermark < (windowFor e).stop - 1 ∧ eventScope e ∉ j.fired ∧
        ∀ s ∈ j.sessions, touches e s → s.scope = eventScope e))
  | .watermark w => inferInstanceAs (Decidable (∀ s ∈ j.sessions, s.stop - 1 ≤ w →
      j.sessions.countP (fun s' => s'.scope = s.scope) = 1))

/-- Two sessions of a span that a third event joins. -/
def bridged : List SpanAction :=
  [.event (spanEvent "t" "a" 0), .event (spanEvent "t" "b" 120000), .event (spanEvent "t" "a" 60000),
    .watermark 300000]

end SpanJob

end FluxMeter.Job
