import FluxMeter.Job.MonthlyVolume
import FluxMeter.Usage.Rollups
import Mathlib.Algebra.BigOperators.Field
import Mathlib.Algebra.BigOperators.Ring.Finset

/-! The month and the day that an event is accounted to: the meter takes the time of the event, the
projection the time it was received, and the window sinks the end of its window, which is the first
instant after it. -/
namespace FluxMeter.Usage
open FluxMeter.Budget FluxMeter.Job FluxMeter.Keys FluxMeter.Model Transition

/-! ### One event -/

def windowEnd (w : TumblingWindows) (e : TokenEvent) : ℤ := wrap64 (w.start e.timestamp + w.size)

def InWindow (w : TumblingWindows) (e : TokenEvent) : Prop :=
  w.start e.timestamp ≤ e.timestamp ∧ e.timestamp < windowEnd w e

/-- The keys of a window name the month and the day of an event in it, and the month is the one for
which the meter counts the event. -/
structure PeriodsAgree (agg : UsageAggregate) (timestamp : ℤ) : Prop where
  volume : (sinkKeys agg).periodVolume = periodVolumeKey agg.tenantId
    (TokenEvent.orNull agg.customerId) (TokenEvent.orNull agg.modelId) timestamp
  month : (sinkKeys agg).periodRollup =
    rollupMonthKey (TokenEvent.orNull agg.customerId) (monthUtc timestamp)
  day : (sinkKeys agg).dayRollup =
    rollupDayKey (TokenEvent.orNull agg.customerId) (dayUtc timestamp)
  customers : (sinkKeys agg).periodCustomers = periodCustomersIndex (monthUtc timestamp)
  metered : ∀ m : MonthlyVolumeMeter,
    (m.rollPeriodIfNeeded timestamp).billingPeriod = some (monthUtc agg.windowEnd)

section Window
variable {w : TumblingWindows} {e : TokenEvent}

private theorem windowEnd_eq (hsize : w.size ≤ 86400000) (hin : InWindow w e) :
    windowEnd w e = e.timestamp - e.timestamp % w.size + w.size := by
  have hlow := Int.emod_nonneg e.timestamp (Int.ne_of_gt w.size_pos)
  have hhigh := Int.emod_lt_of_pos e.timestamp w.size_pos
  obtain ⟨hstart, hend⟩ := hin
  unfold windowEnd at hend ⊢
  rw [w.aligned] at hstart hend ⊢
  unfold wrap64 at hstart hend ⊢
  omega

theorem windowEnd_day (hday : w.size ∣ 86400000) (hin : InWindow w e) :
    (windowEnd w e - 1) / 86400000 = e.timestamp / 86400000 := by
  have hpos := w.size_pos
  have hsize : w.size ≤ 86400000 := Int.le_of_dvd (by decide) hday
  have hlast : (windowEnd w e - 1) / w.size = e.timestamp / w.size := by
    have hparts := Int.mul_ediv_add_emod e.timestamp w.size
    have hend : windowEnd w e - 1 = w.size - 1 + w.size * (e.timestamp / w.size) := by
      rw [windowEnd_eq hsize hin]
      omega
    rw [hend, Int.add_mul_ediv_left _ _ (Int.ne_of_gt hpos), Int.ediv_eq_zero_of_lt (by omega) (by omega),
      Int.zero_add]
  obtain ⟨k, hk⟩ := hday
  rw [hk, ← Int.ediv_ediv_of_nonneg hpos.le, ← Int.ediv_ediv_of_nonneg hpos.le, hlast]

theorem periodsAgree_fire (price : UsageAggregate.Pricing) (before : TokenEvent → ℤ)
    (es : List TokenEvent) (hday : w.size ∣ 86400000) (hin : InWindow w e) :
    PeriodsAgree (fire price before w es e) e.timestamp ↔ windowEnd w e % 86400000 ≠ 0 := by
  have hlast := windowEnd_day hday hin
  have hend : (fire price before w es e).windowEnd = windowEnd w e := rfl
  constructor
  · intro h hmidnight
    have hkeys := h.day
    unfold rollupDayKey at hkeys
    have hdays : dayUtc (windowEnd w e) = dayUtc e.timestamp := (String.append_right_inj _).mp hkeys
    have hsame := dayUtc_iff.mp hdays
    omega
  · intro hmidnight
    have hsame : windowEnd w e / 86400000 = e.timestamp / 86400000 := by omega
    have hmonth : monthUtc (fire price before w es e).windowEnd = monthUtc e.timestamp :=
      monthUtc_of_day hsame
    have hdays : dayUtc (fire price before w es e).windowEnd = dayUtc e.timestamp :=
      dayUtc_iff.mpr hsame
    constructor
    case volume =>
      unfold sinkKeys periodVolumeKey
      dsimp only
      rw [hmonth]
    case month =>
      unfold sinkKeys rollupMonthKey
      dsimp only
      rw [hmonth]
    case day =>
      unfold sinkKeys rollupDayKey
      dsimp only
      rw [hdays]
    case customers =>
      unfold sinkKeys periodCustomersIndex
      dsimp only
      rw [hmonth]
    case metered =>
      intro m
      rw [hmonth]
      unfold MonthlyVolumeMeter.rollPeriodIfNeeded
      split_ifs with hm
      · exact hm
      · rfl

/-- The month changes within the window of an event only where the window ends a month. -/
theorem month_windowEnd (hday : w.size ∣ 86400000) (hin : InWindow w e) :
    monthUtc (windowEnd w e) = monthUtc e.timestamp ↔ ¬ MonthBegins (windowEnd w e) := by
  rw [monthBegins_iff, not_not, monthUtc_of_day (windowEnd_day hday hin), eq_comm]

end Window

/-! ### The sums of a window -/

theorem distinctEvents_of_ids {ms : List TokenEvent} (hnodup : ms.Nodup)
    (hids : ∀ x ∈ ms, ∀ y ∈ ms, x.eventId = y.eventId → x = y) :
    ∀ seen, (∀ x ∈ ms, ∀ id, x.eventId = some id → id ∉ seen) → distinctEvents seen ms = ms := by
  induction ms with
  | nil => exact fun _ _ => rfl
  | cons e ms ih =>
    intro seen hseen
    obtain ⟨hnew, hnodup⟩ := List.nodup_cons.mp hnodup
    have hids' : ∀ x ∈ ms, ∀ y ∈ ms, x.eventId = y.eventId → x = y := fun x hx y hy =>
      hids x (List.mem_cons_of_mem e hx) y (List.mem_cons_of_mem e hy)
    have hseen' : ∀ x ∈ ms, ∀ id, x.eventId = some id → id ∉ seen := fun x hx =>
      hseen x (List.mem_cons_of_mem e hx)
    unfold distinctEvents
    cases hid : e.eventId with
    | none =>
      dsimp only
      rw [ih hnodup hids' seen hseen']
    | some id =>
      dsimp only
      rw [if_neg (hseen e List.mem_cons_self id hid), ih hnodup hids']
      intro x hx id' hid' hmem
      rcases List.mem_cons.mp hmem with rfl | hmem
      · have hsame := hids x (List.mem_cons_of_mem e hx) e List.mem_cons_self (hid'.trans hid.symm)
        exact hnew (hsame ▸ hx)
      · exact hseen' x hx id' hid' hmem

/-- The sums of the events fit a `long`. -/
structure SumsFit (price : TokenEvent → ℤ) (ms : List TokenEvent) : Prop where
  input : isLong (ms.map TokenEvent.inputTokens).sum
  output : isLong (ms.map TokenEvent.outputTokens).sum
  total : isLong (ms.map TokenEvent.getTotalTokens).sum
  events : isLong ms.length
  cost : isLong (ms.map price).sum

theorem ofWindow_eq_sum {price : TokenEvent → ℤ} {ms : List TokenEvent} {agg : UsageAggregate}
    (hnodup : ms.Nodup) (h : Sums price ms agg) (hfit : SumsFit price ms) (field : RollupField) :
    field.ofWindow agg = ∑ x ∈ ms.toFinset, field.ofEvent (price x) x := by
  have hsum : ∀ f : TokenEvent → ℤ, ((ms.map f).sum : ℚ) = ∑ x ∈ ms.toFinset, (f x : ℚ) := by
    intro f
    rw [← List.sum_toFinset f hnodup]
    exact Int.cast_sum _ _
  cases field with
  | inputTokens =>
    show (agg.inputTokens : ℚ) = ∑ x ∈ ms.toFinset, (x.inputTokens : ℚ)
    rw [h.input, (wrap64_eq_self_iff _).mpr hfit.input, hsum]
  | outputTokens =>
    show (agg.outputTokens : ℚ) = ∑ x ∈ ms.toFinset, (x.outputTokens : ℚ)
    rw [h.output, (wrap64_eq_self_iff _).mpr hfit.output, hsum]
  | totalTokens =>
    show (agg.totalTokens : ℚ) = ∑ x ∈ ms.toFinset, (x.getTotalTokens : ℚ)
    rw [h.total, (wrap64_eq_self_iff _).mpr hfit.total, hsum]
  | eventCount =>
    show (agg.eventCount : ℚ) = ∑ x ∈ ms.toFinset, (1 : ℚ)
    rw [h.events, (wrap64_eq_self_iff _).mpr hfit.events, Finset.sum_const,
      List.toFinset_card_of_nodup hnodup]
    simp
  | costUsd =>
    show (agg.costMicro : ℚ) / 1000000 = ∑ x ∈ ms.toFinset, (price x : ℚ) / 1000000
    rw [h.cost, (wrap64_eq_self_iff _).mpr hfit.cost, hsum, Finset.sum_div]

/-! ### The rollups of a set of events -/

def customerOf (e : TokenEvent) : String := TokenEvent.orNull e.customerId

def eventsOf (es : List TokenEvent) (c : String) : Finset TokenEvent :=
  es.toFinset.filter fun x => customerOf x = c

theorem mem_eventsOf {es : List TokenEvent} {c : String} {x : TokenEvent} :
    x ∈ eventsOf es c ↔ x ∈ es ∧ customerOf x = c := by
  unfold eventsOf
  rw [Finset.mem_filter, List.mem_toFinset]

section Rollups
variable (P : Projection) (before : TokenEvent → ℤ) (w : TumblingWindows) (es : List TokenEvent)

/-- The model under which the projection rolls an event up. -/
def modelOf (e : TokenEvent) : String := P.catalog.normalizeModelId e.modelId

def priceOf (e : TokenEvent) : ℤ := P.catalog.calculateEventCostMicro e (before e)

def fired (e : TokenEvent) : UsageAggregate :=
  fire P.catalog.calculateEventCostMicro before w es e

/-- The steps bring every event and every window of the events to its sink, once or more often and
in any order, and nothing else. -/
structure Delivers (steps : List SinkStep) : Prop where
  windows : ∀ agg, SinkStep.window agg ∈ steps ↔ ∃ e ∈ es, agg = fired P before w es e
  events : ∀ e, (∃ clock, SinkStep.event e clock ∈ steps) ↔ e ∈ es

/-- Every event in turn, after its window. -/
def inTurn : List SinkStep :=
  es.flatMap fun e => [.window (fired P before w es e), .event e ""]

theorem delivers_inTurn : Delivers P before w es (inTurn P before w es) := by
  unfold inTurn
  constructor
  · intro agg
    simp [List.mem_flatMap]
  · intro e
    simp [List.mem_flatMap]

def modelsOf (c : String) : Finset String := (eventsOf es c).image (modelOf P)

/-- After every run over the events, the monthly rollup of each customer is the sum of the rollups of
its models, field by field. -/
def RollupsAgree : Prop :=
  ∀ steps, Delivers P before w es steps → ∀ e ∈ es, ∀ (t : ℤ) (field : RollupField),
    field.read (steps.foldl (SinkStep.run P before) {}).usage
        (rollupMonthKey (customerOf e) (monthUtc t)) =
      ∑ m ∈ modelsOf P es (customerOf e), field.read (steps.foldl (SinkStep.run P before) {}).usage
        (modelPeriodKey (customerOf e) m (monthUtc t))

/-- What the rollups need besides the ends of the windows: ids that tell the events apart, names that
the keys of windows and rollups tell apart, sums within `long`, and events received in their month. -/
structure Tallied : Prop where
  nodup : es.Nodup
  deserialized : ∀ e ∈ es, Deserialized e
  plain : ∀ e ∈ es, PlainFields e
  ids : ∀ x ∈ es, ∀ y ∈ es, P.projectionKey x.eventId = P.projectionKey y.eventId → x = y
  customers : ∀ x ∈ es, ∀ y ∈ es,
    customerOf x ++ ":model:" ++ modelOf P x = customerOf y ++ ":model:" ++ modelOf P y →
    customerOf x = customerOf y
  models : ∀ x ∈ es, ∀ y ∈ es, customerOf x ≠ customerOf y ++ ":model:" ++ modelOf P y
  fits : ∀ e ∈ es, SumsFit (priceOf P before) (windowMembers w es e)
  received : ∀ e ∈ es, 0 < e.receivedAt → monthUtc e.receivedAt = monthUtc e.timestamp

end Rollups

/-- The events of a customer whose windows end in the month of `t`. -/
def endingIn (w : TumblingWindows) (es : List TokenEvent) (c : String) (t : ℤ) : Finset TokenEvent :=
  (eventsOf es c).filter fun x => monthUtc (windowEnd w x) = monthUtc t

/-- The events of a customer that the projection accounts to the month of `t`. -/
def accountedIn (es : List TokenEvent) (c : String) (t : ℤ) : Finset TokenEvent :=
  (eventsOf es c).filter fun x => monthUtc (Projection.accountingTime x) = monthUtc t

namespace Tallied
variable {P : Projection} {before : TokenEvent → ℤ} {w : TumblingWindows} {es : List TokenEvent}
  {e x : TokenEvent}

/-- The months of the accounting times are those of the events. -/
theorem accounting_month (h : Tallied P before w es) (he : e ∈ es) :
    monthUtc (Projection.accountingTime e) = monthUtc e.timestamp := by
  unfold Projection.accountingTime
  split_ifs with hreceived
  · exact h.received e he hreceived
  · rfl

theorem idOf_fired (h : Tallied P before w es) (he : e ∈ es) :
    idOf (fired P before w es e) = projectionWindowId w.size e :=
  sinkKeys_fire_windowId h.deserialized h.plain he

theorem customer_fired (h : Tallied P before w es) (he : e ∈ es) :
    TokenEvent.orNull (fired P before w es e).customerId = customerOf e :=
  congrArg TokenEvent.orNull
    (fire_fields P.catalog.calculateEventCostMicro before w h.deserialized h.plain he).2.1

theorem windowId_iff (h : Tallied P before w es) (hx : x ∈ es) (he : e ∈ es) :
    projectionWindowId w.size x = projectionWindowId w.size e ↔ x ∈ windowMembers w es e := by
  have hmember : x ∈ windowMembers w es e ↔ x.getAggregationKey = e.getAggregationKey ∧
      w.start x.timestamp = w.start e.timestamp := by
    unfold windowMembers
    rw [List.mem_filter, decide_eq_true_iff]
    exact and_iff_right hx
  have hattributed : Attributed P.catalog.calculateEventCostMicro before w es :=
    attributed_of_plain h.deserialized h.plain
  rw [hmember]
  constructor
  · intro hid
    have hsame : (x.tenantId, x.customerId, x.modelId, w.start x.timestamp) =
        (e.tenantId, e.customerId, e.modelId, w.start e.timestamp) := by
      by_contra hne
      exact (hattributed.distinct x hx e he hne).2 hid
    simp only [Prod.mk.injEq] at hsame
    obtain ⟨htenant, hcustomer, hmodel, hstart⟩ := hsame
    refine ⟨?_, hstart⟩
    unfold TokenEvent.getAggregationKey
    rw [htenant, hcustomer, hmodel]
  · rintro ⟨hkey, hstart⟩
    have hfired : fired P before w es x = fired P before w es e := by
      unfold fired fire
      rw [hkey, hstart]
    rw [← h.idOf_fired hx, ← h.idOf_fired he, hfired]

theorem of_windowId (h : Tallied P before w es) (hx : x ∈ es) (he : e ∈ es)
    (hid : projectionWindowId w.size x = projectionWindowId w.size e) :
    customerOf x = customerOf e ∧ windowEnd w x = windowEnd w e := by
  have hmember := (h.windowId_iff hx he).mp hid
  unfold windowMembers at hmember
  obtain ⟨hkey, hstart⟩ := of_decide_eq_true (List.mem_filter.mp hmember).2
  have hfired : fired P before w es x = fired P before w es e := by
    unfold fired fire
    rw [hkey, hstart]
  constructor
  · rw [← h.customer_fired hx, ← h.customer_fired he, hfired]
  · unfold windowEnd
    rw [hstart]

theorem ofWindow_fired (h : Tallied P before w es) (he : e ∈ es) (field : RollupField) :
    field.ofWindow (fired P before w es e) =
      ∑ x ∈ (windowMembers w es e).toFinset, field.ofEvent (priceOf P before x) x := by
  have hnodup : (windowMembers w es e).Nodup := h.nodup.filter _
  have hids : ∀ x ∈ windowMembers w es e, ∀ y ∈ windowMembers w es e,
      x.eventId = y.eventId → x = y := by
    intro x hx y hy hid
    apply h.ids x (List.mem_filter.mp hx).1 y (List.mem_filter.mp hy).1
    rw [hid]
  have hcounted : windowEvents w es e = windowMembers w es e :=
    distinctEvents_of_ids hnodup hids [] fun _ _ _ _ => List.not_mem_nil
  have hsums := fire_sums P.catalog.calculateEventCostMicro before w es e
  rw [hcounted] at hsums
  exact ofWindow_eq_sum hnodup hsums (h.fits e he) field

theorem sum_endingIn (h : Tallied P before w es) (he : e ∈ es) (c : String) (t : ℤ)
    (field : RollupField) :
    ∑ x ∈ endingIn w es c t with projectionWindowId w.size x = projectionWindowId w.size e,
        field.ofEvent (priceOf P before x) x =
      if customerOf e = c ∧ monthUtc (windowEnd w e) = monthUtc t then
        field.ofWindow (fired P before w es e)
      else 0 := by
  have hsame : ∀ x ∈ endingIn w es c t,
      projectionWindowId w.size x = projectionWindowId w.size e →
      customerOf e = c ∧ monthUtc (windowEnd w e) = monthUtc t := by
    intro x hx hid
    obtain ⟨hx, hmonth⟩ := Finset.mem_filter.mp hx
    obtain ⟨hmem, hcustomer⟩ := mem_eventsOf.mp hx
    obtain ⟨hcustomer', hend⟩ := h.of_windowId hmem he hid
    exact ⟨hcustomer'.symm.trans hcustomer, hend ▸ hmonth⟩
  split_ifs with hmonth
  · rw [h.ofWindow_fired he]
    congr 1
    ext x
    rw [Finset.mem_filter, List.mem_toFinset]
    constructor
    · rintro ⟨hx, hid⟩
      have hmem := (mem_eventsOf.mp (Finset.mem_filter.mp hx).1).1
      exact (h.windowId_iff hmem he).mp hid
    · intro hmember
      have hx : x ∈ es := (List.mem_filter.mp hmember).1
      have hid := (h.windowId_iff hx he).mpr hmember
      obtain ⟨hcustomer, hend⟩ := h.of_windowId hx he hid
      refine ⟨Finset.mem_filter.mpr ⟨mem_eventsOf.mpr ⟨hx, ?_⟩, ?_⟩, hid⟩
      · rw [hcustomer, hmonth.1]
      · rw [hend, hmonth.2]
  · apply Finset.sum_eq_zero
    intro x hx
    obtain ⟨hx, hid⟩ := Finset.mem_filter.mp hx
    exact absurd (hsame x hx hid) hmonth

theorem sum_accountedIn (h : Tallied P before w es) (he : e ∈ es) (c m : String) (t : ℤ)
    (f : TokenEvent → ℚ) :
    ∑ x ∈ (accountedIn es c t).filter (fun x => modelOf P x = m) with
        P.projectionKey x.eventId = P.projectionKey e.eventId, f x =
      if (customerOf e = c ∧ monthUtc (Projection.accountingTime e) = monthUtc t) ∧
          modelOf P e = m then f e
      else 0 := by
  have hown : ∀ x, x ∈ ((accountedIn es c t).filter fun x => modelOf P x = m).filter
      (fun x => P.projectionKey x.eventId = P.projectionKey e.eventId) → x = e := by
    intro x hx
    obtain ⟨hx, hkey⟩ := Finset.mem_filter.mp hx
    have hcustomer := (Finset.mem_filter.mp (Finset.mem_filter.mp hx).1).1
    exact h.ids x (mem_eventsOf.mp hcustomer).1 e he hkey
  have hmem : e ∈ (accountedIn es c t).filter (fun x => modelOf P x = m) ↔
      (customerOf e = c ∧ monthUtc (Projection.accountingTime e) = monthUtc t) ∧
        modelOf P e = m := by
    unfold accountedIn
    rw [Finset.mem_filter, Finset.mem_filter, mem_eventsOf, and_iff_right he]
  split_ifs with hmonth
  · have hself : e ∈ ((accountedIn es c t).filter fun x => modelOf P x = m).filter
        (fun x => P.projectionKey x.eventId = P.projectionKey e.eventId) :=
      Finset.mem_filter.mpr ⟨hmem.mpr hmonth, rfl⟩
    exact Finset.sum_eq_single_of_mem e hself fun x hx hne => absurd (hown x hx) hne
  · apply Finset.sum_eq_zero
    intro x hx
    have hxe := hown x hx
    subst hxe
    exact absurd (hmem.mp (Finset.mem_filter.mp hx).1) hmonth

/-! ### Runs -/

theorem modelRollup_eq (P : Projection) (e : TokenEvent) : (P.keys e).modelRollup =
    modelPeriodKey (customerOf e) (modelOf P e) (monthUtc (Projection.accountingTime e)) := rfl

theorem periodRollup_fired (h : Tallied P before w es) (he : e ∈ es) (c : String) (t : ℤ) :
    (sinkKeys (fired P before w es e)).periodRollup = rollupMonthKey c (monthUtc t) ↔
      customerOf e = c ∧ monthUtc (windowEnd w e) = monthUtc t := by
  have hkey : (sinkKeys (fired P before w es e)).periodRollup = rollupMonthKey
      (TokenEvent.orNull (fired P before w es e).customerId) (monthUtc (windowEnd w e)) := rfl
  rw [hkey, h.customer_fired he, rollupMonthKey_iff]

theorem windows_count (h : Tallied P before w es) {steps : List SinkStep}
    (hsteps : Delivers P before w es steps) (he : e ∈ es) (t : ℤ) (field : RollupField)
    {step : SinkStep} (hstep : step ∈ steps) :
    CountsOnce (fun (s : Keyspace) id => s.applied id = true)
      (fun s => field.read s.usage (rollupMonthKey (customerOf e) (monthUtc t)))
      (fun id => ∑ x ∈ endingIn w es (customerOf e) t with projectionWindowId w.size x = id,
        field.ofEvent (priceOf P before x) x)
      SinkStep.windowKey (SinkStep.run P before) step := by
  cases step with
  | window agg =>
    obtain ⟨e', he', rfl⟩ := (hsteps.windows agg).mp hstep
    have hday : (sinkKeys (fired P before w es e')).dayRollup ≠
        rollupMonthKey (customerOf e) (monthUtc t) := rollupDayKey_ne _ _ _ _
    constructor
    case marks =>
      intro s id
      show (applyWindow s (fired P before w es e')).applied id = true ↔ some (idOf _) = some id ∨ _
      rw [applied_applyWindow, Option.some.injEq, eq_comm]
    case first =>
      rintro s id hid hfresh
      have hid' : idOf (fired P before w es e') = id := Option.some.inj hid
      subst hid'
      show field.read (applyWindow s (fired P before w es e')).usage _ = _
      rw [read_applyWindow, if_neg hfresh, if_neg hday, add_zero]
      simp only [h.periodRollup_fired he']
      rw [h.idOf_fired he', h.sum_endingIn he']
    case again =>
      intro s id hid hdone
      have hid' : idOf (fired P before w es e') = id := Option.some.inj hid
      subst hid'
      show field.read (applyWindow s (fired P before w es e')).usage _ = _
      rw [read_applyWindow, if_pos hdone, add_zero]
    case other => exact fun s hnone => absurd hnone (Option.some_ne_none _)
  | event e' clock =>
    have he' : e' ∈ es := (hsteps.events e').mp ⟨clock, hstep⟩
    have hkey : (P.keys e').modelRollup ≠ rollupMonthKey (customerOf e) (monthUtc t) := by
      rw [modelRollup_eq, modelPeriodKey_eq, Ne, rollupMonthKey_iff]
      exact fun hsame => h.models e he e' he' hsame.1.symm
    constructor
    case marks =>
      intro s id
      show (P.apply s e' (before e') clock).1.applied id = true ↔ none = some id ∨ _
      rw [applied_apply]
      simp
    case first => exact fun s id hid => absurd hid (Option.some_ne_none _).symm
    case again => exact fun s id hid => absurd hid (Option.some_ne_none _).symm
    case other =>
      intro s _
      show field.read (P.apply s e' (before e') clock).1.usage _ = _
      rw [read_apply, if_neg hkey, ite_self, add_zero]

theorem events_count (h : Tallied P before w es) {steps : List SinkStep}
    (hsteps : Delivers P before w es steps) (he : e ∈ es) (t : ℤ) (field : RollupField)
    {step : SinkStep} (hstep : step ∈ steps) :
    CountsOnce (fun (s : Keyspace) key => s.projected key = true)
      (fun s => field.read s.usage (modelPeriodKey (customerOf e) (modelOf P e) (monthUtc t)))
      (fun key => ∑ x ∈ (accountedIn es (customerOf e) t).filter (fun x => modelOf P x = modelOf P e)
          with P.projectionKey x.eventId = key, field.ofEvent (priceOf P before x) x)
      (SinkStep.eventKey P) (SinkStep.run P before) step := by
  cases step with
  | window agg =>
    obtain ⟨e', he', rfl⟩ := (hsteps.windows agg).mp hstep
    have hday : (sinkKeys (fired P before w es e')).dayRollup ≠
        modelPeriodKey (customerOf e) (modelOf P e) (monthUtc t) := by
      rw [modelPeriodKey_eq]
      exact rollupDayKey_ne _ _ _ _
    have hmonth : (sinkKeys (fired P before w es e')).periodRollup ≠
        modelPeriodKey (customerOf e) (modelOf P e) (monthUtc t) := by
      rw [modelPeriodKey_eq, Ne, h.periodRollup_fired he']
      exact fun hsame => h.models e' he' e he hsame.1
    constructor
    case marks =>
      intro s key
      exact (or_iff_right (Option.some_ne_none key).symm).symm
    case first => exact fun s id hid => absurd hid (Option.some_ne_none _).symm
    case again => exact fun s id hid => absurd hid (Option.some_ne_none _).symm
    case other =>
      intro s _
      show field.read (applyWindow s (fired P before w es e')).usage _ = _
      rw [read_applyWindow, if_neg hday, if_neg hmonth, add_zero, ite_self, add_zero]
  | event e' clock =>
    have he' : e' ∈ es := (hsteps.events e').mp ⟨clock, hstep⟩
    have hkey : (P.keys e').modelRollup =
        modelPeriodKey (customerOf e) (modelOf P e) (monthUtc t) ↔
        (customerOf e' = customerOf e ∧
          monthUtc (Projection.accountingTime e') = monthUtc t) ∧ modelOf P e' = modelOf P e := by
      rw [modelRollup_eq, modelPeriodKey_eq, modelPeriodKey_eq, rollupMonthKey_iff]
      constructor
      · rintro ⟨hname, hmonth⟩
        have hcustomer := h.customers e' he' e he hname
        rw [hcustomer] at hname
        exact ⟨⟨hcustomer, hmonth⟩, (String.append_right_inj _).mp hname⟩
      · rintro ⟨⟨hcustomer, hmonth⟩, hmodel⟩
        rw [hcustomer, hmodel]
        exact ⟨rfl, hmonth⟩
    constructor
    case marks =>
      intro s key
      show (P.apply s e' (before e') clock).1.projected key = true ↔
        some (P.projectionKey e'.eventId) = some key ∨ _
      rw [projected_apply, Option.some.injEq, eq_comm]
    case first =>
      intro s key hid hfresh
      have hid' : P.projectionKey e'.eventId = key := Option.some.inj hid
      subst hid'
      show field.read (P.apply s e' (before e') clock).1.usage _ = _
      rw [read_apply, if_neg hfresh, h.sum_accountedIn he']
      simp only [hkey]
      rfl
    case again =>
      intro s key hid hdone
      have hid' : P.projectionKey e'.eventId = key := Option.some.inj hid
      subst hid'
      show field.read (P.apply s e' (before e') clock).1.usage _ = _
      rw [read_apply, if_pos hdone, add_zero]
    case other => exact fun s hnone => absurd hnone (Option.some_ne_none _)

theorem read_customer (h : Tallied P before w es) {steps : List SinkStep}
    (hsteps : Delivers P before w es steps) (he : e ∈ es) (t : ℤ) (field : RollupField) :
    field.read (steps.foldl (SinkStep.run P before) {}).usage
        (rollupMonthKey (customerOf e) (monthUtc t)) =
      ∑ x ∈ endingIn w es (customerOf e) t, field.ofEvent (priceOf P before x) x := by
  have hrun := counted_foldl (fun step hstep => h.windows_count hsteps he t field hstep)
    (fun _ _ id _ => Bool.false_ne_true) (Counted.refl ({} : Keyspace))
  have hempty : field.read ({} : Keyspace).usage (rollupMonthKey (customerOf e) (monthUtc t)) = 0 := by
    cases field <;> rfl
  refine (hrun.total_fiberwise fun x hx => ?_).trans ?_
  · have hx' : x ∈ es := (mem_eventsOf.mp (Finset.mem_filter.mp hx).1).1
    have hstep := (hsteps.windows _).mpr ⟨x, hx', rfl⟩
    rw [Finset.empty_union, List.mem_toFinset, List.mem_filterMap]
    exact ⟨_, hstep, congrArg some (h.idOf_fired hx')⟩
  · rw [hempty, zero_add]

theorem read_model (h : Tallied P before w es) {steps : List SinkStep}
    (hsteps : Delivers P before w es steps) (he : e ∈ es) (t : ℤ) (field : RollupField) :
    field.read (steps.foldl (SinkStep.run P before) {}).usage
        (modelPeriodKey (customerOf e) (modelOf P e) (monthUtc t)) =
      ∑ x ∈ accountedIn es (customerOf e) t with modelOf P x = modelOf P e,
        field.ofEvent (priceOf P before x) x := by
  have hrun := counted_foldl (fun step hstep => h.events_count hsteps he t field hstep)
    (fun _ _ key _ => Bool.false_ne_true) (Counted.refl ({} : Keyspace))
  have hempty : field.read ({} : Keyspace).usage
      (modelPeriodKey (customerOf e) (modelOf P e) (monthUtc t)) = 0 := by
    cases field <;> rfl
  refine (hrun.total_fiberwise fun x hx => ?_).trans ?_
  · have hx' := (Finset.mem_filter.mp (Finset.mem_filter.mp hx).1).1
    obtain ⟨clock, hstep⟩ := (hsteps.events x).mpr (mem_eventsOf.mp hx').1
    rw [Finset.empty_union, List.mem_toFinset, List.mem_filterMap]
    exact ⟨_, hstep, rfl⟩
  · rw [hempty, zero_add]

theorem sum_models (h : Tallied P before w es) {steps : List SinkStep}
    (hsteps : Delivers P before w es steps) (c : String) (t : ℤ) (field : RollupField) :
    ∑ m ∈ modelsOf P es c, field.read (steps.foldl (SinkStep.run P before) {}).usage
        (modelPeriodKey c m (monthUtc t)) =
      ∑ x ∈ accountedIn es c t, field.ofEvent (priceOf P before x) x := by
  have hmaps : ∀ x ∈ accountedIn es c t, modelOf P x ∈ modelsOf P es c := fun x hx =>
    Finset.mem_image_of_mem _ (Finset.mem_filter.mp hx).1
  rw [← Finset.sum_fiberwise_of_maps_to hmaps]
  apply Finset.sum_congr rfl
  intro m hm
  obtain ⟨y, hy, rfl⟩ := Finset.mem_image.mp hm
  obtain ⟨hmem, hcustomer⟩ := mem_eventsOf.mp hy
  rw [← hcustomer]
  exact h.read_model hsteps hmem t field

/-! ### Months -/

/-- The months of windows and of accounting times agree on each count only where they agree on each
event: a window never ends in an earlier month than that of its events. -/
theorem months_of_counts (h : Tallied P before w es) (hin : ∀ x ∈ es, InWindow w x) (c : String)
    (hcounts : ∀ t, (endingIn w es c t).card = (accountedIn es c t).card) :
    ∀ x ∈ eventsOf es c, monthUtc (windowEnd w x) = monthUtc x.timestamp := by
  have hle : ∀ x ∈ eventsOf es c, (utcDate x.timestamp).months ≤ (utcDate (windowEnd w x)).months := by
    intro x hx
    have hend := (hin x (mem_eventsOf.mp hx).1).2
    exact months_mono (Int.ediv_le_ediv (by decide) hend.le)
  have hcard : ∀ k, ((eventsOf es c).filter fun x => k = (utcDate x.timestamp).months).card =
      ((eventsOf es c).filter fun x => k = (utcDate (windowEnd w x)).months).card := by
    intro k
    by_cases hk : ∃ t, (utcDate t).months = k
    · obtain ⟨t, rfl⟩ := hk
      have hending : endingIn w es c t =
          (eventsOf es c).filter fun x => (utcDate t).months = (utcDate (windowEnd w x)).months :=
        Finset.filter_congr fun x _ => by rw [monthUtc_iff, eq_comm]
      have haccounted : accountedIn es c t =
          (eventsOf es c).filter fun x => (utcDate t).months = (utcDate x.timestamp).months :=
        Finset.filter_congr fun x hx => by
          rw [h.accounting_month (mem_eventsOf.mp hx).1, monthUtc_iff, eq_comm]
      rw [← hending, ← haccounted, hcounts]
    · rw [Finset.filter_false_of_mem, Finset.filter_false_of_mem]
      · exact fun x _ hx => hk ⟨_, hx.symm⟩
      · exact fun x _ hx => hk ⟨_, hx.symm⟩
  exact fun x hx => (monthUtc_iff.mpr (eq_of_card_fibers hle hcard x hx)).symm

theorem rollupsAgree_iff (h : Tallied P before w es) (hday : w.size ∣ 86400000)
    (hin : ∀ x ∈ es, InWindow w x) :
    RollupsAgree P before w es ↔ ∀ x ∈ es, ¬ MonthBegins (windowEnd w x) := by
  constructor
  · intro hagree x hx
    have hsteps := delivers_inTurn P before w es
    rw [← month_windowEnd hday (hin x hx)]
    refine h.months_of_counts hin (customerOf x) (fun t => ?_) x (mem_eventsOf.mpr ⟨hx, rfl⟩)
    have hcount := hagree _ hsteps x hx t .eventCount
    rw [h.read_customer hsteps hx, h.sum_models hsteps] at hcount
    have hones : ∀ A : Finset TokenEvent,
        ∑ x ∈ A, RollupField.eventCount.ofEvent (priceOf P before x) x = (A.card : ℚ) := by
      intro A
      show ∑ x ∈ A, (1 : ℚ) = A.card
      rw [Finset.sum_const, nsmul_one]
    rw [hones, hones] at hcount
    exact_mod_cast hcount
  · intro hmonths steps hsteps e he t field
    have hsame : endingIn w es (customerOf e) t = accountedIn es (customerOf e) t := by
      apply Finset.filter_congr
      intro x hx
      obtain ⟨hmem, -⟩ := mem_eventsOf.mp hx
      rw [(month_windowEnd hday (hin x hmem)).mpr (hmonths x hmem), h.accounting_month hmem]
    rw [h.read_customer hsteps he, h.sum_models hsteps, hsame]

end Tallied

/-- The month and the day of every event agree with the keys of its window exactly where no window
ends a day, and the rollups of customers and models agree exactly where no window ends a month. -/
theorem period_attribution (P : Projection) (before : TokenEvent → ℤ) {w : TumblingWindows}
    (hday : w.size ∣ 86400000) {es : List TokenEvent} (hin : ∀ e ∈ es, InWindow w e) :
    ((∀ e ∈ es, PeriodsAgree (fired P before w es e) e.timestamp) ↔
      ∀ e ∈ es, windowEnd w e % 86400000 ≠ 0) ∧
    (Tallied P before w es →
      (RollupsAgree P before w es ↔ ∀ e ∈ es, ¬ MonthBegins (windowEnd w e))) :=
  ⟨forall₂_congr fun _ he => periodsAgree_fire _ before es hday (hin _ he),
    fun h => h.rollupsAgree_iff hday hin⟩

def miniAt (timestamp : ℤ) : TokenEvent :=
  { usageAt "e2" timestamp 50 with modelId := some "gpt-4o-mini", receivedAt := timestamp }

def twoModels (timestamp : ℤ) : List TokenEvent := [usageAt "e1" timestamp 100, miniAt timestamp]

theorem tallied_twoModels (timestamp : ℤ)
    (hfits : ∀ e ∈ twoModels timestamp, SumsFit (priceOf flatProjection fun _ => 0)
      (windowMembers tenSeconds (twoModels timestamp) e)) :
    Tallied flatProjection (fun _ => 0) tenSeconds (twoModels timestamp) := by
  have hmem : ∀ {p : TokenEvent → Prop}, p (usageAt "e1" timestamp 100) →
      p (miniAt timestamp) → ∀ e ∈ twoModels timestamp, p e := by
    intro p hfirst hsecond e he
    rcases List.mem_pair.mp he with rfl | rfl
    · exact hfirst
    · exact hsecond
  constructor
  case nodup => simp [twoModels, miniAt, usageAt]
  case deserialized =>
    exact hmem ⟨⟨"acme", rfl, by decide⟩, ⟨"gpt-4o", rfl, by decide⟩, by simp [usageAt]⟩
      ⟨⟨"acme", rfl, by decide⟩, ⟨"gpt-4o-mini", rfl, by decide⟩, by simp [miniAt, usageAt]⟩
  case plain =>
    refine hmem ⟨by simp [usageAt], ?_, ?_⟩ ⟨by simp [miniAt, usageAt], ?_, ?_⟩
    all_goals
      rintro _ ⟨⟩
      decide
  case ids =>
    have hkeys : flatProjection.projectionKey (some "e1") ≠
        flatProjection.projectionKey (some "e2") := by decide
    exact hmem (hmem (fun _ => rfl) fun h => absurd h hkeys)
      (hmem (fun h => absurd h.symm hkeys) fun _ => rfl)
  case customers => exact hmem (hmem (fun _ => rfl) fun _ => rfl) (hmem (fun _ => rfl) fun _ => rfl)
  case models =>
    have hfirst : "acme" ≠ "acme" ++ ":model:" ++
        flatProjection.catalog.normalizeModelId (some "gpt-4o") := by decide
    have hsecond : "acme" ≠ "acme" ++ ":model:" ++
        flatProjection.catalog.normalizeModelId (some "gpt-4o-mini") := by decide
    exact hmem (hmem hfirst hsecond) (hmem hfirst hsecond)
  case fits => exact hfits
  case received => exact hmem (fun h => absurd h (lt_irrefl 0)) fun _ => rfl

/-- Twelve seconds before the end of January 2024 all months and days agree. -/
theorem period_attribution_twelve :
    (∀ e ∈ twoModels 1706745588000, PeriodsAgree
      (fired flatProjection (fun _ => 0) tenSeconds (twoModels 1706745588000) e) e.timestamp) ∧
    RollupsAgree flatProjection (fun _ => 0) tenSeconds (twoModels 1706745588000) := by
  have hin : ∀ e ∈ twoModels 1706745588000, InWindow tenSeconds e := by
    unfold InWindow
    decide
  have htallied := tallied_twoModels 1706745588000 fun e he => by
    rcases List.mem_pair.mp he with rfl | rfl
    · exact ⟨by decide, by decide, by decide, by decide, by decide +kernel⟩
    · exact ⟨by decide, by decide, by decide, by decide, by decide +kernel⟩
  obtain ⟨hperiods, hrollups⟩ :=
    period_attribution flatProjection (fun _ => 0) (by decide : tenSeconds.size ∣ 86400000) hin
  exact ⟨hperiods.mpr (by decide), (hrollups htallied).mpr (by decide)⟩

/-- In the last second of January the window is accounted to February: its keys do not agree, and the
rollup of the customer for January lacks the events that those of its models have. -/
theorem not_period_attribution :
    tenSeconds.size ∣ 86400000 ∧ (∀ e ∈ twoModels 1706745599000, InWindow tenSeconds e) ∧
    Tallied flatProjection (fun _ => 0) tenSeconds (twoModels 1706745599000) ∧
    (∀ e ∈ twoModels 1706745599000, ¬ PeriodsAgree
      (fired flatProjection (fun _ => 0) tenSeconds (twoModels 1706745599000) e) e.timestamp) ∧
    ¬ RollupsAgree flatProjection (fun _ => 0) tenSeconds (twoModels 1706745599000) := by
  refine ⟨by decide, by unfold InWindow; decide, tallied_twoModels _ fun e he => ?_, fun e he h => ?_,
    fun h => ?_⟩
  · rcases List.mem_pair.mp he with rfl | rfl
    · exact ⟨by decide, by decide, by decide, by decide, by decide +kernel⟩
    · exact ⟨by decide, by decide, by decide, by decide, by decide +kernel⟩
  · have hday := h.day
    revert hday
    rcases List.mem_pair.mp he with rfl | rfl
    · decide +kernel
    · decide +kernel
  · have hcount := h _ (delivers_inTurn _ _ _ _) _ List.mem_cons_self 1706745599000 .eventCount
    revert hcount
    decide +kernel

end FluxMeter.Usage
