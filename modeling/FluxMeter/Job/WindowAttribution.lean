import FluxMeter.Budget.BudgetEnforcerSink
import FluxMeter.Keys.Separator

/-! Attribution of windows: the aggregation key of an event is parsed back when its window
fires, and the window ids at attach and at settlement come from the two sides of that codec. -/
namespace FluxMeter.Job
open FluxMeter.Keys FluxMeter.Model FluxMeter.Budget

/-- `WindowMetadataFunction.applyKeyAndWindow`. -/
def applyKeyAndWindow (key : String) (agg : UsageAggregate) (windowStart windowEnd : ℤ) :
    UsageAggregate :=
  let named :=
    match splitParts key with
    | tenant :: customer :: model :: _ =>
      { agg with tenantId := some tenant, customerId := some customer, modelId := some model }
    | [customer, model] => { agg with customerId := some customer, modelId := some model }
    | _ => { agg with customerId := some key, modelId := some "unknown" }
  { named with windowStart := windowStart, windowEnd := windowEnd }

/-- `TumblingEventTimeWindows.of(size)`: windows of one size, aligned to the epoch, whose starts
are computed in `long` arithmetic. -/
structure TumblingWindows where
  size : ℤ
  size_pos : 0 < size
  start : ℤ → ℤ
  aligned : ∀ timestamp, start timestamp = wrap64 (timestamp - timestamp % size)

/-- The window of the event `e` when it fires over the events `es`: `aggregate` with
`UsageAggregateFunction`, then the window metadata. -/
def fire (price : UsageAggregate.Pricing) (monthlyBefore : TokenEvent → ℤ) (w : TumblingWindows)
    (es : List TokenEvent) (e : TokenEvent) : UsageAggregate :=
  let members := es.filter fun x =>
    x.getAggregationKey = e.getAggregationKey ∧ w.start x.timestamp = w.start e.timestamp
  applyKeyAndWindow e.getAggregationKey
    (members.foldl (fun acc x => acc.addEvent price x (monthlyBefore x)) {})
    (w.start e.timestamp) (wrap64 (w.start e.timestamp + w.size))

/-- The window id that `EventProjectionSink.apply` attaches the reservation of an event to. -/
def projectionWindowId (windowMillis : ℤ) (e : TokenEvent) : String :=
  windowId e.tenantId (TokenEvent.orNull e.customerId) (TokenEvent.orNull e.modelId)
    (wrap64 (e.timestamp / windowMillis * windowMillis))

/-- What the deserializer guarantees of an event that is not malformed. -/
structure Deserialized (e : TokenEvent) : Prop where
  customer : ∃ c, e.customerId = some c ∧ isBlank c = false
  model : ∃ m, e.modelId = some m ∧ isBlank m = false
  tenant : ∀ t, e.tenantId = some t → isBlank t = false

/-- No field of the aggregation key contains the separator. -/
structure PlainFields (e : TokenEvent) : Prop where
  tenant : ∀ t, e.tenantId = some t → Plain t
  customer : ∀ c, e.customerId = some c → Plain c
  model : ∀ m, e.modelId = some m → Plain m

/-- Every window carries its events' own tenant, customer and model and settles the reservation
set they were attached to, and windows that differ have different ids. -/
structure Attributed (price : UsageAggregate.Pricing) (monthlyBefore : TokenEvent → ℤ)
    (w : TumblingWindows) (es : List TokenEvent) : Prop where
  fields : ∀ e ∈ es, (fire price monthlyBefore w es e).tenantId = e.tenantId ∧
    (fire price monthlyBefore w es e).customerId = e.customerId ∧
    (fire price monthlyBefore w es e).modelId = e.modelId
  settled : ∀ e ∈ es, windowReservationsKey (sinkKeys (fire price monthlyBefore w es e)).windowId =
    windowReservationsKey (projectionWindowId w.size e)
  distinct : ∀ e ∈ es, ∀ e' ∈ es,
    (e.tenantId, e.customerId, e.modelId, w.start e.timestamp) ≠
      (e'.tenantId, e'.customerId, e'.modelId, w.start e'.timestamp) →
    (sinkKeys (fire price monthlyBefore w es e)).windowId ≠
      (sinkKeys (fire price monthlyBefore w es e')).windowId ∧
    projectionWindowId w.size e ≠ projectionWindowId w.size e'

/-! ### The key codec -/

/-- A non-blank tenant, if there is one, then the customer and the model. -/
def keyFields (tenantId : Option String) (customerId modelId : String) : List String :=
  tenantId.toList ++ [customerId, modelId]

theorem splitParts_lite {c m : String} (hc : Plain c) (hm : Plain m) :
    splitParts (c ++ "|" ++ m) = [c, m] := by
  rw [splitParts_append hc, splitParts_plain hm]

theorem splitParts_windowId {t : Option String} {c m : String} (s : ℤ)
    (hblank : ∀ x, t = some x → isBlank x = false) (ht : ∀ x, t = some x → Plain x)
    (hc : Plain c) (hm : Plain m) :
    splitParts (windowId t c m s) = keyFields t c m ++ [toString s] := by
  have hlite : splitParts (c ++ "|" ++ m ++ "|" ++ toString s) = [c, m, toString s] := by
    have hassoc : c ++ "|" ++ m ++ "|" ++ toString s = c ++ "|" ++ (m ++ "|" ++ toString s) := by
      simp [String.append_assoc]
    rw [hassoc, splitParts_append hc, splitParts_lite hm (plain_toString s)]
  cases t with
  | none => exact hlite
  | some x =>
    have hx : hasTenant (some x) = true := by simp [hasTenant, hblank x rfl]
    unfold windowId
    dsimp only
    rw [if_pos hx, splitParts_append (ht x rfl), hlite]
    rfl

theorem windowId_injective {t t' : Option String} {c c' m m' : String} {s s' : ℤ}
    (hblank : ∀ x, t = some x → isBlank x = false) (ht : ∀ x, t = some x → Plain x)
    (hc : Plain c) (hm : Plain m)
    (hblank' : ∀ x, t' = some x → isBlank x = false) (ht' : ∀ x, t' = some x → Plain x)
    (hc' : Plain c') (hm' : Plain m') (h : windowId t c m s = windowId t' c' m' s') :
    t = t' ∧ c = c' ∧ m = m' ∧ s = s' := by
  have hparts := congrArg splitParts h
  rw [splitParts_windowId s hblank ht hc hm, splitParts_windowId s' hblank' ht' hc' hm'] at hparts
  unfold keyFields at hparts
  cases t with
  | none =>
    cases t' with
    | none =>
      simp only [Option.toList_none, List.nil_append, List.cons_append, List.cons.injEq,
        and_true] at hparts
      exact ⟨rfl, hparts.1, hparts.2.1, toString_int_injective hparts.2.2⟩
    | some x' => simp at hparts
  | some x =>
    cases t' with
    | none => simp at hparts
    | some x' =>
      simp only [Option.toList_some, List.nil_append, List.cons_append, List.cons.injEq,
        and_true] at hparts
      exact ⟨congrArg some hparts.1, hparts.2.1, hparts.2.2.1,
        toString_int_injective hparts.2.2.2⟩

theorem getAggregationKey_of_tenant {e : TokenEvent} {t c m : String} (ht : e.tenantId = some t)
    (hblank : isBlank t = false) (hc : e.customerId = some c) (hm : e.modelId = some m) :
    e.getAggregationKey = t ++ "|" ++ (c ++ "|" ++ m) := by
  simp [TokenEvent.getAggregationKey, TokenEvent.orNull, ht, hblank, hc, hm]

theorem getAggregationKey_of_none {e : TokenEvent} {c m : String} (ht : e.tenantId = none)
    (hc : e.customerId = some c) (hm : e.modelId = some m) :
    e.getAggregationKey = c ++ "|" ++ m := by
  simp [TokenEvent.getAggregationKey, TokenEvent.orNull, ht, hc, hm]

/-- A key of plain fields is split back into these fields. -/
theorem splitParts_key {e : TokenEvent} {c m : String} (he : Deserialized e) (hp : PlainFields e)
    (hc : e.customerId = some c) (hm : e.modelId = some m) :
    splitParts e.getAggregationKey = keyFields e.tenantId c m := by
  cases ht : e.tenantId with
  | none =>
    rw [getAggregationKey_of_none ht hc hm,
      splitParts_lite (hp.customer c hc) (hp.model m hm)]
    rfl
  | some t =>
    rw [getAggregationKey_of_tenant ht (he.tenant t ht) hc hm, splitParts_append (hp.tenant t ht),
      splitParts_lite (hp.customer c hc) (hp.model m hm)]
    rfl

/-! ### One window -/

theorem count_tenantId {price : UsageAggregate.Pricing} {acc : UsageAggregate} {e : TokenEvent}
    {before : ℤ} (he : e.tenantId = none) :
    (UsageAggregate.count price acc e before).tenantId = acc.tenantId := by
  simp [UsageAggregate.count, he]

private theorem addEvent_tenantId {price : UsageAggregate.Pricing} {acc : UsageAggregate}
    {e : TokenEvent}
    {before : ℤ} (he : e.tenantId = none) :
    (acc.addEvent price e before).tenantId = acc.tenantId := by
  unfold UsageAggregate.addEvent
  split
  · split_ifs
    · rfl
    · exact count_tenantId he
  · exact count_tenantId he

theorem foldl_addEvent_tenantId {price : UsageAggregate.Pricing} {before : TokenEvent → ℤ}
    {members : List TokenEvent} (h : ∀ x ∈ members, x.tenantId = none) :
    (members.foldl (fun acc x => UsageAggregate.addEvent price acc x (before x)) {}).tenantId =
      none :=
  List.foldlRecOn (motive := fun acc : UsageAggregate => acc.tenantId = none) members _ rfl
    fun _ hacc x hx => (addEvent_tenantId (h x hx)).trans hacc

variable {price : UsageAggregate.Pricing} {before : TokenEvent → ℤ} {w : TumblingWindows}
  {es : List TokenEvent} {e : TokenEvent}

theorem fire_windowStart : (fire price before w es e).windowStart = w.start e.timestamp := rfl

/-- The start that the projection computes is the start of the event's window. -/
theorem projection_start (w : TumblingWindows) (timestamp : ℤ) :
    wrap64 (timestamp / w.size * w.size) = w.start timestamp := by
  have hdiv := Int.mul_ediv_add_emod timestamp w.size
  rw [w.aligned]
  congr 1
  rw [Int.mul_comm]
  omega

variable (price before w) in
theorem fire_fields (hall : ∀ x ∈ es, Deserialized x) (hplain : ∀ x ∈ es, PlainFields x)
    (he : e ∈ es) : (fire price before w es e).tenantId = e.tenantId ∧
      (fire price before w es e).customerId = e.customerId ∧
      (fire price before w es e).modelId = e.modelId := by
  obtain ⟨c, hc, -⟩ := (hall e he).customer
  obtain ⟨m, hm, -⟩ := (hall e he).model
  have hparts := splitParts_key (hall e he) (hplain e he) hc hm
  unfold fire applyKeyAndWindow
  dsimp only
  rw [hparts]
  cases ht : e.tenantId with
  | none =>
    refine ⟨?_, hc.symm, hm.symm⟩
    apply foldl_addEvent_tenantId
    intro x hx
    have hmem := List.mem_filter.mp hx
    have hkey : x.getAggregationKey = e.getAggregationKey := (of_decide_eq_true hmem.2).1
    -- an event with a tenant has a key of three parts
    obtain ⟨c', hc', -⟩ := (hall x hmem.1).customer
    obtain ⟨m', hm', -⟩ := (hall x hmem.1).model
    have hparts' := splitParts_key (hall x hmem.1) (hplain x hmem.1) hc' hm'
    rw [hkey, hparts, ht] at hparts'
    cases hx' : x.tenantId with
    | none => rfl
    | some t => rw [hx'] at hparts'; simp [keyFields] at hparts'
  | some t => exact ⟨rfl, hc.symm, hm.symm⟩

theorem sinkKeys_fire_windowId (hall : ∀ x ∈ es, Deserialized x)
    (hplain : ∀ x ∈ es, PlainFields x) (he : e ∈ es) :
    (sinkKeys (fire price before w es e)).windowId = projectionWindowId w.size e := by
  obtain ⟨ht, hc, hm⟩ := fire_fields price before w hall hplain he
  unfold sinkKeys projectionWindowId
  dsimp only
  rw [ht, hc, hm, fire_windowStart, projection_start]

theorem attributed_of_plain (hall : ∀ x ∈ es, Deserialized x)
    (hplain : ∀ x ∈ es, PlainFields x) : Attributed price before w es where
  fields _ he := fire_fields price before w hall hplain he
  settled _ he := congrArg windowReservationsKey (sinkKeys_fire_windowId hall hplain he)
  distinct e he e' he' hne := by
    have hids : projectionWindowId w.size e ≠ projectionWindowId w.size e' := by
      intro heq
      obtain ⟨c, hc, -⟩ := (hall e he).customer
      obtain ⟨m, hm, -⟩ := (hall e he).model
      obtain ⟨c', hc', -⟩ := (hall e' he').customer
      obtain ⟨m', hm', -⟩ := (hall e' he').model
      unfold projectionWindowId at heq
      rw [hc, hm, hc', hm', projection_start, projection_start] at heq
      obtain ⟨h₁, h₂, h₃, h₄⟩ := windowId_injective (hall e he).tenant (hplain e he).tenant
        ((hplain e he).customer c hc) ((hplain e he).model m hm) (hall e' he').tenant
        (hplain e' he').tenant ((hplain e' he').customer c' hc') ((hplain e' he').model m' hm') heq
      apply hne
      rw [h₁, h₄, hc, hm, hc', hm']
      change c = c' at h₂
      change m = m' at h₃
      rw [h₂, h₃]
    rw [sinkKeys_fire_windowId hall hplain he, sinkKeys_fire_windowId hall hplain he']
    exact ⟨hids, hids⟩

private theorem plain_of_fields (he : Deserialized e)
    (h : (fire price before w es e).tenantId = e.tenantId ∧
      (fire price before w es e).customerId = e.customerId ∧
      (fire price before w es e).modelId = e.modelId) : PlainFields e := by
  obtain ⟨c, hc, -⟩ := he.customer
  obtain ⟨m, hm, -⟩ := he.model
  obtain ⟨htenant, hcustomer, hmodel⟩ := h
  unfold fire applyKeyAndWindow at htenant hcustomer hmodel
  dsimp only at htenant hcustomer hmodel
  have hplain := @plain_of_mem_splitParts e.getAggregationKey
  have hlength : 2 + e.tenantId.toList.length ≤ (splitParts e.getAggregationKey).length := by
    have hcpos := length_splitParts_pos c
    have hmpos := length_splitParts_pos m
    cases ht : e.tenantId with
    | none =>
      rw [getAggregationKey_of_none ht hc hm, length_splitParts_append]
      simp only [Option.toList_none, List.length_nil]
      omega
    | some t =>
      have htpos := length_splitParts_pos t
      rw [getAggregationKey_of_tenant ht (he.tenant t ht) hc hm, length_splitParts_append,
        length_splitParts_append]
      simp only [Option.toList_some, List.length_cons, List.length_nil]
      omega
  match hparts : splitParts e.getAggregationKey with
  | [] => rw [hparts] at hlength; simp at hlength
  | [_] => rw [hparts] at hlength; simp at hlength; omega
  | [customer, model] =>
    rw [hparts] at hcustomer hmodel hplain hlength
    refine ⟨fun t ht => ?_, fun x hx => ?_, fun x hx => ?_⟩
    · rw [ht] at hlength; simp at hlength
    · rw [hx] at hcustomer
      exact Option.some.inj hcustomer ▸ hplain (by simp)
    · rw [hx] at hmodel
      exact Option.some.inj hmodel ▸ hplain (by simp)
  | tenant :: customer :: model :: rest =>
    rw [hparts] at htenant hcustomer hmodel hplain
    refine ⟨fun t ht => ?_, fun x hx => ?_, fun x hx => ?_⟩
    · rw [ht] at htenant
      exact Option.some.inj htenant ▸ hplain (by simp)
    · rw [hx] at hcustomer
      exact Option.some.inj hcustomer ▸ hplain (by simp)
    · rw [hx] at hmodel
      exact Option.some.inj hmodel ▸ hplain (by simp)

/-- Windows are attributed to their events exactly when no tenant, customer or model contains
the separator. -/
theorem attributed_iff (price : UsageAggregate.Pricing) (before : TokenEvent → ℤ)
    (w : TumblingWindows) {es : List TokenEvent} (hall : ∀ e ∈ es, Deserialized e) :
    Attributed price before w es ↔ ∀ e ∈ es, PlainFields e :=
  ⟨fun h e he => plain_of_fields (hall e he) (h.fields e he), attributed_of_plain hall⟩

/-- The default of `WINDOW_SECONDS`. -/
def tenSeconds : TumblingWindows where
  size := 10000
  size_pos := by omega
  start timestamp := wrap64 (timestamp - timestamp % 10000)
  aligned _ := rfl

theorem attributed_tenSeconds :
    Attributed (fun _ _ => 0) (fun _ => 0) tenSeconds
      [{ tenantId := some "t", customerId := some "acme", modelId := some "gpt" },
        { customerId := some "acme", modelId := some "gpt" }] := by
  refine (attributed_iff (fun _ _ => 0) (fun _ => 0) tenSeconds fun e he => ?_).mpr fun e he => ?_
  · rcases List.mem_pair.mp he with rfl | rfl
    · exact ⟨⟨"acme", rfl, by decide⟩, ⟨"gpt", rfl, by decide⟩, by decide⟩
    · exact ⟨⟨"acme", rfl, by decide⟩, ⟨"gpt", rfl, by decide⟩, by decide⟩
  · rcases List.mem_pair.mp he with rfl | rfl
    · exact ⟨by decide, by decide, by decide⟩
    · exact ⟨by decide, by decide, by decide⟩

/-- Two deserialized events of one window: the model `a|b` of the customer `acme` is billed to
the customer `a` of the tenant `acme`, under the window id of the other event. -/
theorem window_misattributed :
    (∀ e ∈ [({ customerId := some "acme", modelId := some "a|b" } : TokenEvent),
        { tenantId := some "acme", customerId := some "a", modelId := some "b" }],
      Deserialized e) ∧
    (sinkKeys (fire (fun _ _ => 0) (fun _ => 0) tenSeconds
      [{ customerId := some "acme", modelId := some "a|b" }]
      { customerId := some "acme", modelId := some "a|b" })).budget = ⟨some "acme", "a"⟩ ∧
    ¬ Attributed (fun _ _ => 0) (fun _ => 0) tenSeconds
      [{ customerId := some "acme", modelId := some "a|b" },
        { tenantId := some "acme", customerId := some "a", modelId := some "b" }] := by
  refine ⟨fun e he => ?_, by decide +kernel, fun h => ?_⟩
  · rcases List.mem_pair.mp he with rfl | rfl
    · exact ⟨⟨"acme", rfl, by decide⟩, ⟨"a|b", rfl, by decide⟩, by decide⟩
    · exact ⟨⟨"a", rfl, by decide⟩, ⟨"b", rfl, by decide⟩, by decide⟩
  · have hcustomer := (h.fields _ List.mem_cons_self).2.1
    revert hcustomer
    decide +kernel

end FluxMeter.Job
