import FluxMeter.Job.Billable
import FluxMeter.Job.TokenUsageAggregator
import Mathlib.Data.List.Induction

/-! Exactly-once billing of the messages that Custody publishes, under any redelivery. Custody
identifies an event by its tenant and event id, every stage of the pipeline by its event id. -/
namespace FluxMeter.Job
open FluxMeter.Custody FluxMeter.Keys FluxMeter.Model FluxMeter.Wire

/-- An event that Custody published on the billing topic for a client. -/
structure Published (py : Python) where
  event : Dict
  args : EnvelopeArgs
  clock : ℤ
  payload : Dict
  payloadHash : String
  customerId : String
  envelope : Dict
  prepared : preparePayload py event args.tenantId args.reservationId clock =
    some (payload, payloadHash)
  typed : WellTyped payload
  customer : payload.get "customerId" = some (.str customerId)
  client : args.source ≠ "operator"
  enveloped : trustedEnvelope payload args = some envelope

namespace Published
variable {py : Python}

def eventId (m : Published py) : String := (textAt m.payload "eventId").getD ""

/-- The tenant and the event id that `_identity_location` derives the identity from. -/
def identity (m : Published py) : String × String :=
  (tenantOrDefault m.args.tenantId, m.eventId)

/-- What the deserializer makes of the message at a time of its clock. -/
def decoded (T : JsonText) (D : Databind) (m : Published py) (clock : ℤ) : TokenEvent :=
  deserialize T D (T.dumps (.obj m.envelope)) clock

/-- The message is decoded as itself and is no heartbeat. -/
structure Billable (T : JsonText) (m : Published py) : Prop where
  fits : T.Fits (.obj m.envelope)
  range : InRange m.payload
  customerId : isBlank m.customerId = false
  eventId : isBlank m.eventId = false
  modelId : missing (textAt m.payload "modelId") = false
  usage : isHeartbeat (bean m.payload) = false

variable {T : JsonText} {D : Databind} {m : Published py} {clock : ℤ}

theorem textAt_eventId (m : Published py) : textAt m.payload "eventId" = some m.eventId := by
  have hprepared := m.prepared
  unfold preparePayload at hprepared
  obtain ⟨id, -, hid⟩ := Option.map_eq_some_iff.mp hprepared
  have hget : m.payload.get "eventId" = some (.str id) := by
    have hpayload := congrArg Prod.fst hid
    dsimp only at hpayload
    rw [← hpayload]
    split_ifs
    · rw [Dict.get_set, if_neg (by decide), Dict.get_set, if_pos rfl]
    · rw [Dict.get_set, if_pos rfl]
  have htext : textAt m.payload "eventId" = some id := by
    unfold textAt
    rw [hget]
  rw [eventId, htext]
  rfl

/-- A billable message is decoded to its own event, whatever the clock says. -/
theorem decoded_of_billable (h : m.Billable T) :
    m.decoded T D clock = withTrusted D (some (.obj m.envelope)) m.customerId (bean m.payload) := by
  have hid : missing (textAt m.payload "eventId") = false := by
    rw [textAt_eventId]
    exact h.eventId
  exact deserialize_ok h.fits m.typed h.range m.customer h.customerId hid h.modelId m.enveloped

variable (clock) in
theorem decoded_of_not_billable (h : ¬ m.Billable T) :
    (m.decoded T D clock).malformedEnvelope = true ∨ isHeartbeat (m.decoded T D clock) = true := by
  cases hok : (m.decoded T D clock).malformedEnvelope with
  | true => exact Or.inl rfl
  | false =>
    right
    obtain ⟨hfits, hrange, hcustomer, hid, hmodel⟩ := checks_of_ok m.typed m.customer m.enveloped hok
    have hdecoded : m.decoded T D clock =
        withTrusted D (some (.obj m.envelope)) m.customerId (bean m.payload) :=
      deserialize_ok hfits m.typed hrange m.customer hcustomer hid hmodel m.enveloped
    rw [textAt_eventId] at hid
    cases hbeat : isHeartbeat (bean m.payload) with
    | false => exact absurd ⟨hfits, hrange, hcustomer, hid, hmodel, hbeat⟩ h
    | true =>
      rw [hdecoded]
      exact hbeat

variable (clock) in
theorem decoded_fields (h : m.Billable T) :
    (m.decoded T D clock).malformedEnvelope = false ∧
    (m.decoded T D clock).eventId = some m.eventId ∧
    ((m.decoded T D clock).customerId.isNone || (m.decoded T D clock).modelId.isNone) = false ∧
    isHeartbeat (m.decoded T D clock) = false ∧
    (m.decoded T D clock).timestamp = numAt m.payload "timestamp" := by
  rw [decoded_of_billable h]
  refine ⟨rfl, m.textAt_eventId, ?_, h.usage,
    withTrusted_timestamp m.client m.customer m.enveloped _⟩
  change (false || (textAt m.payload "modelId").isNone) = false
  have hmodel := h.modelId
  cases hcase : textAt m.payload "modelId" with
  | none => rw [hcase] at hmodel; simp [missing] at hmodel
  | some _ => rfl

end Published

/-! ### One event in the pipeline -/

namespace Pipeline
variable {ι : Type*} {A : Aggregator} {watermark before : ℤ} {i : ι} {e : TokenEvent}
  {s : Pipeline ι}

variable (watermark) in
theorem process_aside (h : e.malformedEnvelope = true ∨ isHeartbeat e = true) :
    (process A watermark i e s).projected = s.projected ∧
    (process A watermark i e s).projectionKeys = s.projectionKeys ∧
    (process A watermark i e s).windows = s.windows ∧
    (process A watermark i e s).counted = s.counted := by
  unfold process
  by_cases hbad : e.malformedEnvelope = true
  · rw [if_pos hbad]
    exact ⟨rfl, rfl, rfl, rfl⟩
  · have hbeat := h.resolve_left hbad
    rw [if_neg hbad, if_pos hbeat]
    split_ifs <;> exact ⟨rfl, rfl, rfl, rfl⟩

variable (watermark) in
/-- What an event of the billing path does: it is dropped as a duplicate, sent to the dead
letters as late, or billed. -/
theorem process_cases {id : String} (hsound : e.malformedEnvelope = false)
    (hfields : (e.customerId.isNone || e.modelId.isNone) = false)
    (husage : isHeartbeat e = false) (hid : e.eventId = some id) :
    (id ∈ s.seen ∧ process A watermark i e s = s) ∨
    (id ∉ s.seen ∧ isLate e.timestamp watermark A.windows.size = true ∧
      process A watermark i e s =
        { s with seen := id :: s.seen, deadLetters := i :: s.deadLetters }) ∨
    (id ∉ s.seen ∧
      process A watermark i e s = bill A watermark i e { s with seen := id :: s.seen }) := by
  have hdeduplicate : deduplicate s.seen e =
      if id ∈ s.seen then none else some (id :: s.seen) := by simp [deduplicate, hid]
  unfold process
  rw [if_neg (by simp [hsound]), if_neg (by simp [hfields]), if_neg (by simp [husage]),
    hdeduplicate]
  by_cases hseen : id ∈ s.seen
  · left
    rw [if_pos hseen]
    exact ⟨hseen, rfl⟩
  · right
    rw [if_neg hseen]
    dsimp only
    by_cases hlate : (!e.authorizedReplay && isLate e.timestamp watermark A.windows.size) = true
    · left
      rw [if_pos hlate]
      exact ⟨hseen, (Bool.and_eq_true_iff.mp hlate).2, rfl⟩
    · right
      rw [if_neg hlate]
      exact ⟨hseen, rfl⟩

theorem project_seen : (project A i e s).seen = s.seen := by
  unfold project
  dsimp only
  split_ifs <;> rfl

theorem project_windows : (project A i e s).windows = s.windows := by
  unfold project
  dsimp only
  split_ifs <;> rfl

theorem project_counted : (project A i e s).counted = s.counted := by
  unfold project
  dsimp only
  split_ifs <;> rfl

theorem addToWindow_keys :
    (addToWindow A watermark i e before s).projectionKeys = s.projectionKeys ∧
    (addToWindow A watermark i e before s).projected = s.projected ∧
    (addToWindow A watermark i e before s).seen = s.seen := by
  unfold addToWindow
  split_ifs <;> exact ⟨rfl, rfl, rfl⟩

theorem bill_seen : (bill A watermark i e s).seen = s.seen := by
  unfold bill
  rw [addToWindow_keys.2.2, project_seen]

variable (watermark) in
/-- The projection of a billed event runs once for every projection key. -/
theorem bill_projected :
    (projectionKey A.sha256 e.eventId ∈ s.projectionKeys ∧
      (bill A watermark i e s).projectionKeys = s.projectionKeys ∧
      (bill A watermark i e s).projected = s.projected) ∨
    (projectionKey A.sha256 e.eventId ∉ s.projectionKeys ∧
      (bill A watermark i e s).projectionKeys =
        projectionKey A.sha256 e.eventId :: s.projectionKeys ∧
      (bill A watermark i e s).projected = i :: s.projected) := by
  unfold bill
  rw [addToWindow_keys.1, addToWindow_keys.2.1]
  by_cases hkey : projectionKey A.sha256 e.eventId ∈ s.projectionKeys
  · left
    unfold project
    dsimp only
    rw [if_pos hkey]
    exact ⟨hkey, rfl, rfl⟩
  · right
    unfold project
    dsimp only
    rw [if_neg hkey]
    exact ⟨hkey, rfl, rfl⟩

variable (watermark) in
/-- A billed event that is on time is counted unless its window has its event id. -/
theorem bill_counted {id : String} (hid : e.eventId = some id)
    (htimely : A.windowLate e.timestamp watermark = false)
    (hnew : id ∉ (s.windows (windowOf A e)).seenEventIds) :
    (bill A watermark i e s).counted = i :: s.counted := by
  unfold bill addToWindow
  dsimp only
  rw [if_neg (by simp [htimely])]
  dsimp only
  rw [project_windows, project_counted, if_neg]
  unfold isDuplicate
  rw [hid]
  simpa using hnew

theorem mem_bill_windows {id x : String} {k : String × ℤ} (hid : e.eventId = some id)
    (hx : x ∈ ((bill A watermark i e s).windows k).seenEventIds) :
    x = id ∨ x ∈ (s.windows k).seenEventIds := by
  unfold bill addToWindow at hx
  dsimp only at hx
  cases hlate : A.windowLate e.timestamp watermark with
  | true =>
    rw [if_pos hlate, project_windows] at hx
    exact Or.inr hx
  | false =>
    rw [if_neg (by simp [hlate])] at hx
    dsimp only at hx
    rw [project_windows] at hx
    by_cases hk : k = windowOf A e
    · subst hk
      rw [Function.update_self] at hx
      rw [UsageAggregate.seenEventIds_addEvent, hid, Option.some.injEq] at hx
      exact hx.imp_left Eq.symm
    · rw [Function.update_of_ne hk] at hx
      exact Or.inr hx

theorem bill_windows (htimely : A.windowLate e.timestamp watermark = false) :
    (bill A watermark i e s).windows = Function.update s.windows (windowOf A e)
      ((s.windows (windowOf A e)).addEvent A.price e
        ((s.meters e.getAggregationKey).tokensBefore e.timestamp)) := by
  unfold bill addToWindow
  dsimp only
  rw [if_neg (by simp [htimely])]
  dsimp only
  rw [project_windows]

end Pipeline

/-! ### Runs -/

/-- A message read from Kafka, at a watermark and a time of the deserializer's clock. -/
structure Delivery (ι : Type*) where
  index : ι
  watermark : ℤ
  clock : ℤ

section Runs
variable {ι : Type*} [DecidableEq ι] {py : Python} (A : Aggregator) (T : JsonText) (D : Databind)
  (ms : ι → Published py)

def deliver (s : Pipeline ι) (d : Delivery ι) : Pipeline ι :=
  s.process A d.watermark d.index ((ms d.index).decoded T D d.clock)

def deliverAll (ds : List (Delivery ι)) : Pipeline ι := ds.foldl (deliver A T D ms) {}

/-- The first delivery of every message is late neither for the router nor for its window. -/
def OnTime (ds : List (Delivery ι)) : Prop :=
  ∀ earlier d later, ds = earlier ++ d :: later → d.index ∉ earlier.map Delivery.index →
    isLate (numAt (ms d.index).payload "timestamp") d.watermark A.windows.size = false ∧
    A.windowLate (numAt (ms d.index).payload "timestamp") d.watermark = false

def messageKey (i : ι) : String := projectionKey A.sha256 (some (ms i).eventId)

/-- What the projection guard alone ensures in every run. -/
structure Guarded (s : Pipeline ι) : Prop where
  billable : ∀ i ∈ s.projected, (ms i).Billable T
  keys : ∀ i ∈ s.projected, messageKey A ms i ∈ s.projectionKeys
  nodup : (s.projected.map (messageKey A ms)).Nodup

/-- The state after deliveries of exactly the messages `is`, all of them billable. -/
structure Delivered (is : List ι) (s : Pipeline ι) : Prop where
  seen : ∀ i, (ms i).eventId ∈ s.seen ↔ i ∈ is
  keys : ∀ i, messageKey A ms i ∈ s.projectionKeys ↔ i ∈ is
  windows : ∀ k i, (ms i).eventId ∈ (s.windows k).seenEventIds → i ∈ is
  projected : ∀ i, s.projected.count i = if i ∈ is then 1 else 0
  counted : ∀ i, s.counted.count i = if i ∈ is then 1 else 0

variable {A T D ms} {ds : List (Delivery ι)} {d : Delivery ι} {s : Pipeline ι}

omit [DecidableEq ι] in
private theorem guarded_deliver (h : Guarded A T ms s) : Guarded A T ms (deliver A T D ms s d) := by
  unfold deliver
  by_cases hbillable : (ms d.index).Billable T
  · obtain ⟨hsound, hid, hfields, husage, -⟩ :=
      Published.decoded_fields (D := D) d.clock hbillable
    rcases Pipeline.process_cases (A := A) d.watermark (i := d.index) (s := s) hsound
      hfields husage hid with ⟨-, heq⟩ | ⟨-, -, heq⟩ | ⟨-, heq⟩
    · rw [heq]
      exact h
    · rw [heq]
      exact ⟨h.billable, h.keys, h.nodup⟩
    · rw [heq]
      rcases Pipeline.bill_projected (A := A) d.watermark (i := d.index)
        (e := (ms d.index).decoded T D d.clock)
        (s := { s with seen := (ms d.index).eventId :: s.seen }) with
        ⟨-, hkeys, hprojected⟩ | ⟨hnew, hkeys, hprojected⟩
      · constructor
        · rw [hprojected]
          exact h.billable
        · rw [hkeys, hprojected]
          exact h.keys
        · rw [hprojected]
          exact h.nodup
      · rw [hid] at hnew hkeys
        constructor
        · rw [hprojected]
          exact List.forall_mem_cons.mpr ⟨hbillable, h.billable⟩
        · rw [hkeys, hprojected]
          exact List.forall_mem_cons.mpr
            ⟨List.mem_cons_self, fun i hi => List.mem_cons_of_mem _ (h.keys i hi)⟩
        · rw [hprojected, List.map_cons, List.nodup_cons]
          refine ⟨fun hmem => ?_, h.nodup⟩
          obtain ⟨i, hi, hkey⟩ := List.mem_map.mp hmem
          have hin := h.keys i hi
          rw [hkey] at hin
          exact hnew hin
  · obtain ⟨hprojected, hkeys, -⟩ := Pipeline.process_aside (A := A) d.watermark
      (i := d.index) (s := s) (Published.decoded_of_not_billable (D := D) d.clock hbillable)
    constructor
    · rw [hprojected]
      exact h.billable
    · rw [hprojected, hkeys]
      exact h.keys
    · rw [hprojected]
      exact h.nodup

omit [DecidableEq ι] in
theorem guarded_deliverAll : Guarded A T ms (deliverAll A T D ms ds) := by
  refine List.foldlRecOn (motive := Guarded A T ms) ds _ ?_ fun s hs d _ => guarded_deliver hs
  exact ⟨by simp, by simp, by simp⟩

theorem deliver_of_mem {is : List ι} (h : Delivered A ms is s) (hbillable : (ms d.index).Billable T)
    (hmem : d.index ∈ is) : deliver A T D ms s d = s := by
  obtain ⟨hsound, hid, hfields, husage, -⟩ := Published.decoded_fields (D := D) d.clock hbillable
  rcases Pipeline.process_cases (A := A) d.watermark (i := d.index) (s := s)
    hsound hfields husage hid with ⟨-, heq⟩ | ⟨hnot, -⟩ | ⟨hnot, -⟩
  · exact heq
  · exact absurd ((h.seen _).mpr hmem) hnot
  · exact absurd ((h.seen _).mpr hmem) hnot

theorem deliver_of_not_mem {is : List ι} (h : Delivered A ms is s)
    (hbillable : (ms d.index).Billable T) (hmem : d.index ∉ is)
    (hrouter : isLate (numAt (ms d.index).payload "timestamp") d.watermark A.windows.size = false) :
    (ms d.index).eventId ∉ s.seen ∧
      deliver A T D ms s d = Pipeline.bill A d.watermark d.index ((ms d.index).decoded T D d.clock)
        { s with seen := (ms d.index).eventId :: s.seen } := by
  obtain ⟨hsound, hid, hfields, husage, htime⟩ :=
    Published.decoded_fields (D := D) d.clock hbillable
  rcases Pipeline.process_cases (A := A) d.watermark (i := d.index) (s := s)
    hsound hfields husage hid with ⟨hseen, -⟩ | ⟨-, hlate, -⟩ | ⟨hnew, heq⟩
  · exact absurd ((h.seen _).mp hseen) hmem
  · rw [htime, hrouter] at hlate
    cases hlate
  · exact ⟨hnew, heq⟩

private theorem delivered_deliver {is : List ι} (hbillable : ∀ i, (ms i).Billable T)
    (hdistinct : ∀ i j, A.sha256 (ms i).eventId = A.sha256 (ms j).eventId → i = j)
    (htimely : d.index ∉ is →
      isLate (numAt (ms d.index).payload "timestamp") d.watermark A.windows.size = false ∧
      A.windowLate (numAt (ms d.index).payload "timestamp") d.watermark = false)
    (h : Delivered A ms is s) :
    Delivered A ms (is ++ [d.index]) (deliver A T D ms s d) := by
  have hids : ∀ i j, (ms i).eventId = (ms j).eventId → i = j := fun i j heq =>
    hdistinct i j (congrArg A.sha256 heq)
  have hkeysInj : ∀ i j, messageKey A ms i = messageKey A ms j → i = j := by
    intro i j heq
    exact hdistinct i j (String.append_right_inj _ |>.mp heq)
  obtain ⟨hsound, hid, hfields, husage, htime⟩ :=
    Published.decoded_fields (D := D) d.clock (hbillable d.index)
  by_cases hmem : d.index ∈ is
  · have hsame : ∀ i, i ∈ is ++ [d.index] ↔ i ∈ is := by
      intro i
      rw [List.mem_append, List.mem_singleton]
      constructor
      · rintro (hi | rfl)
        · exact hi
        · exact hmem
      · exact Or.inl
    rw [deliver_of_mem h (hbillable d.index) hmem]
    constructor
    · intro i
      rw [hsame, h.seen]
    · intro i
      rw [hsame, h.keys]
    · intro k i hi
      exact (hsame i).mpr (h.windows k i hi)
    · intro i
      simp only [hsame, h.projected]
    · intro i
      simp only [hsame, h.counted]
  · obtain ⟨hrouter, hwindow⟩ := htimely hmem
    have hone : ∀ i, i ∈ is ++ [d.index] ↔ i = d.index ∨ i ∈ is := by
      intro i
      rw [List.mem_append, List.mem_singleton, or_comm]
    have heq := (deliver_of_not_mem (D := D) h (hbillable d.index) hmem hrouter).2
    have hnewKey : projectionKey A.sha256 ((ms d.index).decoded T D d.clock).eventId ∉
        s.projectionKeys := by
      rw [hid]
      exact fun hkey => hmem ((h.keys _).mp hkey)
    have hcounted := Pipeline.bill_counted (A := A) d.watermark (i := d.index)
      (s := { s with seen := (ms d.index).eventId :: s.seen }) hid (by rw [htime]; exact hwindow)
      (fun hin => hmem (h.windows _ _ hin))
    have hcount : ∀ (l : List ι), (∀ i, l.count i = if i ∈ is then 1 else 0) → ∀ i,
        (d.index :: l).count i = if i ∈ is ++ [d.index] then 1 else 0 := by
      intro l hl i
      rw [List.count_cons, hl]
      by_cases hi : i = d.index
      · subst hi
        simp [hmem]
      · have hne : (d.index == i) = false := by simpa using fun heq => hi heq.symm
        simp [hne, hone, hi]
    rw [heq]
    rcases Pipeline.bill_projected (A := A) d.watermark (i := d.index)
      (e := (ms d.index).decoded T D d.clock)
      (s := { s with seen := (ms d.index).eventId :: s.seen }) with
      ⟨hin, -⟩ | ⟨-, hkeys, hprojected⟩
    · exact absurd hin hnewKey
    · rw [hid] at hkeys
      constructor
      · intro i
        rw [Pipeline.bill_seen, hone, List.mem_cons, h.seen]
        exact or_congr ⟨hids _ _, fun hi => congrArg (fun j => (ms j).eventId) hi⟩ Iff.rfl
      · intro i
        rw [hkeys, hone, List.mem_cons, h.keys]
        exact or_congr ⟨hkeysInj _ _, fun hi => congrArg (messageKey A ms) hi⟩ Iff.rfl
      · intro k i hi
        rw [hone]
        rcases Pipeline.mem_bill_windows hid hi with heq | hold
        · exact Or.inl (hids _ _ heq)
        · exact Or.inr (h.windows k i hold)
      · rw [hprojected]
        exact hcount _ h.projected
      · rw [hcounted]
        exact hcount _ h.counted

theorem delivered_deliverAll (hbillable : ∀ i, (ms i).Billable T)
    (hdistinct : ∀ i j, A.sha256 (ms i).eventId = A.sha256 (ms j).eventId → i = j)
    (htimely : OnTime A ms ds) :
    Delivered A ms (ds.map Delivery.index) (deliverAll A T D ms ds) := by
  induction ds using List.reverseRecOn with
  | nil => exact ⟨by simp [deliverAll], by simp [deliverAll], by simp [deliverAll],
      by simp [deliverAll], by simp [deliverAll]⟩
  | append_singleton ds d ih =>
    have hearlier : OnTime A ms ds := by
      intro earlier x later heq
      exact htimely earlier x (later ++ [d]) (by rw [heq]; simp)
    have hrun : deliverAll A T D ms (ds ++ [d]) =
        deliver A T D ms (deliverAll A T D ms ds) d := by
      simp [deliverAll]
    rw [hrun, List.map_append]
    exact delivered_deliver hbillable hdistinct (htimely ds d [] rfl) (ih hearlier)

omit [DecidableEq ι] in
theorem onTime_of_forall (h : ∀ d ∈ ds,
    isLate (numAt (ms d.index).payload "timestamp") d.watermark A.windows.size = false ∧
    A.windowLate (numAt (ms d.index).payload "timestamp") d.watermark = false) :
    OnTime A ms ds := by
  intro earlier d later heq _
  apply h
  rw [heq]
  simp

end Runs

/-- The job with windows of ten seconds; its digests are those of the event ids below. -/
def tenSecondJob : Aggregator where
  windows := tenSeconds
  windowLate timestamp watermark := tenSeconds.start timestamp + 9999 ≤ watermark
  price _ _ := 0
  sha256 eventId :=
    if eventId = "e1" then "8b5cc4df7eec7d32a7814eca4af047ae33b2d52342667715682e19c25b0b9faa"
    else "ac0f09c0f8bf5e7a4b063d863255f16d8ce9abe600e288d934cf313bcbff63eb"

/-- A usage event of a tenant's customer `acme`. -/
def usage (tenantId : String) (number : ℕ) : Published .ofEventId where
  event := [("customerId", .str "acme"), ("modelId", .str "gpt"),
    ("eventId", .str ("e" ++ toString number)), ("inputTokens", .num 12), ("timestamp", .num 1000)]
  args := { tenantId := some tenantId, apiKeyId := none, receivedAt := 1000, traceId := "trace" }
  clock := 1000
  payload := [("customerId", .str "acme"), ("modelId", .str "gpt"),
    ("eventId", .str ("e" ++ toString number)), ("inputTokens", .num 12), ("timestamp", .num 1000)]
  payloadHash := "e" ++ toString number
  customerId := "acme"
  envelope := _
  prepared := by
    simp [preparePayload, resolveCustodyEventId, given, truthy, Python.ofEventId,
      Python.canonicalPayloadHash, Dict.get_cons, Dict.set]
  typed := by
    constructor <;>
      simp [textProperties, intProperties, trustedProperties, Dict.get_cons, Dict.get_nil]
  customer := rfl
  client := by simp
  enveloped := rfl

end FluxMeter.Job
