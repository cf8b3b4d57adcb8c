import FluxMeter.Job.ExactlyOnce
import FluxMeter.Usage.Rollups

/-! What the deliveries leave behind: the counters of the windows and the rollups that the projection
writes to Redis. -/
namespace FluxMeter.Job
open FluxMeter.Budget FluxMeter.Custody FluxMeter.Keys FluxMeter.Model FluxMeter.Pricing
open FluxMeter.Usage FluxMeter.Wire

structure BillingJob where
  windows : TumblingWindows
  /-- The late check of Flink's window operator, of a timestamp against a watermark. -/
  windowLate : ℤ → ℤ → Bool
  catalog : PricingCatalog
  sha256 : String → String
  allowedDimensions : List String

def BillingJob.aggregator (J : BillingJob) : Aggregator where
  windows := J.windows
  windowLate := J.windowLate
  price := J.catalog.calculateEventCostMicro
  sha256 := J.sha256

def BillingJob.projection (J : BillingJob) : Projection where
  catalog := J.catalog
  sha256 := J.sha256
  allowedDimensions := J.allowedDimensions
  windowMillis := J.windows.size

/-- The volume stamped on an event that gets to the projection and to its window. -/
def Pipeline.stamp {ι : Type*} (A : Aggregator) (watermark : ℤ) (e : TokenEvent) (s : Pipeline ι) :
    Option ℤ :=
  if e.malformedEnvelope then none
  else if e.customerId.isNone || e.modelId.isNone then none
  else if isHeartbeat e then none
  else
    match deduplicate s.seen e with
    | none => none
    | some _ =>
      if !e.authorizedReplay && isLate e.timestamp watermark A.windows.size then none
      else some ((s.meters e.getAggregationKey).tokensBefore e.timestamp)

/-- A delivery with the clock of the projection sink. -/
structure Received (ι : Type*) extends Delivery ι where
  now : String

/-- The operators of the job and the Redis of its projection. -/
structure Billing (ι : Type*) where
  job : Pipeline ι := {}
  redis : Keyspace := {}

section Runs
variable {ι : Type*} {py : Python} (J : BillingJob) (T : JsonText) (D : Databind)
  (ms : ι → Published py)

def Billing.deliver (s : Billing ι) (d : Received ι) : Billing ι :=
  let e := (ms d.index).decoded T D d.clock
  { job := Job.deliver J.aggregator T D ms s.job d.toDelivery
    redis := match s.job.stamp J.aggregator d.watermark e with
      | some before => (J.projection.apply s.redis e before d.now).1
      | none => s.redis }

/-- What the deliveries leave behind, in their order. -/
def Billing.deliverAll (ds : List (Received ι)) : Billing ι := ds.foldl (Billing.deliver J T D ms) {}

/-- The event of a message. -/
def messageEvent (i : ι) : TokenEvent := (ms i).decoded T D 0

end Runs

/-- The counters of a window are the sums over the messages `is`, each at the volume before it. -/
structure WindowSums {ι : Type*} (price : UsageAggregate.Pricing) (ev : ι → TokenEvent)
    (before : ι → ℤ) (is : List ι) (agg : UsageAggregate) : Prop where
  events : agg.eventCount = wrap64 is.length
  input : agg.inputTokens = wrap64 (is.map fun i => (ev i).inputTokens).sum
  output : agg.outputTokens = wrap64 (is.map fun i => (ev i).outputTokens).sum
  total : agg.totalTokens = wrap64 (is.map fun i => (ev i).getTotalTokens).sum
  cost : agg.costMicro = wrap64 (is.map fun i => price (ev i) (before i)).sum

/-- The windows hold what was counted in them, and the rollups of the models what was projected. -/
structure Recorded {ι : Type*} (J : BillingJob) (ev : ι → TokenEvent) (before : ι → ℤ)
    (s : Billing ι) : Prop where
  windows : ∀ k, WindowSums J.catalog.calculateEventCostMicro ev before
    (s.job.counted.filter fun i => Pipeline.windowOf J.aggregator (ev i) = k) (s.job.windows k)
  rollups : ∀ (field : RollupField) key, field.read s.redis.usage key =
    ((s.job.projected.filter fun i => (J.projection.keys (ev i)).modelRollup = key).map fun i =>
      field.ofEvent (J.catalog.calculateEventCostMicro (ev i) (before i)) (ev i)).sum

/-- Every message is counted in its window once and projected once, and this is what the counters of
the windows and the rollups in Redis hold. -/
structure BilledOnce {ι : Type*} [DecidableEq ι] (J : BillingJob) (ev : ι → TokenEvent)
    (before : ι → ℤ) (s : Billing ι) : Prop extends Recorded J ev before s where
  counted : ∀ i, s.job.counted.count i = 1
  projected : ∀ i, s.job.projected.count i = 1

section Windows
variable {ι : Type*} {price : UsageAggregate.Pricing} {ev : ι → TokenEvent} {before before' : ι → ℤ}
  {is : List ι} {agg : UsageAggregate} {i : ι}

theorem WindowSums.congr (h : WindowSums price ev before is agg)
    (hsame : ∀ j ∈ is, before' j = before j) : WindowSums price ev before' is agg where
  events := h.events
  input := h.input
  output := h.output
  total := h.total
  cost := by
    rw [h.cost]
    congr 2
    exact List.map_congr_left fun j hj => by rw [hsame j hj]

theorem WindowSums.count (h : WindowSums price ev before is agg) (seen : List String) :
    WindowSums price ev before (i :: is)
      (UsageAggregate.count price { agg with seenEventIds := seen } (ev i) (before i)) := by
  have hcons : ∀ f : ι → ℤ, wrap64 (wrap64 (is.map f).sum + f i) = wrap64 ((i :: is).map f).sum := by
    intro f
    rw [wrap64_add, List.map_cons, List.sum_cons, add_comm]
  constructor
  case events =>
    show wrap64 (agg.eventCount + 1) = _
    rw [h.events, wrap64_add, List.length_cons]
    push_cast
    rfl
  case input =>
    show wrap64 (agg.inputTokens + (ev i).inputTokens) = _
    rw [h.input, hcons fun i => (ev i).inputTokens]
  case output =>
    show wrap64 (agg.outputTokens + (ev i).outputTokens) = _
    rw [h.output, hcons fun i => (ev i).outputTokens]
  case total =>
    show wrap64 (agg.totalTokens + (ev i).getTotalTokens) = _
    rw [h.total, hcons fun i => (ev i).getTotalTokens]
  case cost =>
    show wrap64 (agg.costMicro + price (ev i) (before i)) = _
    rw [h.cost, hcons fun i => price (ev i) (before i)]

theorem WindowSums.addEvent (h : WindowSums price ev before is agg) {id : String}
    (hid : (ev i).eventId = some id) (hnew : id ∉ agg.seenEventIds) :
    WindowSums price ev before (i :: is) (agg.addEvent price (ev i) (before i)) := by
  unfold UsageAggregate.addEvent
  rw [hid]
  dsimp only
  rw [if_neg hnew]
  exact h.count _

/-- An event that its window has not seen is added there; the other windows stay as they are. -/
private theorem windowSums_update [DecidableEq ι] {κ : Type*} [DecidableEq κ]
    {windowOf : TokenEvent → κ} {windows : κ → UsageAggregate}
    (h : ∀ k, WindowSums price ev before (is.filter fun i => windowOf (ev i) = k) (windows k))
    {id : String} (hid : (ev i).eventId = some id) (hfresh : i ∉ is)
    (hnew : id ∉ (windows (windowOf (ev i))).seenEventIds) (volume : ℤ) (k : κ) :
    WindowSums price ev (Function.update before i volume)
      ((i :: is).filter fun j => windowOf (ev j) = k)
      (Function.update windows (windowOf (ev i))
        ((windows (windowOf (ev i))).addEvent price (ev i) volume) k) := by
  have hold : ∀ j ∈ is.filter fun j => windowOf (ev j) = k,
      Function.update before i volume j = before j := by
    intro j hj
    rw [Function.update_of_ne]
    exact fun hji => hfresh (hji ▸ (List.mem_filter.mp hj).1)
  have hsums := (h k).congr hold
  by_cases hk : k = windowOf (ev i)
  · subst hk
    have hadd := hsums.addEvent hid hnew
    rw [Function.update_self] at hadd
    rw [Function.update_self, List.filter_cons_of_pos (by simp)]
    exact hadd
  · rw [Function.update_of_ne hk, List.filter_cons_of_neg (by simpa using Ne.symm hk)]
    exact hsums

end Windows

section Steps
variable {ι : Type*} [DecidableEq ι] {py : Python} {J : BillingJob} {T : JsonText} {D : Databind}
  {ms : ι → Published py} {d : Received ι} {s : Billing ι} {is : List ι} {before : ι → ℤ}

omit [DecidableEq ι] in
theorem messageEvent_eq {i : ι} (h : (ms i).Billable T) (clock : ℤ) :
    (ms i).decoded T D clock = messageEvent T D ms i := by
  unfold messageEvent
  rw [Published.decoded_of_billable h, Published.decoded_of_billable h]

theorem stamp_of_mem (h : Delivered J.aggregator ms is s.job) (hbillable : (ms d.index).Billable T)
    (hmem : d.index ∈ is) :
    s.job.stamp J.aggregator d.watermark ((ms d.index).decoded T D d.clock) = none := by
  obtain ⟨hsound, hid, hfields, husage, -⟩ := Published.decoded_fields (D := D) d.clock hbillable
  unfold Pipeline.stamp
  rw [if_neg (by simp [hsound]), if_neg (by simp [hfields]), if_neg (by simp [husage])]
  unfold deduplicate
  rw [hid]
  dsimp only
  rw [if_pos ((h.seen _).mpr hmem)]

theorem stamp_of_not_mem (h : Delivered J.aggregator ms is s.job)
    (hbillable : (ms d.index).Billable T) (hmem : d.index ∉ is)
    (hrouter : isLate (numAt (ms d.index).payload "timestamp") d.watermark J.windows.size = false) :
    s.job.stamp J.aggregator d.watermark ((ms d.index).decoded T D d.clock) =
      some ((s.job.meters ((ms d.index).decoded T D d.clock).getAggregationKey).tokensBefore
        ((ms d.index).decoded T D d.clock).timestamp) := by
  obtain ⟨hsound, hid, hfields, husage, htime⟩ :=
    Published.decoded_fields (D := D) d.clock hbillable
  have hlate : isLate ((ms d.index).decoded T D d.clock).timestamp d.watermark
      J.aggregator.windows.size = false := by
    rw [htime]
    exact hrouter
  unfold Pipeline.stamp
  rw [if_neg (by simp [hsound]), if_neg (by simp [hfields]), if_neg (by simp [husage])]
  unfold deduplicate
  rw [hid]
  dsimp only
  rw [if_neg (mt (h.seen _).mp hmem)]
  dsimp only
  rw [hlate, Bool.and_false, if_neg Bool.false_ne_true]

omit [DecidableEq ι] in
theorem recorded_nil (ev : ι → TokenEvent) (before : ι → ℤ) : Recorded J ev before {} where
  windows k := by
    have hzero : (0 : ℤ) = wrap64 0 := by decide
    exact ⟨hzero, hzero, hzero, hzero, hzero⟩
  rollups field key := by cases field <;> rfl

omit [DecidableEq ι] in
/-- The guards in Redis are those of the projection. -/
def Synced (s : Billing ι) : Prop :=
  ∀ key, s.redis.projected key = true ↔ key ∈ s.job.projectionKeys

/-- An event whose projection is not guarded is added to the rollup of its model. -/
private theorem rollups_apply {ev : ι → TokenEvent} {r : Keyspace} {i : ι} (field : RollupField)
    (key : String)
    (h : field.read r.usage key =
      ((is.filter fun j => (J.projection.keys (ev j)).modelRollup = key).map fun j =>
        field.ofEvent (J.catalog.calculateEventCostMicro (ev j) (before j)) (ev j)).sum)
    (hfresh : i ∉ is)
    (hguard : r.projected (J.projection.projectionKey (ev i).eventId) = false) (volume : ℤ)
    (now : String) :
    field.read (J.projection.apply r (ev i) volume now).1.usage key =
      (((i :: is).filter fun j => (J.projection.keys (ev j)).modelRollup = key).map fun j =>
        field.ofEvent (J.catalog.calculateEventCostMicro (ev j)
          (Function.update before i volume j)) (ev j)).sum := by
  have hsame : ∀ j ∈ is.filter fun j => (J.projection.keys (ev j)).modelRollup = key,
      field.ofEvent (J.catalog.calculateEventCostMicro (ev j) (before j)) (ev j) =
        field.ofEvent (J.catalog.calculateEventCostMicro (ev j)
          (Function.update before i volume j)) (ev j) := by
    intro j hj
    rw [Function.update_of_ne]
    exact fun hji => hfresh (hji ▸ (List.mem_filter.mp hj).1)
  rw [read_apply, hguard, if_neg Bool.false_ne_true, h, List.map_congr_left hsame]
  by_cases hkey : (J.projection.keys (ev i)).modelRollup = key
  · rw [if_pos hkey, List.filter_cons_of_pos (by simpa using hkey), List.map_cons, List.sum_cons,
      Function.update_self, add_comm]
    rfl
  · rw [if_neg hkey, add_zero, List.filter_cons_of_neg (by simpa using hkey)]

/-- A first delivery in time is billed. -/
private theorem deliver_first (h : Delivered J.aggregator ms is s.job)
    (hbillable : (ms d.index).Billable T) (hmem : d.index ∉ is)
    (hrouter : isLate (numAt (ms d.index).payload "timestamp") d.watermark J.windows.size = false) :
    s.deliver J T D ms d =
      { job := Pipeline.bill J.aggregator d.watermark d.index (messageEvent T D ms d.index)
          { s.job with seen := (ms d.index).eventId :: s.job.seen }
        redis := (J.projection.apply s.redis (messageEvent T D ms d.index)
          ((s.job.meters (messageEvent T D ms d.index).getAggregationKey).tokensBefore
            (messageEvent T D ms d.index).timestamp) d.now).1 } := by
  have hstamp := stamp_of_not_mem (D := D) h hbillable hmem hrouter
  have hjob := (deliver_of_not_mem (D := D) h hbillable hmem hrouter).2
  unfold Billing.deliver
  dsimp only
  rw [hjob, hstamp, messageEvent_eq hbillable]

private theorem recorded_deliver (h : Delivered J.aggregator ms is s.job) (hsynced : Synced s)
    (hrecorded : Recorded J (messageEvent T D ms) before s) (hbillable : ∀ i, (ms i).Billable T)
    (htimely : d.index ∉ is →
      isLate (numAt (ms d.index).payload "timestamp") d.watermark J.windows.size = false ∧
      J.windowLate (numAt (ms d.index).payload "timestamp") d.watermark = false) :
    ∃ before', Recorded J (messageEvent T D ms) before' (s.deliver J T D ms d) ∧
      Synced (s.deliver J T D ms d) := by
  obtain ⟨-, hid, -, -, htime⟩ := Published.decoded_fields (D := D) d.clock (hbillable d.index)
  rw [messageEvent_eq (hbillable d.index)] at hid htime
  by_cases hmem : d.index ∈ is
  · have hsame : s.deliver J T D ms d = s := by
      unfold Billing.deliver
      dsimp only
      rw [deliver_of_mem h (hbillable d.index) hmem, stamp_of_mem h (hbillable d.index) hmem]
    rw [hsame]
    exact ⟨before, hrecorded, hsynced⟩
  obtain ⟨hrouter, hwindow⟩ := htimely hmem
  have hnewKey : projectionKey J.sha256 (messageEvent T D ms d.index).eventId ∉
      s.job.projectionKeys := by
    rw [hid]
    exact fun hkey => hmem ((h.keys _).mp hkey)
  have hnewId : (ms d.index).eventId ∉
      (s.job.windows (Pipeline.windowOf J.aggregator (messageEvent T D ms d.index))).seenEventIds :=
    fun hin => hmem (h.windows _ _ hin)
  have htimelyWindow : J.aggregator.windowLate (messageEvent T D ms d.index).timestamp d.watermark =
      false := by
    rw [htime]
    exact hwindow
  have hguard : s.redis.projected
      (J.projection.projectionKey (messageEvent T D ms d.index).eventId) = false :=
    Bool.eq_false_iff.mpr fun hset => hnewKey ((hsynced _).mp hset)
  -- no message before this one is this one
  have hfresh : ∀ l : List ι, (∀ i, l.count i = if i ∈ is then 1 else 0) → d.index ∉ l := by
    intro l hl
    rw [← List.count_eq_zero, hl, if_neg hmem]
  rw [deliver_first h (hbillable d.index) hmem hrouter]
  have hcounted := Pipeline.bill_counted (A := J.aggregator) d.watermark (i := d.index)
    (s := { s.job with seen := (ms d.index).eventId :: s.job.seen }) hid htimelyWindow hnewId
  have hwindows := Pipeline.bill_windows (i := d.index)
    (s := { s.job with seen := (ms d.index).eventId :: s.job.seen }) htimelyWindow
  obtain ⟨-, hkeys, hprojected⟩ := (Pipeline.bill_projected (A := J.aggregator) d.watermark
    (i := d.index) (e := messageEvent T D ms d.index)
    (s := { s.job with seen := (ms d.index).eventId :: s.job.seen })).resolve_left
      fun hin => hnewKey hin.1
  refine ⟨Function.update before d.index
    ((s.job.meters (messageEvent T D ms d.index).getAggregationKey).tokensBefore
      (messageEvent T D ms d.index).timestamp), ⟨fun k => ?_, fun field key => ?_⟩, fun key => ?_⟩
  · dsimp only
    rw [hcounted, hwindows]
    exact windowSums_update hrecorded.windows hid (hfresh _ h.counted) hnewId _ k
  · dsimp only
    rw [hprojected]
    exact rollups_apply field key (hrecorded.rollups field key) (hfresh _ h.projected) hguard _ _
  · show (J.projection.apply s.redis _ _ d.now).1.projected key = true ↔ key ∈ _
    rw [projected_apply, hkeys, List.mem_cons, hsynced]
    rfl

omit [DecidableEq ι] in
theorem job_deliverAll (ds : List (Received ι)) : (Billing.deliverAll J T D ms ds).job =
    deliverAll J.aggregator T D ms (ds.map Received.toDelivery) := by
  induction ds using List.reverseRecOn with
  | nil => rfl
  | append_singleton ds d ih =>
    unfold Billing.deliverAll deliverAll at ih ⊢
    rw [List.foldl_append, List.map_append, List.foldl_append]
    exact congrArg (fun job => Job.deliver J.aggregator T D ms job d.toDelivery) ih

private theorem recorded_deliverAll {ds : List (Received ι)} (hbillable : ∀ i, (ms i).Billable T)
    (hdistinct : ∀ i j, J.sha256 (ms i).eventId = J.sha256 (ms j).eventId → i = j)
    (htimely : OnTime J.aggregator ms (ds.map Received.toDelivery)) :
    ∃ before, Recorded J (messageEvent T D ms) before (Billing.deliverAll J T D ms ds) ∧
      Synced (Billing.deliverAll J T D ms ds) := by
  induction ds using List.reverseRecOn with
  | nil => exact ⟨fun _ => 0, recorded_nil _ _, fun key => by simp [Billing.deliverAll]⟩
  | append_singleton ds d ih =>
    have hearlier : OnTime J.aggregator ms (ds.map Received.toDelivery) := by
      intro earlier x later heq
      exact htimely earlier x (later ++ [d.toDelivery]) (by rw [List.map_append, heq]; simp)
    obtain ⟨before, hrecorded, hsynced⟩ := ih hearlier
    have hdelivered := delivered_deliverAll (D := D) hbillable hdistinct hearlier
    rw [← job_deliverAll] at hdelivered
    have hrun : Billing.deliverAll J T D ms (ds ++ [d]) =
        (Billing.deliverAll J T D ms ds).deliver J T D ms d := by
      simp [Billing.deliverAll]
    rw [hrun]
    exact recorded_deliver hdelivered hsynced hrecorded hbillable
      (htimely _ d.toDelivery [] (by simp))

end Steps

/-- Under any redelivery of on-time messages, every message is billed exactly once if and only
if every message is billable and the event ids have distinct digests, whatever their tenants. -/
theorem billedOnce_iff {ι : Type*} [DecidableEq ι] {py : Python} (J : BillingJob) (T : JsonText)
    (D : Databind) (ms : ι → Published py) (ds : List (Received ι))
    (hall : ∀ i, ∃ d ∈ ds, d.index = i)
    (htimely : OnTime J.aggregator ms (ds.map Received.toDelivery)) :
    (∃ before, BilledOnce J (messageEvent T D ms) before (Billing.deliverAll J T D ms ds)) ↔
      (∀ i, (ms i).Billable T) ∧
      ∀ i j, J.sha256 (ms i).eventId = J.sha256 (ms j).eventId → i = j := by
  constructor
  case mp =>
    rintro ⟨before, hbilled⟩
    have hguarded : Guarded J.aggregator T ms
        (deliverAll J.aggregator T D ms (ds.map Received.toDelivery)) := guarded_deliverAll
    rw [← job_deliverAll] at hguarded
    have hmem : ∀ i, i ∈ (Billing.deliverAll J T D ms ds).job.projected := by
      intro i
      apply List.count_pos_iff.mp
      rw [hbilled.projected i]
      exact one_pos
    refine ⟨fun i => hguarded.billable i (hmem i), fun i j heq => ?_⟩
    exact List.inj_on_of_nodup_map hguarded.nodup (hmem i) (hmem j)
      (congrArg ("projection:" ++ ·) heq)
  case mpr =>
    rintro ⟨hbillable, hdistinct⟩
    obtain ⟨before, hrecorded, -⟩ := recorded_deliverAll (D := D) hbillable hdistinct htimely
    have hdelivered := delivered_deliverAll (D := D) hbillable hdistinct htimely
    rw [← job_deliverAll, List.map_map] at hdelivered
    have hin : ∀ i, i ∈ ds.map (Delivery.index ∘ Received.toDelivery) := by
      intro i
      obtain ⟨d, hd, rfl⟩ := hall i
      exact List.mem_map.mpr ⟨d, hd, rfl⟩
    refine ⟨before, hrecorded, fun i => ?_, fun i => ?_⟩
    · rw [hdelivered.counted, if_pos (hin i)]
    · rw [hdelivered.projected, if_pos (hin i)]

def twoTenants (first second : ℕ) (i : Bool) : Published .ofEventId :=
  if i then usage "t1" first else usage "t2" second

/-- One microdollar for an input token, in windows of ten seconds; the digests are those of the event
ids below. -/
def tenSecondBilling : BillingJob where
  windows := tenSeconds
  windowLate := tenSecondJob.windowLate
  catalog := flatCatalog 1 3 0 1
  sha256 := tenSecondJob.sha256
  allowedDimensions := []

theorem billedOnce_redelivered :
    ∃ before, BilledOnce tenSecondBilling (messageEvent .tree .fieldwise (twoTenants 1 2)) before
      (Billing.deliverAll tenSecondBilling .tree .fieldwise (twoTenants 1 2)
        [⟨⟨true, 0, 0⟩, "1000"⟩, ⟨⟨false, 0, 0⟩, "1001"⟩, ⟨⟨true, 5000, 7⟩, "1002"⟩]) := by
  refine (billedOnce_iff _ _ _ _ _ (by decide) (onTime_of_forall ?_)).mpr ⟨?_, by decide +kernel⟩
  · decide +kernel
  · intro i
    cases i <;> exact ⟨trivial, by decide +kernel, by decide, by decide +kernel, by decide,
      by decide +kernel⟩

/-- Two tenants use one event id: the event of the second is dropped as a duplicate. -/
theorem not_billedOnce_shared_eventId :
    (∀ i j, (twoTenants 1 1 i).identity = (twoTenants 1 1 j).identity → i = j) ∧
    OnTime tenSecondBilling.aggregator (twoTenants 1 1) [⟨true, 0, 0⟩, ⟨false, 0, 0⟩] ∧
    ¬ ∃ before, BilledOnce tenSecondBilling (messageEvent .tree .fieldwise (twoTenants 1 1)) before
      (Billing.deliverAll tenSecondBilling .tree .fieldwise (twoTenants 1 1)
        [⟨⟨true, 0, 0⟩, "1000"⟩, ⟨⟨false, 0, 0⟩, "1001"⟩]) := by
  refine ⟨by decide +kernel, onTime_of_forall (by decide +kernel), ?_⟩
  rintro ⟨before, h⟩
  have hcounted := h.counted false
  revert hcounted
  decide +kernel

end FluxMeter.Job
