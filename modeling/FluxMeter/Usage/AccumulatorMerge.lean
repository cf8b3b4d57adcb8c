import FluxMeter.Collections.Readings
import FluxMeter.Job.SpanAttribution
import FluxMeter.Usage.BillingMonotone

/-! `merge` of the two accumulators against folding all events into one. The merge of two windows adds
up what each has counted: an event id that both have seen is counted twice, and the tenant is that of
the left one. -/
namespace FluxMeter.Usage
open Collections FluxMeter.Keys FluxMeter.Model

/-! ### The accumulators of a list of events -/

/-- `UsageAggregateFunction.add` of one event after the other. -/
def accumulate (price : UsageAggregate.Pricing) (before : TokenEvent → ℤ) (es : List TokenEvent) :
    UsageAggregate :=
  es.foldl (fun acc e => acc.addEvent price e (before e)) {}

/-- `SpanAggregateFunction.add` of one event after the other. -/
def accumulateSpan (cost : TokenEvent → ℚ) (es : List TokenEvent) : SpanAggregate :=
  es.foldl (fun acc e => acc.addEvent e (cost e)) {}

/-- The `long` fields of a window that its events add to. -/
inductive Amount
  | input
  | output
  | cacheRead
  | cacheWrite
  | reasoning
  | embedding
  | total
  | cost
  | events
  | latency
  deriving DecidableEq

namespace Amount

def read (acc : UsageAggregate) : Amount → ℤ
  | .input => acc.inputTokens
  | .output => acc.outputTokens
  | .cacheRead => acc.cacheReadTokens
  | .cacheWrite => acc.cacheWriteTokens
  | .reasoning => acc.reasoningTokens
  | .embedding => acc.embeddingTokens
  | .total => acc.totalTokens
  | .cost => acc.costMicro
  | .events => acc.eventCount
  | .latency => acc.totalLatencyMs

def ofEvent (price : UsageAggregate.Pricing) (before : TokenEvent → ℤ) (e : TokenEvent) :
    Amount → ℤ
  | .input => e.inputTokens
  | .output => e.outputTokens
  | .cacheRead => e.cacheReadTokens
  | .cacheWrite => e.cacheWriteTokens
  | .reasoning => e.reasoningTokens
  | .embedding => e.embeddingTokens
  | .total => e.getTotalTokens
  | .cost => price e (before e)
  | .events => 1
  | .latency => if 0 < e.latencyMs then e.latencyMs else 0

end Amount

def namedTenant (e : TokenEvent) : Option String := e.tenantId.filter fun t => !isBlank t

/-- The tenant of the last of the events that has one. -/
def tenantOf : List TokenEvent → Option String
  | [] => none
  | e :: es => (tenantOf es).or (namedTenant e)

/-! ### What is compared -/

/-- Two accumulators hold the same counters, cost, number of distinct events, ids and tenant. -/
structure Agrees (acc acc' : UsageAggregate) : Prop where
  amounts : ∀ a : Amount, a.read acc = a.read acc'
  deduplicated : acc.deduplicatedCount = acc'.deduplicatedCount
  seen : ∀ id, id ∈ acc.seenEventIds ↔ id ∈ acc'.seenEventIds
  tenant : acc.tenantId = acc'.tenantId

structure SpanAgrees (acc acc' : SpanAggregate) : Prop where
  total : acc.totalTokens = acc'.totalTokens
  input : acc.inputTokens = acc'.inputTokens
  output : acc.outputTokens = acc'.outputTokens
  reasoning : acc.reasoningTokens = acc'.reasoningTokens
  cost : acc.costUsd = acc'.costUsd
  calls : acc.callCount = acc'.callCount
  first : acc.firstEventTime = acc'.firstEventTime
  last : acc.lastEventTime = acc'.lastEventTime
  tenant : acc.tenantId = acc'.tenantId

def idsOf (es : List TokenEvent) : List String := es.filterMap TokenEvent.eventId

/-- The distinct events of `later` whose id is one of `earlier`, which a merge counts again. -/
def recounted (earlier later : List TokenEvent) : List TokenEvent :=
  (distinctEvents [] later).filter fun e => e.eventId.any (· ∈ idsOf earlier)

/-- The events that are counted again add nothing modulo `2^64` to any field, and no event of `later`
with an id of its own has another tenant than `earlier` ends with. -/
structure Mergeable (price : UsageAggregate.Pricing) (before : TokenEvent → ℤ)
    (earlier later : List TokenEvent) : Prop where
  amounts : ∀ a : Amount,
    (2 ^ 64 : ℤ) ∣ ((recounted earlier later).map fun e => a.ofEvent price before e).sum
  tenant : ∀ t, tenantOf (distinctEvents (idsOf earlier) later) = some t →
    tenantOf (distinctEvents [] earlier) = some t

/-! ### Distinct events -/

section Distinct
variable {seen seen' : List String} {es : List TokenEvent}

theorem distinctEvents_congr (h : ∀ id, id ∈ seen ↔ id ∈ seen') (es : List TokenEvent) :
    distinctEvents seen es = distinctEvents seen' es := by
  induction es generalizing seen seen' with
  | nil => rfl
  | cons e es ih =>
    unfold distinctEvents
    cases e.eventId with
    | none => exact congrArg (e :: ·) (ih h)
    | some id =>
      dsimp only
      rw [if_congr (h id) (ih h) (congrArg (e :: ·) (ih fun x => ?_))]
      rw [List.mem_cons, List.mem_cons, h x]

private theorem distinctEvents_append (earlier seen : List String) (es : List TokenEvent) :
    distinctEvents (earlier ++ seen) es =
      (distinctEvents seen es).filter fun e => !e.eventId.any (· ∈ earlier) := by
  induction es generalizing seen with
  | nil => rfl
  | cons e es ih =>
    unfold distinctEvents
    cases hid : e.eventId with
    | none =>
      dsimp only
      rw [ih seen, List.filter_cons_of_pos (by simp [hid])]
    | some id =>
      dsimp only
      by_cases hseen : id ∈ seen
      · rw [if_pos (List.mem_append_right _ hseen), if_pos hseen, ih seen]
      · have hcons : distinctEvents (id :: (earlier ++ seen)) es =
            (distinctEvents (id :: seen) es).filter fun e => !e.eventId.any (· ∈ earlier) := by
          rw [← ih (id :: seen)]
          exact distinctEvents_congr (fun x => by simp; tauto) es
        rw [if_neg hseen]
        by_cases hearlier : id ∈ earlier
        · rw [if_pos (List.mem_append_left _ hearlier),
            List.filter_cons_of_neg (by simp [hid, hearlier]), ← hcons]
          exact distinctEvents_congr (fun x => by simp; rintro rfl; exact Or.inl hearlier) es
        · rw [if_neg (by simp [hseen, hearlier]), List.filter_cons_of_pos (by simp [hid, hearlier]),
            hcons]

theorem mem_idsOf {id : String} : id ∈ idsOf es ↔ ∃ e ∈ es, e.eventId = some id :=
  List.mem_filterMap

theorem sum_recounted (f : TokenEvent → ℤ) (earlier later : List TokenEvent) :
    ((distinctEvents [] later).map f).sum =
      ((recounted earlier later).map f).sum +
        ((distinctEvents (idsOf earlier) later).map f).sum := by
  have hsplit := distinctEvents_append (idsOf earlier) [] later
  rw [List.append_nil] at hsplit
  have hperm := List.filter_append_perm (fun e : TokenEvent => e.eventId.any (· ∈ idsOf earlier))
    (distinctEvents [] later)
  rw [hsplit, ← (hperm.map f).sum_eq, List.map_append, List.sum_append]
  rfl

end Distinct

theorem or_eq_self_iff {α : Type*} {a b : Option α} :
    a = b.or a ↔ ∀ t, b = some t → a = some t := by
  cases b with
  | none => simp
  | some t => simp

/-! ### Windows -/

section Windows
variable {price : UsageAggregate.Pricing} {before : TokenEvent → ℤ} {acc other : UsageAggregate}
  {A B es : List TokenEvent}

theorem Amount.meter (a : Amount) : Meter price before a.read (a.ofEvent price before) := by
  cases a with
  | latency =>
    refine ⟨fun acc seen e hlong => ?_, fun _ _ => rfl⟩
    show (if 0 < e.latencyMs then wrap64 (acc.totalLatencyMs + e.latencyMs) else acc.totalLatencyMs) =
      wrap64 (acc.totalLatencyMs + if 0 < e.latencyMs then e.latencyMs else 0)
    split_ifs
    · rfl
    · rw [add_zero]
      exact hlong.symm
  | _ => exact ⟨fun _ _ _ _ => rfl, fun _ _ => rfl⟩

theorem Amount.read_merge (a : Amount) :
    a.read (acc.merge other) = wrap64 (a.read acc + a.read other) := by
  cases a <;> rfl

theorem seenEventIds_foldl {id : String} (es : List TokenEvent) : ∀ acc : UsageAggregate,
    id ∈ (es.foldl (fun acc e => acc.addEvent price e (before e)) acc).seenEventIds ↔
      id ∈ idsOf es ∨ id ∈ acc.seenEventIds := by
  induction es with
  | nil => simp [idsOf]
  | cons e es ih =>
    intro acc
    rw [List.foldl_cons, ih, UsageAggregate.seenEventIds_addEvent, mem_idsOf, mem_idsOf]
    rw [List.exists_mem_cons_iff, or_left_comm, or_assoc]

theorem seenEventIds_accumulate {id : String} :
    id ∈ (accumulate price before es).seenEventIds ↔ id ∈ idsOf es := by
  unfold accumulate
  rw [seenEventIds_foldl]
  simp

theorem accumulate_append : accumulate price before (A ++ B) =
    B.foldl (fun acc e => acc.addEvent price e (before e)) (accumulate price before A) :=
  List.foldl_append

theorem Amount.read_accumulate (a : Amount) : a.read (accumulate price before es) =
    wrap64 ((distinctEvents [] es).map fun e => a.ofEvent price before e).sum := by
  have hempty : a.read {} = wrap64 (([] : List TokenEvent).map (a.ofEvent price before)).sum := by
    cases a <;> rfl
  exact a.meter.foldl es [] {} hempty

theorem Amount.read_append (a : Amount) : a.read (accumulate price before (A ++ B)) =
    wrap64 (((distinctEvents [] A).map fun e => a.ofEvent price before e).sum +
      ((distinctEvents (idsOf A) B).map fun e => a.ofEvent price before e).sum) := by
  have hseen : distinctEvents (accumulate price before A).seenEventIds B =
      distinctEvents (idsOf A) B := distinctEvents_congr (fun id => seenEventIds_accumulate) B
  rw [accumulate_append, a.meter.foldl B (distinctEvents [] A) _ a.read_accumulate, hseen,
    List.map_append, List.sum_append]

private theorem wrap64_merge_iff (x r z : ℤ) :
    wrap64 (wrap64 x + wrap64 (r + z)) = wrap64 (x + z) ↔ (2 ^ 64 : ℤ) ∣ r := by
  unfold wrap64
  omega

/-- A field of the merge is that of the fold where the events that are counted again add nothing. -/
theorem Amount.merge_iff (a : Amount) :
    a.read ((accumulate price before A).merge (accumulate price before B)) =
        a.read (accumulate price before (A ++ B)) ↔
      (2 ^ 64 : ℤ) ∣ ((recounted A B).map fun e => a.ofEvent price before e).sum := by
  rw [a.read_merge, a.read_accumulate, a.read_accumulate, a.read_append, sum_recounted _ A B]
  exact wrap64_merge_iff _ _ _

private theorem tenantId_count {e : TokenEvent} {monthlyTokensBefore : ℤ} :
    (UsageAggregate.count price acc e monthlyTokensBefore).tenantId =
      (namedTenant e).or acc.tenantId := by
  unfold UsageAggregate.count namedTenant
  cases e.tenantId with
  | none => rfl
  | some t => cases hblank : isBlank t <;> simp [Option.filter, hblank]

theorem tenantId_foldl (es : List TokenEvent) : ∀ acc : UsageAggregate,
    (es.foldl (fun acc e => acc.addEvent price e (before e)) acc).tenantId =
      (tenantOf (distinctEvents acc.seenEventIds es)).or acc.tenantId := by
  induction es with
  | nil => exact fun _ => rfl
  | cons e es ih =>
    intro acc
    rw [List.foldl_cons, ih]
    rcases addEvent_cases price acc e (before e) with ⟨hadd, hdistinct⟩ | ⟨seen, hadd, hdistinct⟩
    · rw [hadd, hdistinct]
    · rw [hadd, hdistinct, tenantId_count, tenantOf, Option.or_assoc]
      rfl

theorem tenantId_accumulate :
    (accumulate price before es).tenantId = tenantOf (distinctEvents [] es) :=
  (tenantId_foldl es {}).trans Option.or_none

theorem tenantId_append : (accumulate price before (A ++ B)).tenantId =
    (tenantOf (distinctEvents (idsOf A) B)).or (accumulate price before A).tenantId := by
  have hseen : distinctEvents (accumulate price before A).seenEventIds B =
      distinctEvents (idsOf A) B := distinctEvents_congr (fun id => seenEventIds_accumulate) B
  rw [accumulate_append, tenantId_foldl, hseen]

private theorem deduplicated_foldl (es : List TokenEvent) : ∀ acc : UsageAggregate,
    wrap64 acc.deduplicatedCount = acc.deduplicatedCount →
    let acc' := es.foldl (fun acc e => acc.addEvent price e (before e)) acc
    wrap64 acc'.deduplicatedCount = acc'.deduplicatedCount ∧
      wrap64 (acc'.deduplicatedCount + acc'.eventCount) =
        wrap64 (acc.deduplicatedCount + acc.eventCount + es.length) := by
  induction es with
  | nil => exact fun acc hacc => ⟨hacc, by simp⟩
  | cons e es ih =>
    intro acc hacc
    have hstep : wrap64 (acc.addEvent price e (before e)).deduplicatedCount =
          (acc.addEvent price e (before e)).deduplicatedCount ∧
        wrap64 ((acc.addEvent price e (before e)).deduplicatedCount +
          (acc.addEvent price e (before e)).eventCount) =
        wrap64 (acc.deduplicatedCount + acc.eventCount + 1) := by
      rcases addEvent_cases price acc e (before e) with ⟨hadd, -⟩ | ⟨seen, hadd, -⟩
      · rw [hadd]
        unfold wrap64
        exact ⟨by dsimp only; omega, by dsimp only; omega⟩
      · rw [hadd]
        unfold UsageAggregate.count wrap64
        unfold wrap64 at hacc
        exact ⟨hacc, by dsimp only; omega⟩
    obtain ⟨hlong, hsum⟩ := ih _ hstep.1
    refine ⟨hlong, hsum.trans ?_⟩
    rw [← wrap64_add, hstep.2, wrap64_add, List.length_cons]
    congr 1
    push_cast
    ring

theorem deduplicated_accumulate (es : List TokenEvent) :
    wrap64 (accumulate price before es).deduplicatedCount =
        (accumulate price before es).deduplicatedCount ∧
      wrap64 ((accumulate price before es).deduplicatedCount +
        (accumulate price before es).eventCount) = wrap64 es.length := by
  obtain ⟨hlong, hsum⟩ := @deduplicated_foldl price before es {} rfl
  refine ⟨hlong, hsum.trans ?_⟩
  rw [show (({} : UsageAggregate).deduplicatedCount + ({} : UsageAggregate).eventCount : ℤ) = 0 from
    rfl, zero_add]

private theorem deduplicated_merge
    (hevents : ((accumulate price before A).merge (accumulate price before B)).eventCount =
      (accumulate price before (A ++ B)).eventCount) :
    ((accumulate price before A).merge (accumulate price before B)).deduplicatedCount =
      (accumulate price before (A ++ B)).deduplicatedCount := by
  obtain ⟨-, hA⟩ := @deduplicated_accumulate price before A
  obtain ⟨-, hB⟩ := @deduplicated_accumulate price before B
  obtain ⟨hlong, hAB⟩ := @deduplicated_accumulate price before (A ++ B)
  rw [List.length_append, Nat.cast_add] at hAB
  unfold UsageAggregate.merge at hevents ⊢
  dsimp only at hevents ⊢
  unfold wrap64 at *
  omega

private theorem seenEventIds_merge {id : String} :
    id ∈ ((accumulate price before A).merge (accumulate price before B)).seenEventIds ↔
      id ∈ (accumulate price before (A ++ B)).seenEventIds := by
  have hmerge : id ∈ ((accumulate price before A).merge (accumulate price before B)).seenEventIds ↔
      id ∈ idsOf B ∨ id ∈ idsOf A := by
    unfold UsageAggregate.merge
    rw [List.mem_union_iff, seenEventIds_accumulate, seenEventIds_accumulate]
  rw [hmerge, accumulate_append, seenEventIds_foldl, seenEventIds_accumulate]

theorem agrees_iff :
    Agrees ((accumulate price before A).merge (accumulate price before B))
        (accumulate price before (A ++ B)) ↔ Mergeable price before A B := by
  have htenant : ((accumulate price before A).merge (accumulate price before B)).tenantId =
      (accumulate price before (A ++ B)).tenantId ↔
      ∀ t, tenantOf (distinctEvents (idsOf A) B) = some t →
        tenantOf (distinctEvents [] A) = some t := by
    rw [tenantId_append, ← @tenantId_accumulate price before A]
    exact or_eq_self_iff
  constructor
  · intro h
    exact ⟨fun a => a.merge_iff.mp (h.amounts a), htenant.mp h.tenant⟩
  · intro h
    have hamounts := fun a : Amount => (@Amount.merge_iff price before A B a).mpr (h.amounts a)
    exact ⟨hamounts, deduplicated_merge (hamounts .events), fun id => seenEventIds_merge,
      htenant.mpr h.tenant⟩

end Windows

/-! ### Spans -/

section Spans
variable {cost : TokenEvent → ℚ} {acc : SpanAggregate} {A B es : List TokenEvent}

theorem accumulateSpan_append : accumulateSpan cost (A ++ B) =
    B.foldl (fun acc e => acc.addEvent e (cost e)) (accumulateSpan cost A) :=
  List.foldl_append

theorem accumulateSpan_invariant {P : SpanAggregate → Prop} (hempty : P {})
    (hadd : ∀ acc e, P acc → P (acc.addEvent e (cost e))) (es : List TokenEvent) :
    P (accumulateSpan cost es) :=
  List.foldlRecOn (motive := P) es _ hempty fun acc hacc e _ => hadd acc e hacc

/-- A `long` counter of the fold over both lists is the sum of the two counters. -/
theorem read_long {read : SpanAggregate → ℤ} {amount : TokenEvent → ℤ} (hempty : read {} = 0)
    (hadd : ∀ acc e, read (acc.addEvent e (cost e)) = wrap64 (read acc + amount e)) :
    read (accumulateSpan cost (A ++ B)) =
      wrap64 (read (accumulateSpan cost A) + read (accumulateSpan cost B)) := by
  have hlong : ∀ a b : ℤ, wrap64 (wrap64 (a + b)) = wrap64 (a + b) := by
    intro a b
    unfold wrap64
    omega
  have hA : wrap64 (read (accumulateSpan cost A)) = read (accumulateSpan cost A) :=
    accumulateSpan_invariant (P := fun acc => wrap64 (read acc) = read acc)
      (by rw [hempty]; rfl) (fun acc e _ => by rw [hadd, hlong]) A
  rw [accumulateSpan_append]
  refine @read_foldl _ _ _ (fun a b => wrap64 (a + b)) _ read amount {} (fun a b c => ?_) hadd
    (fun a => wrap64 a = a) (fun a e _ => hlong _ _) (fun a ha => ?_) (by rw [hempty]; rfl) B _ hA
  · unfold wrap64
    omega
  · rw [hempty, add_zero]
    exact ha

theorem callCount_append : (accumulateSpan cost (A ++ B)).callCount =
    wrap32 ((accumulateSpan cost A).callCount + (accumulateSpan cost B).callCount) := by
  have hint : ∀ a b : ℤ, wrap32 (wrap32 (a + b)) = wrap32 (a + b) := by
    intro a b
    unfold wrap32
    omega
  have hA : wrap32 (accumulateSpan cost A).callCount = (accumulateSpan cost A).callCount :=
    accumulateSpan_invariant (P := fun acc => wrap32 acc.callCount = acc.callCount) rfl
      (fun acc e _ => hint acc.callCount 1) A
  rw [accumulateSpan_append]
  refine @read_foldl _ _ _ (fun a b => wrap32 (a + b)) _ SpanAggregate.callCount (fun _ => 1) {}
    (fun a b c => ?_) (fun _ _ => rfl) (fun a => wrap32 a = a) (fun a _ _ => hint _ _)
    (fun a ha => ?_) rfl B _ hA
  · unfold wrap32
    omega
  · exact (congrArg wrap32 (add_zero a)).trans ha

theorem costUsd_append : (accumulateSpan cost (A ++ B)).costUsd =
    (accumulateSpan cost A).costUsd + (accumulateSpan cost B).costUsd := by
  rw [accumulateSpan_append]
  exact @read_foldl _ _ _ (fun a b => a + b) _ SpanAggregate.costUsd cost {} add_assoc
    (fun _ _ => rfl) (fun _ => True) (fun _ _ _ => trivial) (fun a _ => add_zero a) trivial B _
    trivial

theorem firstEventTime_append : (accumulateSpan cost (A ++ B)).firstEventTime =
    min (accumulateSpan cost B).firstEventTime (accumulateSpan cost A).firstEventTime := by
  have hadd : ∀ (acc : SpanAggregate) (e : TokenEvent), (acc.addEvent e (cost e)).firstEventTime =
      min e.timestamp acc.firstEventTime := by
    intro acc e
    unfold SpanAggregate.addEvent
    dsimp only
    split_ifs <;> omega
  have hA : (accumulateSpan cost A).firstEventTime ≤ 2 ^ 63 - 1 :=
    accumulateSpan_invariant (P := fun acc => acc.firstEventTime ≤ 2 ^ 63 - 1) (le_refl _)
      (fun acc e h => by rw [hadd]; omega) A
  rw [accumulateSpan_append]
  exact @read_foldl _ _ _ (fun a b => min b a) _ SpanAggregate.firstEventTime TokenEvent.timestamp {}
    (fun a b c => by omega) hadd (fun a => a ≤ 2 ^ 63 - 1) (fun a e h => by omega)
    (fun a h => min_eq_right h) (le_refl _) B _ hA

theorem lastEventTime_append : (accumulateSpan cost (A ++ B)).lastEventTime =
    max (accumulateSpan cost B).lastEventTime (accumulateSpan cost A).lastEventTime := by
  have hadd : ∀ (acc : SpanAggregate) (e : TokenEvent), (acc.addEvent e (cost e)).lastEventTime =
      max e.timestamp acc.lastEventTime := by
    intro acc e
    unfold SpanAggregate.addEvent
    dsimp only
    split_ifs <;> omega
  have hA : 0 ≤ (accumulateSpan cost A).lastEventTime :=
    accumulateSpan_invariant (P := fun acc => 0 ≤ acc.lastEventTime) (le_refl _)
      (fun acc e h => by rw [hadd]; omega) A
  rw [accumulateSpan_append]
  exact @read_foldl _ _ _ (fun a b => max b a) _ SpanAggregate.lastEventTime TokenEvent.timestamp {}
    (fun a b c => by omega) hadd (fun a => 0 ≤ a) (fun a e h => by omega)
    (fun a h => max_eq_right h) (le_refl _) B _ hA

private theorem tenantId_addEvent {e : TokenEvent} {eventCost : ℚ} :
    (acc.addEvent e eventCost).tenantId = (namedTenant e).or acc.tenantId := by
  unfold SpanAggregate.addEvent namedTenant
  cases e.tenantId with
  | none => rfl
  | some t => cases hblank : isBlank t <;> simp [Option.filter, hblank]

theorem span_tenantId_foldl (es : List TokenEvent) : ∀ acc : SpanAggregate,
    (es.foldl (fun acc e => acc.addEvent e (cost e)) acc).tenantId =
      (tenantOf es).or acc.tenantId := by
  induction es with
  | nil => exact fun _ => rfl
  | cons e es ih =>
    intro acc
    rw [List.foldl_cons, ih, tenantId_addEvent, tenantOf, Option.or_assoc]

private theorem tenantId_accumulateSpan : (accumulateSpan cost es).tenantId = tenantOf es :=
  (span_tenantId_foldl es {}).trans Option.or_none

private theorem spanAgrees_iff :
    SpanAgrees ((accumulateSpan cost A).merge (accumulateSpan cost B))
        (accumulateSpan cost (A ++ B)) ↔ ∀ t, tenantOf B = some t → tenantOf A = some t := by
  have htenant : ((accumulateSpan cost A).merge (accumulateSpan cost B)).tenantId =
      (accumulateSpan cost (A ++ B)).tenantId ↔
      ∀ t, tenantOf B = some t → tenantOf A = some t := by
    rw [accumulateSpan_append, span_tenantId_foldl, ← @tenantId_accumulateSpan cost A]
    exact or_eq_self_iff
  refine ⟨fun h => htenant.mp h.tenant, fun h => ?_⟩
  constructor
  case total => exact (read_long rfl fun _ _ => rfl).symm
  case input => exact (read_long rfl fun _ _ => rfl).symm
  case output => exact (read_long rfl fun _ _ => rfl).symm
  case reasoning => exact (read_long rfl fun _ _ => rfl).symm
  case cost => exact costUsd_append.symm
  case calls => exact callCount_append.symm
  case first =>
    rw [firstEventTime_append]
    unfold SpanAggregate.merge
    dsimp only
    split_ifs <;> omega
  case last =>
    rw [lastEventTime_append]
    unfold SpanAggregate.merge
    dsimp only
    split_ifs <;> omega
  case tenant => exact htenant.mpr h

end Spans

/-- The merge of two windows holds what folding both lists gives exactly where the events that it
counts again add nothing and the second list brings no other tenant; the merge of two spans exactly
where the second list brings no other tenant. -/
theorem merge_agrees_iff (price : UsageAggregate.Pricing) (before : TokenEvent → ℤ)
    (cost : TokenEvent → ℚ) (A B : List TokenEvent) :
    (Agrees ((accumulate price before A).merge (accumulate price before B))
        (accumulate price before (A ++ B)) ↔ Mergeable price before A B) ∧
      (SpanAgrees ((accumulateSpan cost A).merge (accumulateSpan cost B))
        (accumulateSpan cost (A ++ B)) ↔ ∀ t, tenantOf B = some t → tenantOf A = some t) :=
  ⟨agrees_iff, spanAgrees_iff⟩

/-- Fewer than `2^64` events are counted again without a trace only where there are none. -/
theorem recounted_eq_nil {price : UsageAggregate.Pricing} {before : TokenEvent → ℤ}
    {A B : List TokenEvent} (h : Mergeable price before A B)
    (hlength : (recounted A B).length < 2 ^ 64) : recounted A B = [] := by
  have hevents := h.amounts .events
  have hsum : ((recounted A B).map fun e => Amount.events.ofEvent price before e).sum =
      (recounted A B).length := by
    show ((recounted A B).map fun _ => (1 : ℤ)).sum = _
    simp
  rw [hsum] at hevents
  have hzero : (recounted A B).length = 0 := by omega
  exact List.length_eq_zero_iff.mp hzero

def runEvent : TokenEvent :=
  { eventId := some "e1", tenantId := some "acme", customerId := some "c1", modelId := some "gpt-4o",
    parentSpanId := some "run", inputTokens := 10 }

/-- An event in both lists is counted twice, and the tenant of the second list is lost. -/
theorem not_merge_agrees :
    ¬ Agrees ((accumulate (fun _ _ => 25) (fun _ => 0) [runEvent]).merge
        (accumulate (fun _ _ => 25) (fun _ => 0) [runEvent]))
        (accumulate (fun _ _ => 25) (fun _ => 0) [runEvent, runEvent]) ∧
      ¬ Agrees ((accumulate (fun _ _ => 25) (fun _ => 0) []).merge
        (accumulate (fun _ _ => 25) (fun _ => 0) [runEvent]))
        (accumulate (fun _ _ => 25) (fun _ => 0) [runEvent]) ∧
      ¬ SpanAgrees ((accumulateSpan (fun _ => 0) []).merge (accumulateSpan (fun _ => 0) [runEvent]))
        (accumulateSpan (fun _ => 0) [runEvent]) :=
  ⟨fun h => absurd (h.amounts .events) (by decide), fun h => absurd h.tenant (by decide),
    fun h => absurd h.tenant (by decide)⟩

end FluxMeter.Usage
