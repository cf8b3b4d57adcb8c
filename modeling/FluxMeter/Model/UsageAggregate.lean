import FluxMeter.Model.TokenEvent
import Mathlib.Tactic.SplitIfs

/-! The window accumulator of `UsageAggregate.java`. The price of one event is a parameter. -/
namespace FluxMeter.Model

structure UsageAggregate where
  customerId : Option String := none
  tenantId : Option String := none
  modelId : Option String := none
  windowStart : ℤ := 0
  windowEnd : ℤ := 0
  inputTokens : ℤ := 0
  outputTokens : ℤ := 0
  cacheReadTokens : ℤ := 0
  cacheWriteTokens : ℤ := 0
  reasoningTokens : ℤ := 0
  embeddingTokens : ℤ := 0
  totalTokens : ℤ := 0
  costMicro : ℤ := 0
  eventCount : ℤ := 0
  totalLatencyMs : ℤ := 0
  deduplicatedCount : ℤ := 0
  seenEventIds : List String := []
  deriving DecidableEq

namespace UsageAggregate

/-- `calculateEventCostMicro` of the pricing catalog: an event at a monthly volume before it. -/
abbrev Pricing := TokenEvent → ℤ → ℤ

/-- The counters an event that is not a duplicate moves. -/
def count (price : Pricing) (acc : UsageAggregate) (e : TokenEvent) (monthlyTokensBefore : ℤ) :
    UsageAggregate :=
  { acc with
    tenantId := match e.tenantId with
      | some t => if FluxMeter.Keys.isBlank t then acc.tenantId else some t
      | none => acc.tenantId
    inputTokens := wrap64 (acc.inputTokens + e.inputTokens)
    outputTokens := wrap64 (acc.outputTokens + e.outputTokens)
    cacheReadTokens := wrap64 (acc.cacheReadTokens + e.cacheReadTokens)
    cacheWriteTokens := wrap64 (acc.cacheWriteTokens + e.cacheWriteTokens)
    reasoningTokens := wrap64 (acc.reasoningTokens + e.reasoningTokens)
    embeddingTokens := wrap64 (acc.embeddingTokens + e.embeddingTokens)
    totalTokens := wrap64 (acc.totalTokens + e.getTotalTokens)
    eventCount := wrap64 (acc.eventCount + 1)
    totalLatencyMs :=
      if 0 < e.latencyMs then wrap64 (acc.totalLatencyMs + e.latencyMs) else acc.totalLatencyMs
    costMicro := wrap64 (acc.costMicro + price e monthlyTokensBefore) }

def addEvent (price : Pricing) (acc : UsageAggregate) (e : TokenEvent) (monthlyTokensBefore : ℤ) :
    UsageAggregate :=
  match e.eventId with
  | some id =>
    if id ∈ acc.seenEventIds then
      { acc with deduplicatedCount := wrap64 (acc.deduplicatedCount + 1) }
    else
      count price { acc with seenEventIds := id :: acc.seenEventIds } e monthlyTokensBefore
  | none => count price acc e monthlyTokensBefore

/-- The names and the tenant stay those of the left accumulator. -/
def merge (acc other : UsageAggregate) : UsageAggregate :=
  { acc with
    seenEventIds := other.seenEventIds ∪ acc.seenEventIds
    deduplicatedCount := wrap64 (acc.deduplicatedCount + other.deduplicatedCount)
    inputTokens := wrap64 (acc.inputTokens + other.inputTokens)
    outputTokens := wrap64 (acc.outputTokens + other.outputTokens)
    cacheReadTokens := wrap64 (acc.cacheReadTokens + other.cacheReadTokens)
    cacheWriteTokens := wrap64 (acc.cacheWriteTokens + other.cacheWriteTokens)
    reasoningTokens := wrap64 (acc.reasoningTokens + other.reasoningTokens)
    embeddingTokens := wrap64 (acc.embeddingTokens + other.embeddingTokens)
    totalTokens := wrap64 (acc.totalTokens + other.totalTokens)
    costMicro := wrap64 (acc.costMicro + other.costMicro)
    eventCount := wrap64 (acc.eventCount + other.eventCount)
    totalLatencyMs := wrap64 (acc.totalLatencyMs + other.totalLatencyMs) }

def getCostUsd (acc : UsageAggregate) : ℚ := acc.costMicro / 1000000

theorem seenEventIds_addEvent {price : Pricing} {acc : UsageAggregate} {e : TokenEvent}
    {before : ℤ} {x : String} :
    x ∈ (acc.addEvent price e before).seenEventIds ↔
      e.eventId = some x ∨ x ∈ acc.seenEventIds := by
  unfold addEvent
  cases e.eventId with
  | none => simp [count]
  | some id =>
    dsimp only
    split_ifs with hin
    · rw [Option.some.injEq]
      exact ⟨Or.inr, fun h => h.elim (fun heq => heq ▸ hin) fun h => h⟩
    · rw [Option.some.injEq, eq_comm]
      exact List.mem_cons

end UsageAggregate

end FluxMeter.Model
