import FluxMeter.Model.TokenEvent

/-! The accumulator of one agent span, `SpanAggregate.java`. -/
namespace FluxMeter.Model
open FluxMeter.Keys

structure SpanAggregate where
  spanId : Option String := none
  tenantId : Option String := none
  customerId : Option String := none
  totalTokens : ℤ := 0
  inputTokens : ℤ := 0
  outputTokens : ℤ := 0
  reasoningTokens : ℤ := 0
  costUsd : ℚ := 0
  callCount : ℤ := 0
  firstEventTime : ℤ := 2 ^ 63 - 1
  lastEventTime : ℤ := 0
  deriving DecidableEq

namespace SpanAggregate

def addEvent (acc : SpanAggregate) (e : TokenEvent) (eventCost : ℚ) : SpanAggregate where
  tenantId := match e.tenantId with
    | some t => if isBlank t then acc.tenantId else some t
    | none => acc.tenantId
  customerId := e.customerId
  spanId := e.parentSpanId
  totalTokens := wrap64 (acc.totalTokens + e.getTotalTokens)
  inputTokens := wrap64 (acc.inputTokens + e.inputTokens)
  outputTokens := wrap64 (acc.outputTokens + e.outputTokens)
  reasoningTokens := wrap64 (acc.reasoningTokens + e.reasoningTokens)
  costUsd := acc.costUsd + eventCost
  callCount := wrap32 (acc.callCount + 1)
  firstEventTime := if e.timestamp < acc.firstEventTime then e.timestamp else acc.firstEventTime
  lastEventTime := if acc.lastEventTime < e.timestamp then e.timestamp else acc.lastEventTime

/-- The ids stay those of the left accumulator. -/
def merge (acc other : SpanAggregate) : SpanAggregate :=
  { acc with
    totalTokens := wrap64 (acc.totalTokens + other.totalTokens)
    inputTokens := wrap64 (acc.inputTokens + other.inputTokens)
    outputTokens := wrap64 (acc.outputTokens + other.outputTokens)
    reasoningTokens := wrap64 (acc.reasoningTokens + other.reasoningTokens)
    costUsd := acc.costUsd + other.costUsd
    callCount := wrap32 (acc.callCount + other.callCount)
    firstEventTime :=
      if other.firstEventTime < acc.firstEventTime then other.firstEventTime
      else acc.firstEventTime
    lastEventTime :=
      if acc.lastEventTime < other.lastEventTime then other.lastEventTime else acc.lastEventTime }

def getDurationMs (acc : SpanAggregate) : ℤ :=
  if acc.firstEventTime < acc.lastEventTime then wrap64 (acc.lastEventTime - acc.firstEventTime)
  else 0

end SpanAggregate

end FluxMeter.Model
