import FluxMeter.Keys.TenantKeys
import Mathlib.Algebra.Field.Rat

/-! The event bean of `TokenEvent.java`. Its `int` fields wrap at 32 bits, its `long` fields
at 64. -/
namespace FluxMeter.Model
open FluxMeter.Keys

/-- Two's complement wrap of Java `int` arithmetic. -/
def wrap32 (x : ℤ) : ℤ := (x + 2 ^ 31) % 2 ^ 32 - 2 ^ 31

/-- Two's complement wrap of Java `long` arithmetic. -/
def wrap64 (x : ℤ) : ℤ := (x + 2 ^ 63) % 2 ^ 64 - 2 ^ 63

/-- An inner wrap of a sum does not matter. -/
theorem wrap32_add (a b : ℤ) : wrap32 (wrap32 a + b) = wrap32 (a + b) := by
  unfold wrap32
  omega

theorem wrap64_add (a b : ℤ) : wrap64 (wrap64 a + b) = wrap64 (a + b) := by
  unfold wrap64
  omega

structure TokenEvent where
  eventId : Option String := none
  tenantId : Option String := none
  customerId : Option String := none
  parentSpanId : Option String := none
  apiKeyId : Option String := none
  ingestSource : Option String := none
  ingestTraceId : Option String := none
  reservationId : Option String := none
  reservedUsd : ℚ := 0
  receivedAt : ℤ := 0
  malformedEnvelope : Bool := false
  rawEnvelope : Option String := none
  authorizedReplay : Bool := false
  modelId : Option String := none
  inputTokens : ℤ := 0
  outputTokens : ℤ := 0
  cacheReadTokens : ℤ := 0
  cacheWriteTokens : ℤ := 0
  reasoningTokens : ℤ := 0
  embeddingTokens : ℤ := 0
  timestamp : ℤ := 0
  latencyMs : ℤ := 0
  sessionId : Option String := none
  metadata : Option (List (String × String)) := none
  deriving DecidableEq

/-- The six token counts of an event. -/
structure TokenCounts where
  input : ℤ
  output : ℤ
  cacheRead : ℤ
  cacheWrite : ℤ
  reasoning : ℤ
  embedding : ℤ
  deriving DecidableEq

def TokenCounts.total (c : TokenCounts) : ℤ :=
  c.input + c.output + c.cacheRead + c.cacheWrite + c.reasoning + c.embedding

namespace TokenEvent

def counts (e : TokenEvent) : TokenCounts :=
  ⟨e.inputTokens, e.outputTokens, e.cacheReadTokens, e.cacheWriteTokens, e.reasoningTokens,
    e.embeddingTokens⟩

def getTotalTokens (e : TokenEvent) : ℤ :=
  wrap32 (e.inputTokens + e.outputTokens + e.cacheReadTokens + e.cacheWriteTokens +
    e.reasoningTokens + e.embeddingTokens)

/-- Java string concatenation writes a null reference as `null`. -/
def orNull (s : Option String) : String := s.getD "null"

def getAggregationKey (e : TokenEvent) : String :=
  let lite := orNull e.customerId ++ "|" ++ orNull e.modelId
  match e.tenantId with
  | some t => if !isBlank t then t ++ "|" ++ lite else lite
  | none => lite

end TokenEvent

end FluxMeter.Model
