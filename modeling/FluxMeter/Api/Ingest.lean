import FluxMeter.Custody.Payload
import FluxMeter.Model.TokenEvent

/-! The body of `POST /ingest` and of one entry of `POST /ingest/batch`, after pydantic has
validated it. -/
namespace FluxMeter.Api
open FluxMeter.Wire

structure IngestEvent where
  customerId : String
  modelId : String
  provider : String := "openai"
  inputTokens : ℤ := 0
  outputTokens : ℤ := 0
  cacheReadTokens : ℤ := 0
  cacheWriteTokens : ℤ := 0
  reasoningTokens : ℤ := 0
  embeddingTokens : ℤ := 0
  eventId : Option String := none
  requestId : Option String := none
  spanId : Option String := none
  parentSpanId : Option String := none
  sessionId : Option String := none
  latencyMs : ℤ := 0
  environment : Option String := none
  timestamp : Option ℤ := none
  metadata : Option (List (String × String)) := none

namespace IngestEvent

def counts (e : IngestEvent) : FluxMeter.Model.TokenCounts :=
  ⟨e.inputTokens, e.outputTokens, e.cacheReadTokens, e.cacheWriteTokens, e.reasoningTokens,
    e.embeddingTokens⟩

def metadataJson (metadata : List (String × String)) : Json :=
  .obj (metadata.map fun p => (p.1, .str p.2))

/-- `model_dump(exclude_none=True)`. -/
def modelDump (e : IngestEvent) : Dict :=
  [("customerId", .str e.customerId), ("modelId", .str e.modelId), ("provider", .str e.provider),
    ("inputTokens", .num e.inputTokens), ("outputTokens", .num e.outputTokens),
    ("cacheReadTokens", .num e.cacheReadTokens), ("cacheWriteTokens", .num e.cacheWriteTokens),
    ("reasoningTokens", .num e.reasoningTokens), ("embeddingTokens", .num e.embeddingTokens)] ++
  (Dict.opt "eventId" (e.eventId.map .str) ++ Dict.opt "requestId" (e.requestId.map .str) ++
    Dict.opt "spanId" (e.spanId.map .str) ++ Dict.opt "parentSpanId" (e.parentSpanId.map .str) ++
    Dict.opt "sessionId" (e.sessionId.map .str) ++ [("latencyMs", .num e.latencyMs)] ++
    Dict.opt "environment" (e.environment.map .str) ++ Dict.opt "timestamp" (e.timestamp.map .num) ++
    Dict.opt "metadata" (e.metadata.map metadataJson))

/-- The dict that `ingest_event` hands to Custody: an absent event id is filled in. The metadata
that `validate_metadata` returns has the entries of the request's own. -/
def eventDict (e : IngestEvent) (newEventId : String) : Dict :=
  let dumped := e.modelDump
  if (dumped.get "eventId").isNone then Dict.set dumped "eventId" (.str newEventId) else dumped

theorem get_eventDict (e : IngestEvent) (newEventId j : String) :
    (e.eventDict newEventId).get j =
      if j = "eventId" then some (.str (e.eventId.getD newEventId)) else e.modelDump.get j := by
  unfold eventDict
  dsimp only
  have hid : e.modelDump.get "eventId" = e.eventId.map .str := by
    simp [modelDump, Dict.get_append, Dict.get_cons, Dict.get_opt]
  cases hcase : e.eventId with
  | none =>
    rw [hid, hcase, Option.map_none, Option.isNone_none, if_pos rfl, Dict.get_set]
    rfl
  | some id =>
    rw [hid, hcase, Option.map_some, Option.isNone_some, if_neg (by simp)]
    split_ifs with hj
    · rw [hj, hid, hcase]
      rfl
    · rfl

end IngestEvent

end FluxMeter.Api
