import FluxMeter.Api.BillingDims
import FluxMeter.Api.Ingest

/-! `IngestEvent.model_validate`: the conversion of a JSON body by pydantic, of which only the bodies
whose fields have the declared types are described. -/
namespace FluxMeter.Api
open FluxMeter.Wire

/-- The body has the fields of the event, as JSON of their types, and metadata without repeated
keys. -/
structure IngestEvent.ReadFrom (e : IngestEvent) (body : Dict) : Prop where
  customerId : body.get "customerId" = some (.str e.customerId)
  modelId : body.get "modelId" = some (.str e.modelId)
  provider : body.get "provider" = some (.str e.provider)
  inputTokens : body.get "inputTokens" = some (.num e.inputTokens)
  outputTokens : body.get "outputTokens" = some (.num e.outputTokens)
  cacheReadTokens : body.get "cacheReadTokens" = some (.num e.cacheReadTokens)
  cacheWriteTokens : body.get "cacheWriteTokens" = some (.num e.cacheWriteTokens)
  reasoningTokens : body.get "reasoningTokens" = some (.num e.reasoningTokens)
  embeddingTokens : body.get "embeddingTokens" = some (.num e.embeddingTokens)
  eventId : body.get "eventId" = e.eventId.map .str
  requestId : body.get "requestId" = e.requestId.map .str
  spanId : body.get "spanId" = e.spanId.map .str
  parentSpanId : body.get "parentSpanId" = e.parentSpanId.map .str
  sessionId : body.get "sessionId" = e.sessionId.map .str
  latencyMs : body.get "latencyMs" = some (.num e.latencyMs)
  environment : body.get "environment" = e.environment.map .str
  timestamp : body.get "timestamp" = e.timestamp.map .num
  metadata : body.get "metadata" = e.metadata.map IngestEvent.metadataJson
  keys : ∀ m ∈ e.metadata, (m.map Prod.fst).Nodup

structure Pydantic where
  /-- `model_validate`, with the message of the first error where it raises. -/
  modelValidate : Dict → Except String IngestEvent
  typed : ∀ (e : IngestEvent) (body : Dict), e.ReadFrom body → modelValidate body = .ok e

/-! ### A validation without conversions -/

namespace Pydantic

def required (body : Dict) (key : String) : Except String String :=
  match body.get key with
  | some (.str s) => .ok s
  | some _ => .error "Input should be a valid string"
  | none => .error "Field required"

def text (body : Dict) (key default : String) : Except String String :=
  match body.get key with
  | some (.str s) => .ok s
  | some _ => .error "Input should be a valid string"
  | none => .ok default

def int (body : Dict) (key : String) : Except String ℤ :=
  match body.get key with
  | some (.num n) => .ok n
  | some _ => .error "Input should be a valid integer"
  | none => .ok 0

def optionalText (body : Dict) (key : String) : Except String (Option String) :=
  match body.get key with
  | some (.str s) => .ok (some s)
  | some .null => .ok none
  | some _ => .error "Input should be a valid string"
  | none => .ok none

def optionalInt (body : Dict) (key : String) : Except String (Option ℤ) :=
  match body.get key with
  | some (.num n) => .ok (some n)
  | some .null => .ok none
  | some _ => .error "Input should be a valid integer"
  | none => .ok none

def metadataEntry (p : String × Json) : Except String (String × String) :=
  match p.2 with
  | .str s => .ok (p.1, s)
  | _ => .error "Input should be a valid string"

def optionalMetadata (body : Dict) (key : String) : Except String (Option Metadata) :=
  match body.get key with
  | some (.obj entries) => (entries.mapM metadataEntry).map some
  | some .null => .ok none
  | some _ => .error "Input should be a valid dictionary"
  | none => .ok none

/-- The event of a body, field by field. -/
def read (body : Dict) : Except String IngestEvent := do
  return {
    customerId := ← required body "customerId"
    modelId := ← required body "modelId"
    provider := ← text body "provider" "openai"
    inputTokens := ← int body "inputTokens"
    outputTokens := ← int body "outputTokens"
    cacheReadTokens := ← int body "cacheReadTokens"
    cacheWriteTokens := ← int body "cacheWriteTokens"
    reasoningTokens := ← int body "reasoningTokens"
    embeddingTokens := ← int body "embeddingTokens"
    eventId := ← optionalText body "eventId"
    requestId := ← optionalText body "requestId"
    spanId := ← optionalText body "spanId"
    parentSpanId := ← optionalText body "parentSpanId"
    sessionId := ← optionalText body "sessionId"
    latencyMs := ← int body "latencyMs"
    environment := ← optionalText body "environment"
    timestamp := ← optionalInt body "timestamp"
    metadata := ← optionalMetadata body "metadata" }

section Read
variable {body : Dict} {key : String}

theorem required_eq {s : String} (h : body.get key = some (.str s)) :
    required body key = .ok s := by
  unfold required
  rw [h]

theorem text_eq {s default : String} (h : body.get key = some (.str s)) :
    text body key default = .ok s := by
  unfold text
  rw [h]

theorem int_eq {n : ℤ} (h : body.get key = some (.num n)) : int body key = .ok n := by
  unfold int
  rw [h]

theorem optionalText_eq {s : Option String} (h : body.get key = s.map .str) :
    optionalText body key = .ok s := by
  unfold optionalText
  rw [h]
  cases s <;> rfl

theorem optionalInt_eq {n : Option ℤ} (h : body.get key = n.map .num) :
    optionalInt body key = .ok n := by
  unfold optionalInt
  rw [h]
  cases n <;> rfl

private theorem mapM_metadataEntry (m : Metadata) :
    (m.map fun p => (p.1, Json.str p.2)).mapM metadataEntry = .ok m := by
  induction m with
  | nil => rfl
  | cons p m ih =>
    rw [List.map_cons, List.mapM_cons, ih]
    rfl

private theorem optionalMetadata_eq {m : Option Metadata}
    (h : body.get key = m.map IngestEvent.metadataJson) : optionalMetadata body key = .ok m := by
  unfold optionalMetadata
  rw [h]
  cases m with
  | none => rfl
  | some m =>
    show (List.mapM metadataEntry _).map some = _
    rw [mapM_metadataEntry]
    rfl

end Read

/-- The validation that converts nothing. -/
def strict : Pydantic where
  modelValidate := read
  typed e body h := by
    unfold read
    rw [required_eq h.customerId, required_eq h.modelId, text_eq h.provider, int_eq h.inputTokens,
      int_eq h.outputTokens, int_eq h.cacheReadTokens, int_eq h.cacheWriteTokens,
      int_eq h.reasoningTokens, int_eq h.embeddingTokens, optionalText_eq h.eventId,
      optionalText_eq h.requestId, optionalText_eq h.spanId, optionalText_eq h.parentSpanId,
      optionalText_eq h.sessionId, int_eq h.latencyMs, optionalText_eq h.environment,
      optionalInt_eq h.timestamp, optionalMetadata_eq h.metadata]
    rfl

end Pydantic

end FluxMeter.Api
