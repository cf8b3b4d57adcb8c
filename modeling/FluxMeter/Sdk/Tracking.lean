import FluxMeter.Model.TokenEvent
import FluxMeter.Sdk.Streaming

/-! How the clients make an event of a provider's response: `track` and the methods of the providers
in `client.py` and in `client.ts`, up to the body that is sent to `POST /ingest`. -/
namespace FluxMeter.Sdk
open FluxMeter.Api FluxMeter.Budget FluxMeter.Model FluxMeter.Wire

/-! ### Responses -/

/-- A number of a usage: it is missing, or null, or there. -/
inductive Field
  | missing
  | null
  | number (n : ℤ)
  deriving DecidableEq

namespace Field

/-- `value or 0` and `value ?? 0`. -/
def orZero : Field → ℤ
  | number n => n
  | _ => 0

/-- `get(key, 0)` and `getattr(value, key, 0)`; `none` is `None`. -/
def orDefault : Field → Option ℤ
  | missing => some 0
  | null => none
  | number n => some n

end Field

/-- The usage of a chat completion: the counts, and those of its two details, which are `none` where
the details are missing or null. -/
structure OpenAIUsage where
  promptTokens : Field
  completionTokens : Field
  cachedTokens : Option Field := none
  reasoningTokens : Option Field := none

structure OpenAIResponse where
  model : String
  usage : OpenAIUsage
  id : Option String := none

structure AnthropicUsage where
  inputTokens : Field
  outputTokens : Field
  cacheReadInputTokens : Field := .missing
  cacheCreationInputTokens : Field := .missing

structure AnthropicResponse where
  model : String
  usage : AnthropicUsage
  id : Option String := none

/-- What `_parse_openai_usage` and `parseOpenAIUsage` extract. -/
structure ParsedUsage (α : Type) where
  modelId : String
  inputTokens : α
  outputTokens : α
  cacheReadTokens : α
  reasoningTokens : α
  requestId : Option String

structure TrackOpts where
  sessionId : Option String := none
  spanId : Option String := none
  latencyMs : ℤ := 0
  environment : Option String := none

/-- What an event is made with beside a response: the environment of the client, the customer, the
options, and the id and the time that the event draws. -/
structure Tracking where
  meterEnvironment : Option String := none
  customerId : String
  opts : TrackOpts := {}
  eventId : String
  timestamp : ℤ

/-! ### `client.py` -/

namespace Py

/-- A `TokenEvent` whose counts may be `None`, which the dataclass does not check. -/
structure TrackedEvent where
  customerId : String
  modelId : String
  provider : String := "openai"
  inputTokens : Option ℤ := some 0
  outputTokens : Option ℤ := some 0
  cacheReadTokens : Option ℤ := some 0
  cacheWriteTokens : Option ℤ := some 0
  reasoningTokens : Option ℤ := some 0
  embeddingTokens : Option ℤ := some 0
  eventId : String
  requestId : Option String := none
  spanId : Option String := none
  parentSpanId : Option String := none
  sessionId : Option String := none
  timestamp : ℤ
  latencyMs : ℤ := 0
  environment : Option String := none
  metadata : Option Metadata := none

def countJson : Option ℤ → Json
  | some n => .num n
  | none => .null

/-- `to_dict`. -/
def TrackedEvent.toDict (e : TrackedEvent) : Dict :=
  [("eventId", .str e.eventId), ("customerId", .str e.customerId), ("provider", .str e.provider),
    ("modelId", .str e.modelId), ("inputTokens", countJson e.inputTokens),
    ("outputTokens", countJson e.outputTokens), ("cacheReadTokens", countJson e.cacheReadTokens),
    ("cacheWriteTokens", countJson e.cacheWriteTokens),
    ("reasoningTokens", countJson e.reasoningTokens),
    ("embeddingTokens", countJson e.embeddingTokens), ("timestamp", .num e.timestamp),
    ("latencyMs", .num e.latencyMs)] ++
  (Dict.opt "requestId" ((given e.requestId).map .str) ++
    Dict.opt "spanId" ((given e.spanId).map .str) ++
    Dict.opt "parentSpanId" ((given e.parentSpanId).map .str) ++
    Dict.opt "sessionId" ((given e.sessionId).map .str) ++
    Dict.opt "environment" ((given e.environment).map .str) ++
    Dict.opt "metadata" ((e.metadata.filter (· ≠ [])).map IngestEvent.metadataJson))

/-- `track`, whose arguments are given as the event that it makes of them but for the environment. -/
def track (t : Tracking) (args : TrackedEvent) : TrackedEvent :=
  { args with environment :=
      if (given args.environment).isSome then args.environment else t.meterEnvironment }

/-- Whether a usage is an object of the provider's library or a dict. -/
inductive Form
  | object
  | dict
  deriving DecidableEq

/-- `_parse_openai_usage`; `none` where it raises, since an object has no `get`. -/
def parseOpenaiUsage (form : Form) (r : OpenAIResponse) : Option (ParsedUsage (Option ℤ)) :=
  let cacheReadTokens := r.usage.cachedTokens.elim (some 0) Field.orDefault
  let reasoningTokens := r.usage.reasoningTokens.elim (some 0) Field.orDefault
  match form with
  | .object =>
    if r.usage.promptTokens = .missing ∨ r.usage.completionTokens = .missing then none
    else some
      { modelId := r.model, inputTokens := some r.usage.promptTokens.orZero,
        outputTokens := some r.usage.completionTokens.orZero, cacheReadTokens, reasoningTokens,
        requestId := r.id }
  | .dict => some
      { modelId := r.model, inputTokens := r.usage.promptTokens.orDefault,
        outputTokens := r.usage.completionTokens.orDefault, cacheReadTokens, reasoningTokens,
        requestId := r.id }

section Methods
variable (t : Tracking) (form : Form)

/-- `track_openai`. -/
def trackOpenai (parentSpanId : Option String) (r : OpenAIResponse) : Option TrackedEvent :=
  (parseOpenaiUsage form r).map fun parsed => track t
    { customerId := t.customerId, provider := "openai", spanId := t.opts.spanId, parentSpanId,
      sessionId := t.opts.sessionId, latencyMs := t.opts.latencyMs,
      environment := t.opts.environment, modelId := parsed.modelId,
      inputTokens := parsed.inputTokens, outputTokens := parsed.outputTokens,
      cacheReadTokens := parsed.cacheReadTokens, reasoningTokens := parsed.reasoningTokens,
      requestId := parsed.requestId, eventId := t.eventId, timestamp := t.timestamp }

/-- `_track_openai_compatible`. -/
def trackOpenaiCompatible (provider : String) (r : OpenAIResponse) : Option TrackedEvent :=
  (parseOpenaiUsage form r).map fun parsed => track t
    { customerId := t.customerId, provider, spanId := t.opts.spanId,
      sessionId := t.opts.sessionId, latencyMs := t.opts.latencyMs,
      environment := t.opts.environment, modelId := parsed.modelId,
      inputTokens := parsed.inputTokens, outputTokens := parsed.outputTokens,
      cacheReadTokens := parsed.cacheReadTokens, reasoningTokens := parsed.reasoningTokens,
      requestId := parsed.requestId, eventId := t.eventId, timestamp := t.timestamp }

def trackDeepseek := trackOpenaiCompatible t form "deepseek"

def trackQwen := trackOpenaiCompatible t form "qwen"

def trackGlm := trackOpenaiCompatible t form "zhipu"

def trackMoonshot := trackOpenaiCompatible t form "moonshot"

def trackDoubao := trackOpenaiCompatible t form "doubao"

def trackBaichuan := trackOpenaiCompatible t form "baichuan"

def trackMinimax := trackOpenaiCompatible t form "minimax"

def trackHunyuan := trackOpenaiCompatible t form "hunyuan"

/-- The event of `track_anthropic` with its four counts. -/
def anthropicEvent (r : AnthropicResponse)
    (inputTokens outputTokens cacheReadTokens cacheWriteTokens : Option ℤ) : TrackedEvent :=
  track t
    { customerId := t.customerId, modelId := r.model, provider := "anthropic", inputTokens,
      outputTokens, cacheReadTokens, cacheWriteTokens, requestId := r.id,
      spanId := t.opts.spanId, sessionId := t.opts.sessionId, latencyMs := t.opts.latencyMs,
      environment := t.opts.environment, eventId := t.eventId, timestamp := t.timestamp }

/-- `track_anthropic`; `none` where it raises. -/
def trackAnthropic (r : AnthropicResponse) : Option TrackedEvent :=
  let u := r.usage
  match form with
  | .object =>
    if u.inputTokens = .missing ∨ u.outputTokens = .missing then none
    else some (anthropicEvent t r (some u.inputTokens.orZero) (some u.outputTokens.orZero)
      (some u.cacheReadInputTokens.orZero) (some u.cacheCreationInputTokens.orZero))
  | .dict => some (anthropicEvent t r u.inputTokens.orDefault u.outputTokens.orDefault
      u.cacheReadInputTokens.orDefault u.cacheCreationInputTokens.orDefault)

end Methods

end Py

/-! ### `client.ts` -/

namespace Js

/-- `toEventPayload`. -/
def toEventPayload (e : TokenEvent) : Dict :=
  [("customerId", .str e.customerId), ("modelId", .str e.modelId), ("provider", .str e.provider),
    ("inputTokens", .num e.inputTokens), ("outputTokens", .num e.outputTokens),
    ("cacheReadTokens", .num e.cacheReadTokens), ("cacheWriteTokens", .num e.cacheWriteTokens),
    ("reasoningTokens", .num e.reasoningTokens), ("embeddingTokens", .num e.embeddingTokens),
    ("timestamp", .num e.timestamp), ("latencyMs", .num e.latencyMs)] ++
  (Dict.opt "eventId" ((given (some e.eventId)).map .str) ++
    Dict.opt "requestId" ((given e.requestId).map .str) ++
    Dict.opt "spanId" ((given e.spanId).map .str) ++
    Dict.opt "parentSpanId" ((given e.parentSpanId).map .str) ++
    Dict.opt "sessionId" ((given e.sessionId).map .str) ++
    Dict.opt "environment" ((given e.environment).map .str) ++
    Dict.opt "metadata" (e.metadata.map IngestEvent.metadataJson))

/-- `track`, whose fields are given as the event that it makes of them but for the environment. -/
def track (t : Tracking) (fields : TokenEvent) : TokenEvent :=
  { fields with environment := fields.environment.or t.meterEnvironment }

/-- `parseOpenAIUsage`. -/
def parseOpenAIUsage (r : OpenAIResponse) : ParsedUsage ℤ where
  modelId := r.model
  inputTokens := r.usage.promptTokens.orZero
  outputTokens := r.usage.completionTokens.orZero
  cacheReadTokens := r.usage.cachedTokens.elim 0 Field.orZero
  reasoningTokens := r.usage.reasoningTokens.elim 0 Field.orZero
  requestId := r.id

section Methods
variable (t : Tracking)

/-- `trackOpenAICompatible`, and `trackOpenAI` for the provider `openai`. -/
def trackOpenAICompatible (provider : String) (r : OpenAIResponse) : TokenEvent :=
  let parsed := parseOpenAIUsage r
  track t
    { customerId := t.customerId, modelId := parsed.modelId, provider,
      inputTokens := parsed.inputTokens, outputTokens := parsed.outputTokens,
      cacheReadTokens := parsed.cacheReadTokens, reasoningTokens := parsed.reasoningTokens,
      requestId := parsed.requestId, sessionId := t.opts.sessionId, spanId := t.opts.spanId,
      latencyMs := t.opts.latencyMs, environment := t.opts.environment, eventId := t.eventId,
      timestamp := t.timestamp }

def trackOpenAI := trackOpenAICompatible t "openai"

def trackDeepSeek := trackOpenAICompatible t "deepseek"

def trackQwen := trackOpenAICompatible t "qwen"

def trackGLM := trackOpenAICompatible t "zhipu"

def trackMoonshot := trackOpenAICompatible t "moonshot"

def trackDoubao := trackOpenAICompatible t "doubao"

def trackBaichuan := trackOpenAICompatible t "baichuan"

def trackMiniMax := trackOpenAICompatible t "minimax"

def trackHunyuan := trackOpenAICompatible t "hunyuan"

/-- `trackAnthropic`. -/
def trackAnthropic (r : AnthropicResponse) : TokenEvent :=
  track t
    { customerId := t.customerId, modelId := r.model, provider := "anthropic",
      inputTokens := r.usage.inputTokens.orZero, outputTokens := r.usage.outputTokens.orZero,
      cacheReadTokens := r.usage.cacheReadInputTokens.orZero,
      cacheWriteTokens := r.usage.cacheCreationInputTokens.orZero, requestId := r.id,
      sessionId := t.opts.sessionId, spanId := t.opts.spanId, latencyMs := t.opts.latencyMs,
      environment := t.opts.environment, eventId := t.eventId, timestamp := t.timestamp }

end Methods

end Js

/-! ### The calls of both clients -/

inductive CompletionMethod
  | openai
  | deepseek
  | qwen
  | glm
  | moonshot
  | doubao
  | baichuan
  | minimax
  | hunyuan
  deriving DecidableEq

/-- A method with the response that it is given. -/
inductive TrackedResponse
  | completion (method : CompletionMethod) (r : OpenAIResponse)
  | message (r : AnthropicResponse)

namespace TrackedResponse

/-- The event that the Python client sends; `none` where the method raises. -/
def py (t : Tracking) (form : Py.Form) : TrackedResponse → Option Py.TrackedEvent
  | completion .openai r => Py.trackOpenai t form none r
  | completion .deepseek r => Py.trackDeepseek t form r
  | completion .qwen r => Py.trackQwen t form r
  | completion .glm r => Py.trackGlm t form r
  | completion .moonshot r => Py.trackMoonshot t form r
  | completion .doubao r => Py.trackDoubao t form r
  | completion .baichuan r => Py.trackBaichuan t form r
  | completion .minimax r => Py.trackMinimax t form r
  | completion .hunyuan r => Py.trackHunyuan t form r
  | message r => Py.trackAnthropic t form r

/-- The event that the JavaScript client sends. -/
def js (t : Tracking) : TrackedResponse → TokenEvent
  | completion .openai r => Js.trackOpenAI t r
  | completion .deepseek r => Js.trackDeepSeek t r
  | completion .qwen r => Js.trackQwen t r
  | completion .glm r => Js.trackGLM t r
  | completion .moonshot r => Js.trackMoonshot t r
  | completion .doubao r => Js.trackDoubao t r
  | completion .baichuan r => Js.trackBaichuan t r
  | completion .minimax r => Js.trackMiniMax t r
  | completion .hunyuan r => Js.trackHunyuan t r
  | message r => Js.trackAnthropic t r

def model : TrackedResponse → String
  | completion _ r => r.model
  | message r => r.model

/-- The tokens that a response reports, none where a number is missing or null. -/
def counts : TrackedResponse → TokenCounts
  | completion _ r => ⟨r.usage.promptTokens.orZero, r.usage.completionTokens.orZero,
      r.usage.cachedTokens.elim 0 Field.orZero, 0, r.usage.reasoningTokens.elim 0 Field.orZero, 0⟩
  | message r => ⟨r.usage.inputTokens.orZero, r.usage.outputTokens.orZero,
      r.usage.cacheReadInputTokens.orZero, r.usage.cacheCreationInputTokens.orZero, 0, 0⟩

/-- The numbers that the Python client needs: an object has the two main counts, and no number that
is read without `or 0` is null. -/
def Reported (form : Py.Form) : TrackedResponse → Prop
  | completion _ r =>
    (match form with
      | .object => r.usage.promptTokens ≠ .missing ∧ r.usage.completionTokens ≠ .missing
      | .dict => r.usage.promptTokens ≠ .null ∧ r.usage.completionTokens ≠ .null) ∧
    r.usage.cachedTokens ≠ some .null ∧ r.usage.reasoningTokens ≠ some .null
  | message r =>
    match form with
    | .object => r.usage.inputTokens ≠ .missing ∧ r.usage.outputTokens ≠ .missing
    | .dict => r.usage.inputTokens ≠ .null ∧ r.usage.outputTokens ≠ .null ∧
        r.usage.cacheReadInputTokens ≠ .null ∧ r.usage.cacheCreationInputTokens ≠ .null

end TrackedResponse

end FluxMeter.Sdk
