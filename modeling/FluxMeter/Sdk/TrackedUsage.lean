import FluxMeter.Job.Admitted
import FluxMeter.Sdk.Tracking

/-! What the API and the job make of the events of the two clients for one response. -/
namespace FluxMeter.Sdk
open FluxMeter.Api FluxMeter.Budget FluxMeter.Job FluxMeter.Keys FluxMeter.Wire
open FluxMeter.Custody (Python)

/-! ### Null counts -/

def countKeys : List String :=
  ["inputTokens", "outputTokens", "cacheReadTokens", "cacheWriteTokens", "reasoningTokens",
    "embeddingTokens"]

/-- The validation of an `int` field fails on null. -/
def RefusesNull (V : Pydantic) : Prop :=
  ∀ body : Dict, ∀ key ∈ countKeys, body.get key = some .null →
    ∃ message, V.modelValidate body = .error message

theorem bind_ok {α β : Type} {x : Except String α} {f : α → Except String β} {b : β}
    (h : (x >>= f) = .ok b) : ∃ a, x = .ok a ∧ f a = .ok b := by
  cases x with
  | error message => cases h
  | ok a => exact ⟨a, rfl, h⟩

theorem int_ok {body : Dict} {key : String} {n : ℤ} (h : Pydantic.int body key = .ok n) :
    body.get key ≠ some .null := by
  intro hnull
  unfold Pydantic.int at h
  rw [hnull] at h
  cases h

theorem strict_refusesNull : RefusesNull .strict := by
  intro body key hkey hnull
  cases hread : Pydantic.strict.modelValidate body with
  | error message => exact ⟨message, rfl⟩
  | ok event =>
    exfalso
    change Pydantic.read body = .ok event at hread
    unfold Pydantic.read at hread
    obtain ⟨_, -, hread⟩ := bind_ok hread
    obtain ⟨_, -, hread⟩ := bind_ok hread
    obtain ⟨_, -, hread⟩ := bind_ok hread
    obtain ⟨_, hinput, hread⟩ := bind_ok hread
    obtain ⟨_, houtput, hread⟩ := bind_ok hread
    obtain ⟨_, hcacheRead, hread⟩ := bind_ok hread
    obtain ⟨_, hcacheWrite, hread⟩ := bind_ok hread
    obtain ⟨_, hreasoning, hread⟩ := bind_ok hread
    obtain ⟨_, hembedding, -⟩ := bind_ok hread
    have hall : ∀ k ∈ countKeys, body.get k ≠ some .null := by
      simp only [countKeys, List.forall_mem_cons]
      exact ⟨int_ok hinput, int_ok houtput, int_ok hcacheRead, int_ok hcacheWrite,
        int_ok hreasoning, int_ok hembedding, by simp⟩
    exact hall key hkey hnull

/-! ### Bodies -/

namespace Py.TrackedEvent
variable {e : TrackedEvent}

def counts (e : TrackedEvent) : List (Option ℤ) :=
  [e.inputTokens, e.outputTokens, e.cacheReadTokens, e.cacheWriteTokens, e.reasoningTokens,
    e.embeddingTokens]

/-- The event of an `int` for every count. -/
def typed (e : TrackedEvent) : TokenEvent where
  customerId := e.customerId
  modelId := e.modelId
  provider := e.provider
  inputTokens := e.inputTokens.getD 0
  outputTokens := e.outputTokens.getD 0
  cacheReadTokens := e.cacheReadTokens.getD 0
  cacheWriteTokens := e.cacheWriteTokens.getD 0
  reasoningTokens := e.reasoningTokens.getD 0
  embeddingTokens := e.embeddingTokens.getD 0
  eventId := e.eventId
  requestId := e.requestId
  spanId := e.spanId
  parentSpanId := e.parentSpanId
  sessionId := e.sessionId
  timestamp := e.timestamp
  latencyMs := e.latencyMs
  environment := e.environment
  metadata := e.metadata

theorem countJson_getD {c : Option ℤ} (h : c ≠ none) : countJson c = .num (c.getD 0) := by
  cases c with
  | none => exact absurd rfl h
  | some n => rfl

private theorem toDict_typed (h : ∀ c ∈ e.counts, c ≠ none) : e.toDict = e.typed.toDict := by
  simp only [counts, List.forall_mem_cons] at h
  obtain ⟨hinput, houtput, hcacheRead, hcacheWrite, hreasoning, hembedding, -⟩ := h
  unfold toDict TokenEvent.toDict typed
  rw [countJson_getD hinput, countJson_getD houtput, countJson_getD hcacheRead,
    countJson_getD hcacheWrite, countJson_getD hreasoning, countJson_getD hembedding]

private theorem get_null (h : ∃ c ∈ e.counts, c = none) :
    ∃ key ∈ countKeys, e.toDict.get key = some .null := by
  have hget : e.counts.map (fun c => some (countJson c)) = countKeys.map e.toDict.get := rfl
  obtain ⟨c, hc, rfl⟩ := h
  have hmem : some Json.null ∈ e.counts.map (fun c => some (countJson c)) :=
    List.mem_map.mpr ⟨none, hc, rfl⟩
  rw [hget] at hmem
  obtain ⟨key, hkey, hnull⟩ := List.mem_map.mp hmem
  exact ⟨key, hkey, hnull⟩

theorem validated {V : Pydantic} (h : ∀ c ∈ e.counts, c ≠ none) (hmetadata : e.metadata = none) :
    V.modelValidate e.toDict = .ok e.typed.ingested := by
  rw [toDict_typed h]
  refine V.typed _ _ (readFrom_toDict fun m hm => ?_)
  change m ∈ e.metadata at hm
  rw [hmetadata] at hm
  cases hm

/-- A body passes the validation exactly when no count of it is null. -/
theorem validates_iff {V : Pydantic} (hnull : RefusesNull V) (hmetadata : e.metadata = none) :
    (∃ event, V.modelValidate e.toDict = .ok event) ↔ ∀ c ∈ e.counts, c ≠ none := by
  constructor
  · rintro ⟨event, hok⟩ c hc hnone
    obtain ⟨key, hkey, hget⟩ := get_null ⟨c, hc, hnone⟩
    obtain ⟨message, herror⟩ := hnull _ key hkey hget
    rw [hok] at herror
    cases herror
  · intro h
    exact ⟨_, validated h hmetadata⟩

end Py.TrackedEvent

theorem readFrom_toEventPayload {e : TokenEvent} (hid : e.eventId ≠ "")
    (hmetadata : e.metadata = none) : e.ingested.ReadFrom (Js.toEventPayload e) where
  customerId := rfl
  modelId := rfl
  provider := rfl
  inputTokens := rfl
  outputTokens := rfl
  cacheReadTokens := rfl
  cacheWriteTokens := rfl
  reasoningTokens := rfl
  embeddingTokens := rfl
  latencyMs := rfl
  timestamp := rfl
  eventId := by
    have hgiven : given (some e.eventId) = some e.eventId := by
      unfold given
      rw [Option.filter_some, if_pos (by simpa using hid)]
    simp [Js.toEventPayload, TokenEvent.ingested, Dict.get_append, Dict.get_cons, Dict.get_opt,
      hgiven]
  requestId := by
    simp [Js.toEventPayload, TokenEvent.ingested, Dict.get_append, Dict.get_cons, Dict.get_opt]
  spanId := by
    simp [Js.toEventPayload, TokenEvent.ingested, Dict.get_append, Dict.get_cons, Dict.get_opt]
  parentSpanId := by
    simp [Js.toEventPayload, TokenEvent.ingested, Dict.get_append, Dict.get_cons, Dict.get_opt]
  sessionId := by
    simp [Js.toEventPayload, TokenEvent.ingested, Dict.get_append, Dict.get_cons, Dict.get_opt]
  environment := by
    simp [Js.toEventPayload, TokenEvent.ingested, Dict.get_append, Dict.get_cons, Dict.get_opt]
  metadata := by
    simp [Js.toEventPayload, TokenEvent.ingested, Dict.get_append, Dict.get_cons, Dict.get_opt,
      hmetadata]
  keys m hm := by
    rw [TokenEvent.ingested, hmetadata] at hm
    cases hm

/-! ### Responses -/

section Fields
variable {f : Field} {details : Option Field}

theorem orDefault_eq (h : f ≠ .null) : f.orDefault = some f.orZero := by
  cases f with
  | missing => rfl
  | null => exact absurd rfl h
  | number n => rfl

theorem ne_null (h : f.orDefault ≠ none) : f ≠ .null := by
  rintro rfl
  exact h rfl

theorem details_eq (h : details ≠ some .null) :
    details.elim (some 0) Field.orDefault = some (details.elim 0 Field.orZero) := by
  cases details with
  | none => rfl
  | some f => exact orDefault_eq fun hf => h (congrArg some hf)

theorem details_ne_null (h : details.elim (some 0) Field.orDefault ≠ none) :
    details ≠ some .null := by
  rintro rfl
  exact h rfl

end Fields

section Responses
variable {t : Tracking} {form : Py.Form} {response : TrackedResponse} {e : Py.TrackedEvent}
  {method : CompletionMethod} {r : OpenAIResponse}

def CompletionMethod.provider : CompletionMethod → String
  | openai => "openai"
  | deepseek => "deepseek"
  | qwen => "qwen"
  | glm => "zhipu"
  | moonshot => "moonshot"
  | doubao => "doubao"
  | baichuan => "baichuan"
  | minimax => "minimax"
  | hunyuan => "hunyuan"

theorem py_completion : (TrackedResponse.completion method r).py t form =
    Py.trackOpenaiCompatible t form method.provider r := by
  cases method <;> rfl

theorem js_completion : (TrackedResponse.completion method r).js t =
    Js.trackOpenAICompatible t method.provider r := by
  cases method <;> rfl

theorem parse_reported (h : (TrackedResponse.completion method r).Reported form) :
    Py.parseOpenaiUsage form r = some
      { modelId := r.model, inputTokens := some r.usage.promptTokens.orZero,
        outputTokens := some r.usage.completionTokens.orZero,
        cacheReadTokens := some (r.usage.cachedTokens.elim 0 Field.orZero),
        reasoningTokens := some (r.usage.reasoningTokens.elim 0 Field.orZero),
        requestId := r.id } := by
  obtain ⟨hmain, hcached, hreasoning⟩ := h
  unfold Py.parseOpenaiUsage
  rw [details_eq hcached, details_eq hreasoning]
  cases form with
  | object => exact if_neg (not_or.mpr hmain)
  | dict =>
    dsimp only
    rw [orDefault_eq hmain.1, orDefault_eq hmain.2]

theorem reported_of_parse {parsed : ParsedUsage (Option ℤ)}
    (hparsed : Py.parseOpenaiUsage form r = some parsed) (hinput : parsed.inputTokens ≠ none)
    (houtput : parsed.outputTokens ≠ none) (hcached : parsed.cacheReadTokens ≠ none)
    (hreasoning : parsed.reasoningTokens ≠ none) :
    (TrackedResponse.completion method r).Reported form := by
  unfold Py.parseOpenaiUsage at hparsed
  cases form with
  | object =>
    dsimp only at hparsed
    split_ifs at hparsed with hmissing
    cases hparsed
    exact ⟨not_or.mp hmissing, details_ne_null hcached, details_ne_null hreasoning⟩
  | dict =>
    cases hparsed
    exact ⟨⟨ne_null hinput, ne_null houtput⟩, details_ne_null hcached, details_ne_null hreasoning⟩

/-- `environment or self._environment`. -/
def pyEnvironment (t : Tracking) : Option String :=
  if (given t.opts.environment).isSome then t.opts.environment else t.meterEnvironment

/-- The events of both clients for a response in which everything is reported. -/
theorem py_reported (h : response.Reported form) : ∃ e, response.py t form = some e ∧
    (∀ c ∈ e.counts, c ≠ none) ∧ e.typed = { response.js t with environment := pyEnvironment t } := by
  cases response with
  | completion method r =>
    rw [py_completion, js_completion]
    unfold Py.trackOpenaiCompatible
    rw [parse_reported h]
    refine ⟨_, rfl, ?_, rfl⟩
    simp [Py.TrackedEvent.counts, Py.track]
  | message r =>
    cases form with
    | object =>
      refine ⟨_, if_neg (not_or.mpr h), ?_, rfl⟩
      simp [Py.TrackedEvent.counts, Py.anthropicEvent, Py.track]
    | dict =>
      obtain ⟨hinput, houtput, hread, hcreation⟩ := h
      refine ⟨_, rfl, ?_, ?_⟩
      · rw [orDefault_eq hinput, orDefault_eq houtput, orDefault_eq hread, orDefault_eq hcreation]
        simp [Py.TrackedEvent.counts, Py.anthropicEvent, Py.track]
      · rw [orDefault_eq hinput, orDefault_eq houtput, orDefault_eq hread, orDefault_eq hcreation]
        rfl

theorem reported_of_py (hpy : response.py t form = some e) (h : ∀ c ∈ e.counts, c ≠ none) :
    response.Reported form := by
  simp only [Py.TrackedEvent.counts, List.forall_mem_cons] at h
  obtain ⟨hinput, houtput, hread, hwrite, hreasoning, -⟩ := h
  cases response with
  | completion method r =>
    rw [py_completion] at hpy
    obtain ⟨parsed, hparsed, rfl⟩ := Option.map_eq_some_iff.mp hpy
    exact reported_of_parse hparsed hinput houtput hread hreasoning
  | message r =>
    cases form with
    | object =>
      change (if r.usage.inputTokens = .missing ∨ r.usage.outputTokens = .missing then none
        else some _) = some e at hpy
      split_ifs at hpy with hmissing
      exact not_or.mp hmissing
    | dict =>
      cases hpy
      exact ⟨ne_null hinput, ne_null houtput, ne_null hread, ne_null hwrite⟩

theorem py_metadata (hpy : response.py t form = some e) : e.metadata = none := by
  cases response with
  | completion method r =>
    rw [py_completion] at hpy
    obtain ⟨parsed, -, rfl⟩ := Option.map_eq_some_iff.mp hpy
    rfl
  | message r =>
    cases form with
    | object =>
      change (if r.usage.inputTokens = .missing ∨ r.usage.outputTokens = .missing then none
        else some _) = some e at hpy
      split_ifs at hpy with hmissing
      cases hpy
      rfl
    | dict =>
      cases hpy
      rfl

theorem js_metadata : (response.js t).metadata = none := by
  cases response with
  | completion method r => rw [js_completion]; rfl
  | message r => rfl

theorem js_environment (t : Tracking) (response : TrackedResponse) :
    (response.js t).environment = t.opts.environment.or t.meterEnvironment := by
  cases response with
  | completion method r => rw [js_completion]; rfl
  | message r => rfl

/-- The JavaScript event tells what the response reports. -/
theorem js_ingested (t : Tracking) (response : TrackedResponse) :
    (response.js t).ingested.counts = response.counts ∧
    (response.js t).ingested.customerId = t.customerId ∧
    (response.js t).ingested.modelId = response.model ∧
    (response.js t).ingested.eventId = some t.eventId ∧
    (response.js t).ingested.latencyMs = t.opts.latencyMs ∧
    (response.js t).ingested.timestamp = some t.timestamp := by
  cases response with
  | completion method r =>
    rw [js_completion]
    exact ⟨rfl, rfl, rfl, rfl, rfl, rfl⟩
  | message r => exact ⟨rfl, rfl, rfl, rfl, rfl, rfl⟩

/-- Of an empty environment the Python client makes the one of the meter, and the JavaScript client
none. -/
theorem environment_iff : given (pyEnvironment t) = given (t.opts.environment.or t.meterEnvironment) ↔
    ¬ (t.opts.environment = some "" ∧ (given t.meterEnvironment).isSome) := by
  unfold pyEnvironment
  cases t.opts.environment with
  | none => simp [given]
  | some s =>
    by_cases hs : s = ""
    · subst hs
      have hempty : given (some "") = none := rfl
      rw [Option.some_or, hempty, Option.isSome_none, if_neg Bool.false_ne_true]
      cases given t.meterEnvironment <;> simp
    · simp [given, hs]

end Responses

/-! ### From the response to the job -/

/-- What the job needs of a tracked response to decode its event. -/
structure Fitting (t : Tracking) (response : TrackedResponse) : Prop where
  customerId : isBlank t.customerId = false
  modelId : isBlank response.model = false
  eventId : isBlank t.eventId = false
  tokens : isInt response.counts.input ∧ isInt response.counts.output ∧
    isInt response.counts.cacheRead ∧ isInt response.counts.cacheWrite ∧
    isInt response.counts.reasoning ∧ isInt response.counts.embedding
  latencyMs : isInt t.opts.latencyMs
  timestamp : isLong t.timestamp

/-- What the clients send of a response, and what the API and the job make of it. -/
structure Accounted (V : Pydantic) (py : Python) (T : JsonText) (D : Databind) (clock : ℤ)
    (t : Tracking) (form : Py.Form) (response : TrackedResponse) : Prop where
  /-- The API takes the body of the JavaScript client. -/
  js : V.modelValidate (Js.toEventPayload (response.js t)) = .ok (response.js t).ingested
  /-- It gets a body of the Python client that it takes exactly where everything is reported. -/
  py_iff : (∃ e event, response.py t form = some e ∧ V.modelValidate e.toDict = .ok event) ↔
    response.Reported form
  /-- The clients agree, but on an empty environment. -/
  agree : ∀ e event, response.py t form = some e → V.modelValidate e.toDict = .ok event →
    event = { (response.js t).ingested with environment := event.environment } ∧
    (event = (response.js t).ingested ↔
      ¬ (t.opts.environment = some "" ∧ (given t.meterEnvironment).isSome))
  /-- The job decodes the event of either client where it is published and fits, and it then has
  the tokens that are reported. -/
  billed : ∀ event, (V.modelValidate (Js.toEventPayload (response.js t)) = .ok event ∨
      ∃ e, response.py t form = some e ∧ V.modelValidate e.toDict = .ok event) →
    ∀ a : Admission, a.event = event →
      ((∃ e, a.decoded py T D clock = some e) ↔
        (∃ fields, a.envelope py = some fields ∧ T.Fits (.obj fields)) ∧ Fitting t response) ∧
      ∀ e, a.decoded py T D clock = some e → e.counts = response.counts ∧
        e.customerId = some t.customerId ∧ e.modelId = some response.model ∧
        e.eventId = some t.eventId

section Accounted
variable {V : Pydantic} {t : Tracking} {form : Py.Form} {response : TrackedResponse}

theorem event_of_py {e : Py.TrackedEvent} {event : IngestEvent} (hnull : RefusesNull V)
    (hpy : response.py t form = some e) (hok : V.modelValidate e.toDict = .ok event) :
    event = { (response.js t).ingested with environment := given (pyEnvironment t) } := by
  have hcounts := (Py.TrackedEvent.validates_iff hnull (py_metadata hpy)).mp ⟨event, hok⟩
  obtain ⟨e', hpy', -, htyped⟩ := py_reported (t := t) (reported_of_py hpy hcounts)
  rw [hpy, Option.some.injEq] at hpy'
  subst hpy'
  rw [Py.TrackedEvent.validated hcounts (py_metadata hpy), Except.ok.injEq] at hok
  rw [← hok, htyped]
  rfl

private theorem readable_iff {py : Python} {T : JsonText} {a : Admission}
    {environment : Option String}
    (h : a.event = { (response.js t).ingested with environment := environment }) :
    a.Readable py T ↔
      (∃ fields, a.envelope py = some fields ∧ T.Fits (.obj fields)) ∧ Fitting t response := by
  obtain ⟨hcounts, hcustomer, hmodel, hid, hlatency, htime⟩ := js_ingested t response
  have hcustomer' : a.event.customerId = t.customerId := by rw [h]; exact hcustomer
  have hmodel' : a.event.modelId = response.model := by rw [h]; exact hmodel
  have hcounts' : a.event.counts = response.counts := by rw [h]; exact hcounts
  have hlatency' : a.event.latencyMs = t.opts.latencyMs := by rw [h]; exact hlatency
  have hid' : a.eventId = t.eventId := by
    unfold Admission.eventId
    rw [h]
    exact congrArg (Option.getD · a.newEventId) hid
  have htime' : a.timestamp = t.timestamp := by
    unfold Admission.timestamp
    rw [h]
    exact congrArg (Option.getD · a.clock) htime
  have husage : ¬ Admission.heartbeat a.event.metadata := by
    have hnone : a.event.metadata = none := by
      rw [h]
      change (response.js t).metadata.filter (· ≠ []) = none
      rw [js_metadata]
      rfl
    rw [hnone]
    exact fun hbeat => by cases hbeat
  constructor
  · rintro ⟨hpublished, hc, hm, he, htokens, hl, ht, -⟩
    refine ⟨hpublished, hcustomer' ▸ hc, hmodel' ▸ hm, hid' ▸ he, ?_, hlatency' ▸ hl, htime' ▸ ht⟩
    rw [← hcounts']
    exact htokens
  · rintro ⟨hpublished, hc, hm, he, htokens, hl, ht⟩
    refine ⟨hpublished, hcustomer' ▸ hc, hmodel' ▸ hm, hid' ▸ he, ?_, hlatency' ▸ hl, htime' ▸ ht,
      husage⟩
    rw [← hcounts'] at htokens
    exact htokens

/-- Whichever client and method a response is given to, it is billed with the tokens that it
reports, or the API never takes it: where the Python client is given a null count. -/
theorem tracked_usage (hnull : RefusesNull V) (py : Python) (T : JsonText) (D : Databind)
    (clock : ℤ) (t : Tracking) (hid : t.eventId ≠ "") (form : Py.Form)
    (response : TrackedResponse) : Accounted V py T D clock t form response := by
  have hjs : V.modelValidate (Js.toEventPayload (response.js t)) = .ok (response.js t).ingested := by
    refine V.typed _ _ (readFrom_toEventPayload ?_ js_metadata)
    have hevent := (js_ingested t response).2.2.2.1
    exact (Option.some.inj hevent).trans_ne hid
  have hevent : ∀ event, (V.modelValidate (Js.toEventPayload (response.js t)) = .ok event ∨
      ∃ e, response.py t form = some e ∧ V.modelValidate e.toDict = .ok event) →
      ∃ environment, event = { (response.js t).ingested with environment := environment } := by
    rintro event (hok | ⟨e, hpy, hok⟩)
    · rw [hjs, Except.ok.injEq] at hok
      exact ⟨_, hok.symm⟩
    · exact ⟨_, event_of_py hnull hpy hok⟩
  constructor
  case js => exact hjs
  case py_iff =>
    constructor
    · rintro ⟨e, event, hpy, hok⟩
      exact reported_of_py hpy
        ((Py.TrackedEvent.validates_iff hnull (py_metadata hpy)).mp ⟨event, hok⟩)
    · intro h
      obtain ⟨e, hpy, hcounts, -⟩ := py_reported (t := t) h
      exact ⟨e, _, hpy, Py.TrackedEvent.validated hcounts (py_metadata hpy)⟩
  case agree =>
    intro e event hpy hok
    have heq := event_of_py hnull hpy hok
    refine ⟨by rw [heq], ?_⟩
    rw [← environment_iff, ← js_environment t response]
    constructor
    · intro hsame
      have henvironment := congrArg IngestEvent.environment hsame
      rw [heq] at henvironment
      exact henvironment
    · intro hsame
      rw [heq, hsame]
      rfl
  case billed =>
    intro event hsource a ha
    obtain ⟨environment, hfields⟩ := hevent event hsource
    rw [hfields] at ha
    have hreadable : a.Readable py T ↔ _ := readable_iff ha
    refine ⟨⟨?_, ?_⟩, ?_⟩
    · rintro ⟨e, hdecoded⟩
      exact hreadable.mp (Admission.decoded_iff e hdecoded).1
    · intro h
      exact Admission.decoded_of_readable D clock (hreadable.mpr h)
    · intro e hdecoded
      obtain ⟨hcounts, hcustomer, hmodel, hevent, -⟩ := js_ingested t response
      obtain ⟨hc, hm, he⟩ := Admission.decoded_names hdecoded
      refine ⟨?_, ?_, ?_, ?_⟩
      · rw [(Admission.decoded_iff e hdecoded).2, ha]
        exact hcounts
      · rw [hc, ha]
        exact congrArg some hcustomer
      · rw [hm, ha]
        exact congrArg some hmodel
      · rw [he, Admission.eventId, ha]
        exact congrArg (fun id => some (Option.getD id a.newEventId)) hevent

end Accounted

def nullCompletion : TrackedResponse :=
  .completion .deepseek { model := "deepseek-chat", usage := ⟨.number 12, .null, none, none⟩ }

theorem tracked_usage_null : Accounted .strict .ofEventId .tree .fieldwise 0
      { customerId := "acme", eventId := "e1", timestamp := 1000 } .dict nullCompletion ∧
    ¬ nullCompletion.Reported .dict ∧ nullCompletion.counts = ⟨12, 0, 0, 0, 0, 0⟩ :=
  ⟨tracked_usage strict_refusesNull _ _ _ _ _ (by decide) _ _, fun h => h.1.2 rfl, rfl⟩

end FluxMeter.Sdk
