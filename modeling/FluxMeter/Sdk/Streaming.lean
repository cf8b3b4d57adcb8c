import FluxMeter.Api.EventModel
import FluxMeter.Budget.Check
import FluxMeter.Sdk.Wrap

/-! The events that the Python SDK sends of a provider's stream: `StreamingWrapper` of `streaming.py`
and `_KillableStream` of `wrap.py`, against the validation of `POST /ingest`. -/
namespace FluxMeter.Sdk
open FluxMeter.Api FluxMeter.Budget FluxMeter.Wire

/-! ### Events -/

/-- `event.py`. -/
structure TokenEvent where
  customerId : String
  modelId : String
  provider : String := "openai"
  inputTokens : ℤ := 0
  outputTokens : ℤ := 0
  cacheReadTokens : ℤ := 0
  cacheWriteTokens : ℤ := 0
  reasoningTokens : ℤ := 0
  embeddingTokens : ℤ := 0
  eventId : String
  requestId : Option String := none
  spanId : Option String := none
  parentSpanId : Option String := none
  sessionId : Option String := none
  timestamp : ℤ
  latencyMs : ℤ := 0
  environment : Option String := none
  metadata : Option Metadata := none
  deriving DecidableEq

namespace TokenEvent

/-- `to_dict`. -/
def toDict (e : TokenEvent) : Dict :=
  [("eventId", .str e.eventId), ("customerId", .str e.customerId), ("provider", .str e.provider),
    ("modelId", .str e.modelId), ("inputTokens", .num e.inputTokens),
    ("outputTokens", .num e.outputTokens), ("cacheReadTokens", .num e.cacheReadTokens),
    ("cacheWriteTokens", .num e.cacheWriteTokens), ("reasoningTokens", .num e.reasoningTokens),
    ("embeddingTokens", .num e.embeddingTokens), ("timestamp", .num e.timestamp),
    ("latencyMs", .num e.latencyMs)] ++
  (Dict.opt "requestId" ((given e.requestId).map .str) ++
    Dict.opt "spanId" ((given e.spanId).map .str) ++
    Dict.opt "parentSpanId" ((given e.parentSpanId).map .str) ++
    Dict.opt "sessionId" ((given e.sessionId).map .str) ++
    Dict.opt "environment" ((given e.environment).map .str) ++
    Dict.opt "metadata" ((e.metadata.filter (· ≠ [])).map IngestEvent.metadataJson))

/-- The event that the API reads of the document. -/
def ingested (e : TokenEvent) : IngestEvent where
  customerId := e.customerId
  modelId := e.modelId
  provider := e.provider
  inputTokens := e.inputTokens
  outputTokens := e.outputTokens
  cacheReadTokens := e.cacheReadTokens
  cacheWriteTokens := e.cacheWriteTokens
  reasoningTokens := e.reasoningTokens
  embeddingTokens := e.embeddingTokens
  eventId := some e.eventId
  requestId := given e.requestId
  spanId := given e.spanId
  parentSpanId := given e.parentSpanId
  sessionId := given e.sessionId
  latencyMs := e.latencyMs
  environment := given e.environment
  timestamp := some e.timestamp
  metadata := e.metadata.filter (· ≠ [])

end TokenEvent

/-- The event passes the validation of `ingest_event` with the default dimensions. -/
def Ingestible (P : Pydantic) (e : TokenEvent) : Prop :=
  ∃ event, P.modelValidate e.toDict = .ok event ∧
    ∃ metadata, validateMetadata defaultDims event.metadata = .ok metadata

/-! ### `StreamingWrapper` -/

/-- What `_process_chunk` looks at before the usage of a chunk. -/
inductive Content
  /-- A chunk with choices: the length of the delta's content, and the id. -/
  | choices (content : Option ℕ) (id : Option String)
  /-- The length of the text of a `content_block_delta`. -/
  | blockDelta (text : ℕ)
  | other

structure StreamChunk where
  content : Content
  usage : Option Usage := none

inductive StreamEvent
  | chunk (c : StreamChunk)
  /-- `StopIteration`. -/
  | stop
  /-- The provider's stream raises something else. -/
  | fault

/-- One call of `__next__`: what the provider's stream does, the clock in seconds, the id and the time
of an event that is made, and whether its delivery succeeds. -/
structure Pull where
  event : StreamEvent
  now : ℚ
  eventId : String
  timestamp : ℤ
  delivered : Bool

/-- The arguments of `wrap_stream`. -/
structure StreamArgs where
  customerId : String
  modelId : String
  provider : String := "openai"
  inputTokens : ℤ := 0
  heartbeatIntervalSec : ℚ := 2
  parentSpanId : Option String := none
  sessionId : Option String := none
  environment : Option String := none

structure StreamingWrapper where
  args : StreamArgs
  /-- `FluxMeter(environment=...)`. -/
  meterEnvironment : Option String := none
  startTime : ℚ
  inputTokens : ℤ
  outputChunks : ℕ := 0
  estimatedOutputTokens : ℤ := 0
  lastEmittedOutputTokens : ℤ := 0
  lastHeartbeat : ℚ
  finished : Bool := false
  requestId : Option String := none

namespace StreamingWrapper

/-- `__init__`, which reads the clock twice. -/
def init (args : StreamArgs) (meterEnvironment : Option String) (lastHeartbeat startTime : ℚ) :
    StreamingWrapper :=
  { args, meterEnvironment, startTime, lastHeartbeat, inputTokens := args.inputTokens }

/-- What a chunk adds to the estimate of the output tokens, or sets it to. -/
def estimate (output : ℤ) (c : StreamChunk) : ℤ :=
  let counted :=
    match c.content with
    | .choices (some n) _ => if n = 0 then output else output + max 1 (n / 4 : ℕ)
    | .blockDelta n => if n = 0 then output else output + max 1 (n / 4 : ℕ)
    | _ => output
  match c.usage with
  | some u => if u.completionTokens ≠ 0 then u.completionTokens else counted
  | none => counted

/-- `_process_chunk`. -/
def processChunk (s : StreamingWrapper) (c : StreamChunk) : StreamingWrapper :=
  { s with
    outputChunks := s.outputChunks + 1
    estimatedOutputTokens := estimate s.estimatedOutputTokens c
    requestId :=
      match c.content with
      | .choices _ id => if (given s.requestId).isSome then s.requestId else id
      | _ => s.requestId
    inputTokens :=
      match c.usage with
      | some u => if u.promptTokens ≠ 0 then u.promptTokens else s.inputTokens
      | none => s.inputTokens }

/-- `environment or self._environment` of `track`. -/
def environment (s : StreamingWrapper) : Option String :=
  if (given s.args.environment).isSome then s.args.environment
  else s.meterEnvironment

def heartbeatEvent (s : StreamingWrapper) (p : Pull) (delta : ℤ) : TokenEvent where
  customerId := s.args.customerId
  modelId := s.args.modelId
  provider := s.args.provider
  outputTokens := delta
  eventId := p.eventId
  parentSpanId := s.args.parentSpanId
  sessionId := s.args.sessionId
  timestamp := p.timestamp
  environment := s.environment
  metadata := some [("_heartbeat", "true"), ("_chunks", toString s.outputChunks)]

def finalEvent (s : StreamingWrapper) (p : Pull) : TokenEvent where
  customerId := s.args.customerId
  modelId := s.args.modelId
  provider := s.args.provider
  inputTokens := s.inputTokens
  outputTokens := s.estimatedOutputTokens
  eventId := p.eventId
  requestId := s.requestId
  parentSpanId := s.args.parentSpanId
  sessionId := s.args.sessionId
  timestamp := p.timestamp
  latencyMs := truncate ((p.now - s.startTime) * 1000)
  environment := s.environment
  metadata := some [("_stream_chunks", toString s.outputChunks)]

/-- `_emit_heartbeat`, with the event that it sends. -/
def emitHeartbeat (s : StreamingWrapper) (p : Pull) : StreamingWrapper × List TokenEvent :=
  let delta := s.estimatedOutputTokens - s.lastEmittedOutputTokens
  if delta ≤ 0 then (s, [])
  else ({ s with lastEmittedOutputTokens := s.estimatedOutputTokens }, [s.heartbeatEvent p delta])

/-- `_emit_final`. -/
def emitFinal (s : StreamingWrapper) (p : Pull) : StreamingWrapper × List TokenEvent :=
  if s.finished then (s, []) else ({ s with finished := true }, [s.finalEvent p])

/-- `__next__`; a heartbeat that is not delivered raises before its time is noted. -/
def next (s : StreamingWrapper) (p : Pull) : StreamingWrapper × List TokenEvent :=
  match p.event with
  | .fault => (s, [])
  | .stop => s.emitFinal p
  | .chunk c =>
    let processed := s.processChunk c
    if s.args.heartbeatIntervalSec ≤ p.now - s.lastHeartbeat then
      let (beaten, sent) := processed.emitHeartbeat p
      (if sent = [] ∨ p.delivered then { beaten with lastHeartbeat := p.now } else beaten, sent)
    else (processed, [])

/-- The events that are sent while the caller asks for chunks. -/
def sent : StreamingWrapper → List Pull → List TokenEvent
  | _, [] => []
  | s, p :: pulls => (s.next p).2 ++ sent (s.next p).1 pulls

/-- The stream is not asked beyond its last chunk, and whenever the interval of the heartbeats has
elapsed no output tokens are estimated so far. -/
def Silent (interval : ℚ) : ℚ → ℤ → List Pull → Prop
  | _, _, [] => True
  | lastHeartbeat, output, p :: pulls =>
    match p.event with
    | .fault => Silent interval lastHeartbeat output pulls
    | .stop => False
    | .chunk c =>
      if interval ≤ p.now - lastHeartbeat then
        estimate output c ≤ 0 ∧ Silent interval p.now (estimate output c) pulls
      else Silent interval lastHeartbeat (estimate output c) pulls

end StreamingWrapper

/-! ### `_KillableStream` -/

/-- The arguments of `_KillableStream` that its event has. -/
structure KillableArgs where
  customerId : String
  modelId : String
  parentSpanId : Option String := none
  sessionId : Option String := none
  meterEnvironment : Option String := none

namespace KillableStream

/-- The event of `_finish`, with the id and the time that it is made with. -/
def finishEvent (a : KillableArgs) (stamp : String × ℤ) (t : Tokens) (killed : Bool) :
    List TokenEvent :=
  if 0 < t.output ∨ 0 < t.input then
    [{ customerId := a.customerId, modelId := a.modelId, inputTokens := t.input,
       outputTokens := t.output, eventId := stamp.1, parentSpanId := a.parentSpanId,
       sessionId := a.sessionId, timestamp := stamp.2, environment := a.meterEnvironment,
       metadata := if killed then some [("_stream_killed", "true")] else none }]
  else []

/-- The event that `__next__` sends. -/
def tracked (w : Wrapper) (a : KillableArgs) (stamp : String × ℤ) (s : KillableStream) :
    List TokenEvent :=
  if s.closed then []
  else
    match s.rest with
    | [] => finishEvent a stamp s.tokens false
    | .fault :: _ => []
    | .chunk c :: _ =>
      let tokens := s.tokens.noteChunk c
      if 0 < s.reservedUsd ∧ s.reservedUsd < tokens.estimate w then finishEvent a stamp tokens true
      else []

/-- The events that are sent while the caller asks `n` times for a chunk. -/
def sent (w : Wrapper) (a : KillableArgs) (stamps : ℕ → String × ℤ) :
    ℕ → KillableStream → List TokenEvent
  | 0, _ => []
  | n + 1, s => s.tracked w a (stamps n) ++ sent w a stamps n (s.next w).1

/-- The first chunk with which the estimate exceeds the reserve, if the caller gets to it, leaves no
positive count of tokens. -/
def Unkilled (w : Wrapper) (reservedUsd : ℚ) : ℕ → Tokens → List StreamItem → Prop
  | 0, _, _ => True
  | _, _, [] => True
  | n + 1, t, .fault :: rest => Unkilled w reservedUsd n t rest
  | n + 1, t, .chunk c :: rest =>
    if 0 < reservedUsd ∧ reservedUsd < (t.noteChunk c).estimate w then
      (t.noteChunk c).output ≤ 0 ∧ (t.noteChunk c).input ≤ 0
    else Unkilled w reservedUsd n (t.noteChunk c) rest

end KillableStream

/-! ### What the API reads -/

section Reads
variable {P : Pydantic} {e : TokenEvent}

theorem readFrom_toDict (hkeys : ∀ m ∈ e.metadata, (m.map Prod.fst).Nodup) :
    e.ingested.ReadFrom e.toDict where
  customerId := rfl
  modelId := rfl
  provider := rfl
  inputTokens := rfl
  outputTokens := rfl
  cacheReadTokens := rfl
  cacheWriteTokens := rfl
  reasoningTokens := rfl
  embeddingTokens := rfl
  eventId := rfl
  latencyMs := rfl
  timestamp := rfl
  requestId := by
    simp [TokenEvent.toDict, TokenEvent.ingested, Dict.get_append, Dict.get_cons, Dict.get_opt]
  spanId := by
    simp [TokenEvent.toDict, TokenEvent.ingested, Dict.get_append, Dict.get_cons, Dict.get_opt]
  parentSpanId := by
    simp [TokenEvent.toDict, TokenEvent.ingested, Dict.get_append, Dict.get_cons, Dict.get_opt]
  sessionId := by
    simp [TokenEvent.toDict, TokenEvent.ingested, Dict.get_append, Dict.get_cons, Dict.get_opt]
  environment := by
    simp [TokenEvent.toDict, TokenEvent.ingested, Dict.get_append, Dict.get_cons, Dict.get_opt]
  metadata := by
    simp [TokenEvent.toDict, TokenEvent.ingested, Dict.get_append, Dict.get_cons, Dict.get_opt]
  keys m hm := hkeys m (Option.mem_filter_iff.mp hm).1

theorem ingestible_iff (hkeys : ∀ m ∈ e.metadata, (m.map Prod.fst).Nodup) :
    Ingestible P e ↔
      ∃ metadata, validateMetadata defaultDims (e.metadata.filter (· ≠ [])) = .ok metadata := by
  have hread := P.typed _ _ (readFrom_toDict hkeys)
  constructor
  · rintro ⟨event, hvalid, hmetadata⟩
    rw [hread] at hvalid
    obtain rfl := Except.ok.inj hvalid
    exact hmetadata
  · exact fun h => ⟨_, hread, h⟩

theorem ingestible_of_none (h : e.metadata = none) : Ingestible P e := by
  rw [ingestible_iff (by simp [h]), h]
  exact ⟨none, rfl⟩

theorem not_ingestible {m : Metadata} (h : e.metadata = some m) (hkeys : (m.map Prod.fst).Nodup)
    (hother : ∃ entry ∈ m, entry.1 ∉ defaultDims) : ¬ Ingestible P e := by
  obtain ⟨entry, hentry, hdim⟩ := hother
  have hne : m ≠ [] := List.ne_nil_of_mem hentry
  rw [ingestible_iff (by simpa [h] using hkeys), h, Option.filter_some_pos (by simpa using hne),
    validateMetadata_ok_iff]
  exact fun haccepted => hdim (haccepted.2 entry hentry).1

end Reads

/-! ### Runs -/

namespace StreamingWrapper
variable {P : Pydantic} {s : StreamingWrapper}

private theorem not_ingestible_heartbeat (s : StreamingWrapper) (p : Pull) (delta : ℤ) :
    ¬ Ingestible P (s.heartbeatEvent p delta) :=
  have hkey : "_heartbeat" ∉ defaultDims := by decide
  not_ingestible (m := [("_heartbeat", "true"), ("_chunks", toString s.outputChunks)]) rfl (by simp)
    ⟨_, List.mem_cons_self, hkey⟩

theorem not_ingestible_final (s : StreamingWrapper) (p : Pull) : ¬ Ingestible P (s.finalEvent p) :=
  have hkey : "_stream_chunks" ∉ defaultDims := by decide
  not_ingestible (m := [("_stream_chunks", toString s.outputChunks)]) rfl (by simp)
    ⟨_, List.mem_cons_self, hkey⟩

/-- Before anything is sent, all events of the rest are accepted exactly where there are none. -/
theorem sent_ingestible_iff (pulls : List Pull) : ∀ s : StreamingWrapper, s.finished = false →
    s.lastEmittedOutputTokens = 0 →
    ((∀ e ∈ s.sent pulls, Ingestible P e) ↔
      Silent s.args.heartbeatIntervalSec s.lastHeartbeat s.estimatedOutputTokens pulls) := by
  induction pulls with
  | nil => exact fun s _ _ => iff_of_true (fun e he => by cases he) trivial
  | cons p pulls ih =>
    intro s hfinished hemitted
    unfold sent Silent next
    cases hevent : p.event with
    | fault => exact ih s hfinished hemitted
    | stop =>
      refine iff_of_false (fun h => ?_) (fun h => h)
      unfold emitFinal at h
      rw [hfinished] at h
      exact not_ingestible_final s p (h _ List.mem_cons_self)
    | chunk c =>
      dsimp only
      by_cases htick : s.args.heartbeatIntervalSec ≤ p.now - s.lastHeartbeat
      · rw [if_pos htick, if_pos htick]
        unfold emitHeartbeat
        have hdelta : (s.processChunk c).estimatedOutputTokens -
            (s.processChunk c).lastEmittedOutputTokens = estimate s.estimatedOutputTokens c := by
          show estimate s.estimatedOutputTokens c - s.lastEmittedOutputTokens = _
          rw [hemitted, sub_zero]
        rw [hdelta]
        by_cases hquiet : estimate s.estimatedOutputTokens c ≤ 0
        · dsimp only
          rw [if_pos hquiet, and_iff_right hquiet]
          exact ih { s.processChunk c with lastHeartbeat := p.now } hfinished hemitted
        · dsimp only
          rw [if_neg hquiet]
          exact iff_of_false
            (fun h => not_ingestible_heartbeat _ p _ (h _ List.mem_cons_self)) fun h => hquiet h.1
      · rw [if_neg htick, if_neg htick]
        exact ih (s.processChunk c) hfinished hemitted

end StreamingWrapper

namespace KillableStream
variable {P : Pydantic} {w : Wrapper} {a : KillableArgs} {stamps : ℕ → String × ℤ}

theorem sent_closed (n : ℕ) : ∀ s : KillableStream, s.closed = true → s.sent w a stamps n = [] := by
  induction n with
  | zero => exact fun _ _ => rfl
  | succ n ih =>
    intro s hclosed
    have hnext : (s.next w).1.closed = true := by
      unfold next finish
      cases s.rest with
      | nil => simp [hclosed]
      | cons item rest =>
        cases item with
        | fault => exact hclosed
        | chunk c =>
          dsimp only
          split_ifs <;> simp [hclosed]
    unfold sent
    rw [ih _ hnext, List.append_nil]
    unfold tracked
    rw [if_pos hclosed]

private theorem ingestible_finish {e : TokenEvent} {stamp : String × ℤ} {t : Tokens}
    (he : e ∈ finishEvent a stamp t false) : Ingestible P e := by
  unfold finishEvent at he
  by_cases hcount : 0 < t.output ∨ 0 < t.input
  · rw [if_pos hcount] at he
    rw [List.mem_singleton.mp he]
    exact ingestible_of_none rfl
  · rw [if_neg hcount] at he
    cases he

private theorem finish_killed_iff (stamp : String × ℤ) (t : Tokens) :
    (∀ e ∈ finishEvent a stamp t true, Ingestible P e) ↔ t.output ≤ 0 ∧ t.input ≤ 0 := by
  unfold finishEvent
  by_cases hcount : 0 < t.output ∨ 0 < t.input
  · rw [if_pos hcount]
    refine iff_of_false (fun h => ?_) (fun h => by omega)
    exact not_ingestible (m := [("_stream_killed", "true")]) rfl (by simp)
      ⟨_, List.mem_cons_self, by decide⟩ (h _ List.mem_cons_self)
  · rw [if_neg hcount]
    exact iff_of_true (fun e he => by cases he) (by omega)

theorem sent_ingestible_iff (n : ℕ) : ∀ s : KillableStream, s.closed = false →
    ((∀ e ∈ s.sent w a stamps n, Ingestible P e) ↔ Unkilled w s.reservedUsd n s.tokens s.rest) := by
  induction n with
  | zero => exact fun s _ => iff_of_true (fun e he => by cases he) trivial
  | succ n ih =>
    intro s hopen
    obtain ⟨reservedUsd, tokens, closed, rest⟩ := s
    obtain rfl : closed = false := hopen
    unfold sent tracked
    rw [List.forall_mem_append]
    cases rest with
    | nil =>
      refine iff_of_true ⟨fun e he => ingestible_finish he, fun e he => ?_⟩ trivial
      rw [sent_closed n _ rfl] at he
      cases he
    | cons item rest =>
      cases item with
      | fault =>
        rw [and_iff_right (fun e he => by cases he)]
        exact ih _ rfl
      | chunk c =>
        unfold next Unkilled
        dsimp only
        by_cases hkill : 0 < reservedUsd ∧ reservedUsd < (tokens.noteChunk c).estimate w
        · rw [if_neg Bool.false_ne_true, if_pos hkill, if_pos hkill, if_pos hkill, finish_killed_iff]
          refine and_iff_left fun e he => ?_
          rw [sent_closed n _ rfl] at he
          cases he
        · rw [if_neg Bool.false_ne_true, if_neg hkill, if_neg hkill, if_neg hkill,
            and_iff_right (fun e he => by cases he)]
          exact ih _ rfl

end KillableStream

/-- Every event that a run of `StreamingWrapper` sends passes the validation exactly where it sends
none; every event that a run of `_KillableStream` sends does exactly where no chunk with counted
tokens is found to exceed the reserve. -/
theorem streams_ingestible_iff (P : Pydantic) :
    (∀ (args : StreamArgs) (meterEnvironment : Option String) (lastHeartbeat startTime : ℚ)
        (pulls : List Pull),
      (∀ e ∈ (StreamingWrapper.init args meterEnvironment lastHeartbeat startTime).sent pulls,
          Ingestible P e) ↔
        StreamingWrapper.Silent args.heartbeatIntervalSec lastHeartbeat 0 pulls) ∧
      ∀ (w : Wrapper) (a : KillableArgs) (stamps : ℕ → String × ℤ) (reservedUsd : ℚ)
        (items : List StreamItem) (n : ℕ),
      (∀ e ∈ KillableStream.sent w a stamps n { reservedUsd, rest := items }, Ingestible P e) ↔
        KillableStream.Unkilled w reservedUsd n {} items :=
  ⟨fun _ _ _ _ pulls => StreamingWrapper.sent_ingestible_iff pulls _ rfl rfl,
    fun _ _ _ _ _ n => KillableStream.sent_ingestible_iff n _ rfl⟩

/-- A stream that ends at once. -/
def endPull : Pull where
  event := .stop
  now := 1
  eventId := "e1"
  timestamp := 1700000000000
  delivered := false

/-- The final event of a stream without chunks is refused, and that of a stream whose first chunk, of
4000 characters, exceeds a reserve of 0.001 dollars. -/
theorem not_streams_ingestible :
    ¬ (∀ e ∈ (StreamingWrapper.init { customerId := "c1", modelId := "gpt-4o" } none 0 0).sent [endPull],
        Ingestible .strict e) ∧
      ¬ (∀ e ∈ KillableStream.sent { customerId := "c1" } { customerId := "c1", modelId := "gpt-4o" }
          (fun _ => ("e1", 1700000000000)) 1
          { reservedUsd := 1 / 1000, rest := [.chunk { contentLength := some 4000 }] },
        Ingestible .strict e) := by
  refine ⟨fun h => ?_, fun h => ?_⟩
  · exact StreamingWrapper.not_ingestible_final _ endPull (h _ List.mem_cons_self)
  · rw [KillableStream.sent_ingestible_iff 1 _ rfl] at h
    unfold KillableStream.Unkilled at h
    rw [if_pos (by decide +kernel)] at h
    revert h
    decide +kernel

end FluxMeter.Sdk
