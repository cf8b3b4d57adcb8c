import FluxMeter.Job.Billable
import FluxMeter.Job.TokenUsageAggregator
import FluxMeter.Pricing.PriceBounds

/-! Which admitted events reach the sinks, and with which token counts. -/
namespace FluxMeter.Job.Admission
open FluxMeter.Api FluxMeter.Custody FluxMeter.Keys FluxMeter.Model FluxMeter.Pricing FluxMeter.Wire

variable {py : Python} {T : JsonText} {D : Databind} {a : Admission} {clock : ℤ}

/-- The event that an admission becomes for the sinks; none where nothing is published on the
billing topic, the envelope is dead-lettered as malformed, or the event is a heartbeat. -/
def decoded (py : Python) (T : JsonText) (D : Databind) (clock : ℤ) (a : Admission) :
    Option TokenEvent :=
  (a.envelope py).bind fun fields =>
    let e := deserialize T D (T.dumps (.obj fields)) clock
    if e.malformedEnvelope || isHeartbeat e then none else some e

def heartbeat (metadata : Option (List (String × String))) : Prop :=
  metadata.bind (List.lookup "_heartbeat") = some "true"

/-- The admission is published, it is no heartbeat, and what the deserializer insists on is there:
an envelope within the reader's limits, three texts that are not blank, and numbers that fit
their fields. -/
structure Readable (py : Python) (T : JsonText) (a : Admission) : Prop where
  published : ∃ fields, a.envelope py = some fields ∧ T.Fits (.obj fields)
  customerId : isBlank a.event.customerId = false
  modelId : isBlank a.event.modelId = false
  eventId : isBlank a.eventId = false
  tokens : isInt a.event.inputTokens ∧ isInt a.event.outputTokens ∧
    isInt a.event.cacheReadTokens ∧ isInt a.event.cacheWriteTokens ∧
    isInt a.event.reasoningTokens ∧ isInt a.event.embeddingTokens
  latencyMs : isInt a.event.latencyMs
  timestamp : isLong a.timestamp
  usage : ¬ heartbeat a.event.metadata

theorem Readable.intCounts (h : a.Readable py T) : IntCounts a.event.counts := by
  have habs : ∀ n : ℤ, isInt n → |n| ≤ (2 ^ 31 : ℕ) := by
    rintro n ⟨hlo, hhi⟩
    rw [abs_le]
    omega
  obtain ⟨h₁, h₂, h₃, h₄, h₅, h₆⟩ := h.tokens
  exact ⟨habs _ h₁, habs _ h₂, habs _ h₃, habs _ h₄, habs _ h₅, habs _ h₆⟩

theorem envelope_payload {fields : Dict} (h : a.envelope py = some fields) :
    ∃ payload : Dict, trustedEnvelope payload
        { tenantId := a.tenantId, apiKeyId := a.apiKeyId, receivedAt := a.receivedAt,
          traceId := a.traceId } = some fields ∧
      ∀ j, payload.get j =
        if j = "eventId" then some (.str a.eventId)
        else if j = "timestamp" then some (.num a.timestamp)
        else a.event.modelDump.get j := by
  unfold envelope at h
  split at h
  · simp at h
  next payload hash hprepare =>
    split at h
    · simp at h
    next timestamp hts =>
      split_ifs at h with hsuspicious
      exact ⟨payload, h, preparePayload_get hprepare⟩

theorem isHeartbeat_iff (e : TokenEvent) : isHeartbeat e = true ↔ heartbeat e.metadata := by
  unfold isHeartbeat heartbeat
  cases e.metadata <;> simp

theorem bean_metadata {payload : Dict} (hget : ∀ j, payload.get j =
      if j = "eventId" then some (.str a.eventId)
      else if j = "timestamp" then some (.num a.timestamp)
      else a.event.modelDump.get j) : metadataAt payload = a.event.metadata := by
  have hdump : a.event.modelDump.get "metadata" =
      a.event.metadata.map IngestEvent.metadataJson := by
    simp [IngestEvent.modelDump, Dict.get_append, Dict.get_cons, Dict.get_opt]
  have hmap : ∀ m : List (String × String), (m.map fun p => (p.1, Json.str p.2)).map
      (fun p => (p.1, textOf p.2)) = m := by
    intro m
    rw [List.map_map]
    exact List.map_id m
  unfold metadataAt
  rw [hget, if_neg (by decide), if_neg (by decide), hdump]
  cases a.event.metadata with
  | none => rfl
  | some m => exact congrArg some (hmap m)

/-- An admission is decoded exactly when it is readable, with its own counts. -/
theorem decoded_iff (e : TokenEvent) (h : a.decoded py T D clock = some e) :
    a.Readable py T ∧ e.counts = a.event.counts := by
  unfold decoded at h
  obtain ⟨fields, henvelope, hdecode⟩ := Option.bind_eq_some_iff.mp h
  obtain ⟨payload, htrusted, hget⟩ := envelope_payload henvelope
  obtain ⟨hcustomer, hid, hmodel, htime, hin, hout, hread, hwrite, hreason, hembed, hlat⟩ :=
    bean_fields hget
  have hwell := payload_wellTyped hget
  dsimp only at hdecode
  split_ifs at hdecode with hdropped
  rw [Bool.or_eq_true, not_or] at hdropped
  obtain ⟨hfits, hrange, hblank, hidok, hmodelok⟩ := checks_of_ok hwell hcustomer htrusted
    (by simpa using hdropped.1)
  have hints := hrange.ints
  simp only [intProperties, List.forall_mem_cons] at hints
  rw [hin, hout, hread, hwrite, hreason, hembed, hlat] at hints
  obtain ⟨h₁, h₂, h₃, h₄, h₅, h₆, h₇, -⟩ := hints
  have hdecoded : e = withTrusted D (some (.obj fields)) a.event.customerId (bean payload) := by
    rw [← deserialize_ok (D := D) hfits hwell hrange hcustomer hblank hidok hmodelok htrusted]
    exact (Option.some.inj hdecode).symm
  have husage : ¬ heartbeat a.event.metadata := by
    have hbeat := hdropped.2
    rw [Option.some.inj hdecode, isHeartbeat_iff, hdecoded] at hbeat
    rw [← bean_metadata hget]
    exact hbeat
  rw [hid] at hidok
  rw [hmodel] at hmodelok
  refine ⟨⟨⟨fields, henvelope, hfits⟩, hblank, hmodelok, hidok, ⟨h₁, h₂, h₃, h₄, h₅, h₆⟩, h₇, ?_,
    husage⟩, ?_⟩
  · rw [← htime]
    exact hrange.timestamp
  · rw [hdecoded]
    show TokenCounts.mk (numAt payload "inputTokens") (numAt payload "outputTokens")
      (numAt payload "cacheReadTokens") (numAt payload "cacheWriteTokens")
      (numAt payload "reasoningTokens") (numAt payload "embeddingTokens") = _
    rw [hin, hout, hread, hwrite, hreason, hembed]
    rfl

/-- What a readable admission is decoded as: the bean of its payload under its own customer. -/
theorem decoded_eq (D : Databind) (clock : ℤ) (h : a.Readable py T) :
    ∃ fields payload : Dict, (∀ j, payload.get j =
        if j = "eventId" then some (.str a.eventId)
        else if j = "timestamp" then some (.num a.timestamp)
        else a.event.modelDump.get j) ∧
      a.decoded py T D clock =
        some (withTrusted D (some (.obj fields)) a.event.customerId (bean payload)) := by
  obtain ⟨fields, henvelope, hfits⟩ := h.published
  obtain ⟨payload, htrusted, hget⟩ := envelope_payload henvelope
  obtain ⟨hcustomer, hid, hmodel, htime, hin, hout, hread, hwrite, hreason, hembed, hlat⟩ :=
    bean_fields hget
  obtain ⟨h₁, h₂, h₃, h₄, h₅, h₆⟩ := h.tokens
  have hrange : InRange payload := by
    constructor
    case ints =>
      simp only [intProperties, List.forall_mem_cons]
      rw [hin, hout, hread, hwrite, hreason, hembed, hlat]
      exact ⟨h₁, h₂, h₃, h₄, h₅, h₆, h.latencyMs, by simp⟩
    case timestamp =>
      rw [htime]
      exact h.timestamp
  refine ⟨fields, payload, hget, ?_⟩
  unfold decoded
  rw [henvelope, Option.bind_some, deserialize_ok hfits (payload_wellTyped hget) hrange hcustomer
    h.customerId (by rw [hid]; exact h.eventId) (by rw [hmodel]; exact h.modelId) htrusted]
  apply if_neg
  rw [Bool.or_eq_true, not_or, isHeartbeat_iff]
  refine ⟨Bool.false_ne_true, ?_⟩
  show ¬ heartbeat (metadataAt payload)
  rw [bean_metadata hget]
  exact h.usage

theorem decoded_of_readable (D : Databind) (clock : ℤ) (h : a.Readable py T) :
    ∃ e, a.decoded py T D clock = some e := by
  obtain ⟨fields, payload, -, hdecoded⟩ := decoded_eq D clock h
  exact ⟨_, hdecoded⟩

theorem decoded_names {e : TokenEvent} (h : a.decoded py T D clock = some e) :
    e.customerId = some a.event.customerId ∧ e.modelId = some a.event.modelId ∧
      e.eventId = some a.eventId := by
  obtain ⟨fields, payload, hget, hdecoded⟩ := decoded_eq D clock (decoded_iff e h).1
  obtain ⟨-, hid, hmodel, -⟩ := bean_fields hget
  rw [hdecoded, Option.some.injEq] at h
  subst h
  exact ⟨rfl, hmodel, hid⟩

end FluxMeter.Job.Admission
