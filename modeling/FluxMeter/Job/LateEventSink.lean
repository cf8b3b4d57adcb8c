import FluxMeter.Job.Billable

/-! `LateEventSink`: the envelope that it writes to the dead letters, and the event that the
deserializer makes of a copy of it. -/
namespace FluxMeter.Job
open FluxMeter.Keys FluxMeter.Model FluxMeter.Wire

/-- The metadata of a bean as a node. -/
def metadataNode (metadata : Option (List (String × String))) : Json :=
  match metadata with
  | some fields => .obj (fields.map fun p => (p.1, .str p.2))
  | none => .null

/-- The properties that Jackson writes of a `TokenEvent`, one for each getter. -/
def beanNode (e : TokenEvent) : Dict :=
  [("eventId", .ofOption e.eventId), ("tenantId", .ofOption e.tenantId),
    ("customerId", .ofOption e.customerId), ("parentSpanId", .ofOption e.parentSpanId),
    ("apiKeyId", .ofOption e.apiKeyId), ("ingestSource", .ofOption e.ingestSource),
    ("ingestTraceId", .ofOption e.ingestTraceId), ("reservationId", .ofOption e.reservationId),
    ("reservedUsd", .float e.reservedUsd), ("receivedAt", .num e.receivedAt),
    ("malformedEnvelope", .bool e.malformedEnvelope), ("rawEnvelope", .ofOption e.rawEnvelope),
    ("authorizedReplay", .bool e.authorizedReplay), ("modelId", .ofOption e.modelId),
    ("inputTokens", .num e.inputTokens), ("outputTokens", .num e.outputTokens),
    ("cacheReadTokens", .num e.cacheReadTokens), ("cacheWriteTokens", .num e.cacheWriteTokens),
    ("reasoningTokens", .num e.reasoningTokens), ("embeddingTokens", .num e.embeddingTokens),
    ("timestamp", .num e.timestamp), ("latencyMs", .num e.latencyMs),
    ("sessionId", .ofOption e.sessionId), ("metadata", metadataNode e.metadata),
    ("totalTokens", .num e.getTotalTokens), ("aggregationKey", .str e.getAggregationKey)]

/-- The envelope of `LateEventSink.invoke`, at a time of the sink's clock. -/
def lateEnvelope (e : TokenEvent) (now : ℤ) : Json :=
  .obj [("envelopeVersion", .num 1), ("source", .str "operator"), ("payload", .obj (beanNode e)),
    ("auth", .obj [("tenantId", .ofOption e.tenantId), ("customerId", .ofOption e.customerId),
      ("apiKeyId", .ofOption e.apiKeyId)]),
    ("receipt", .obj [("receivedAt", .num now), ("traceId", .ofOption e.ingestTraceId)]),
    ("replay", .obj [("authorized", .bool true), ("reason", .str "late-event-dlq")])]

/-- The writing side of Jackson, and what its reading side makes of what it wrote. The envelope of
an event that was read is within the limits of the reader. -/
structure ObjectMapper (T : JsonText) extends Databind where
  writeValueAsBytes : Json → T.Bytes
  reads_late : ∀ e now, T.readTree (writeValueAsBytes (lateEnvelope e now)) =
    some (lateEnvelope e now)
  binds_written : ∀ e, treeToValue (beanNode e) = some e
  asBoolean_bool : ∀ b d, asBoolean (some (.bool b)) d = b

/-- `LateEventSink.invoke`. -/
def lateRecord {T : JsonText} (M : ObjectMapper T) (e : TokenEvent) (now : ℤ) : T.Bytes :=
  M.writeValueAsBytes (lateEnvelope e now)

/-- The event that enters the job with a copy of the record. -/
def replayed (e : TokenEvent) (now : ℤ) : TokenEvent :=
  { e with
    tenantId := trustedText e.tenantId
    apiKeyId := trustedText e.apiKeyId
    ingestSource := some "operator"
    receivedAt := now
    ingestTraceId := trustedText e.ingestTraceId
    reservationId := none
    reservedUsd := 0
    authorizedReplay := true
    timestamp := if 0 < now then now else e.timestamp }

/-- What the deserializer checks of an event that it does not call malformed. -/
structure Identified (e : TokenEvent) : Prop where
  customer : ∃ c, e.customerId = some c ∧ isBlank c = false
  eventId : missing e.eventId = false
  modelId : missing e.modelId = false

section Decoding
variable {T : JsonText} {e : TokenEvent}

private theorem customerId_of_textOrNull {root : Option Json} {c : String}
    (h : textOrNull root "customerId" = some c) : isBlank c = false := by
  unfold textOrNull at h
  split at h
  · split_ifs at h with hblank
    rw [← Option.some.inj h]
    exact Bool.eq_false_iff.mpr hblank
  · cases h

theorem deserialize_identified {D : Databind} {bytes : T.Bytes} {clock : ℤ}
    (h : (deserialize T D bytes clock).malformedEnvelope = false) :
    Identified (deserialize T D bytes clock) := by
  rcases deserialize_cases T D bytes clock with ⟨tree, payload, e, haccepted⟩ | hmalformed
  · obtain ⟨c, hcustomer, heq⟩ := deserialize_accepted clock haccepted
    rw [heq]
    exact ⟨⟨c, rfl, customerId_of_textOrNull hcustomer⟩, haccepted.eventId, haccepted.modelId⟩
  · rw [hmalformed] at h
    cases h

/-- A copy of a record of the sink is the event again, as a replay at the time of the record. -/
theorem deserialize_lateRecord {M : ObjectMapper T} {now : ℤ} (clock : ℤ) (he : Identified e)
    (hnow : isLong now) :
    deserialize T M.toDatabind (lateRecord M e now) clock = replayed e now := by
  obtain ⟨⟨c, hcustomer, hblank⟩, hid, hmodel⟩ := he
  let root := some (lateEnvelope e now)
  have hversion : M.asInt (Json.path root "envelopeVersion") (-1) = 1 :=
    M.asInt_num 1 (-1) (by decide)
  have hreceived : M.asLong (Json.path (Json.path root "receipt") "receivedAt") 0 = now :=
    M.asLong_num now 0 hnow
  have hauthorized :
      M.asBoolean (Json.path (Json.path root "replay") "authorized") false = true :=
    M.asBoolean_bool true false
  have hreserved :
      M.asDouble (Json.path (Json.path root "reservation") "reservedUsd") 0 = 0 :=
    M.asDouble_missing 0
  have hsource : textOrNull root "source" = some "operator" :=
    (textOrNull_ofOption _ "source" (some "operator") rfl).trans (by decide +kernel)
  have htrusted : textOrNull (Json.path root "auth") "customerId" = some c := by
    refine (textOrNull_ofOption _ "customerId" e.customerId rfl).trans ?_
    rw [hcustomer]
    exact (trustedText_eq_iff (some c)).mpr fun t ht => Option.some.inj ht ▸ hblank
  have htenant : textOrNull (Json.path root "auth") "tenantId" = trustedText e.tenantId :=
    textOrNull_ofOption _ "tenantId" e.tenantId rfl
  have hapiKey : textOrNull (Json.path root "auth") "apiKeyId" = trustedText e.apiKeyId :=
    textOrNull_ofOption _ "apiKeyId" e.apiKeyId rfl
  have htrace : textOrNull (Json.path root "receipt") "traceId" = trustedText e.ingestTraceId :=
    textOrNull_ofOption _ "traceId" e.ingestTraceId rfl
  have hobjects : (!Json.isObject (Json.path root "auth") ||
      !Json.isObject (Json.path root "receipt")) = false := rfl
  have hreservation :
      textOrNull (Json.path root "reservation") "reservationId" = none := rfl
  have hdecoded : deserialize T M.toDatabind (lateRecord M e now) clock =
      withTrusted M.toDatabind root c e := by
    unfold deserialize lateRecord
    rw [M.reads_late]
    dsimp only
    rw [if_neg (by rw [hversion]; decide)]
    change (if (!Json.isObject (Json.path root "auth") ||
        !Json.isObject (Json.path root "receipt")) = true then _ else _) = _
    rw [hobjects, if_neg Bool.false_ne_true, htrusted]
    dsimp only
    rw [M.binds_written]
    dsimp only
    rw [if_neg (by rw [hid, hmodel]; decide)]
  rw [hdecoded]
  unfold withTrusted replayed
  dsimp only
  rw [hreceived, hauthorized, hreserved, hsource, htenant, hapiKey, htrace,
    hreservation, hcustomer]
  simp

end Decoding

/-! ### A mapper -/

def boolAt (payload : Dict) (field : String) : Bool :=
  match payload.get field with
  | some (.bool b) => b
  | _ => false

def doubleAt (payload : Dict) (field : String) : ℚ :=
  match payload.get field with
  | some (.float q) => q
  | _ => 0

/-- The event a written bean binds to: every property has a setter or is ignored. -/
def beanOf (payload : Dict) : TokenEvent :=
  { bean payload with
    tenantId := textAt payload "tenantId"
    apiKeyId := textAt payload "apiKeyId"
    ingestSource := textAt payload "ingestSource"
    ingestTraceId := textAt payload "ingestTraceId"
    reservationId := textAt payload "reservationId"
    reservedUsd := doubleAt payload "reservedUsd"
    receivedAt := numAt payload "receivedAt"
    malformedEnvelope := boolAt payload "malformedEnvelope"
    rawEnvelope := textAt payload "rawEnvelope"
    authorizedReplay := boolAt payload "authorizedReplay" }

private theorem textAt_ofOption {payload : Dict} {field : String} {s : Option String}
    (h : payload.get field = some (Json.ofOption s)) : textAt payload field = s := by
  unfold textAt
  rw [h]
  cases s <;> rfl

private theorem metadataAt_beanNode (e : TokenEvent) : metadataAt (beanNode e) = e.metadata := by
  have hget : Dict.get (beanNode e) "metadata" = some (metadataNode e.metadata) := rfl
  unfold metadataAt
  rw [hget]
  cases e.metadata with
  | none => rfl
  | some fields =>
    unfold metadataNode
    dsimp only
    rw [List.map_map]
    exact congrArg some (List.map_id fields)

private theorem beanOf_beanNode (e : TokenEvent) : beanOf (beanNode e) = e := by
  have htext : ∀ field s, Dict.get (beanNode e) field = some (Json.ofOption s) →
      textAt (beanNode e) field = s := fun _ _ => textAt_ofOption
  unfold beanOf bean
  rw [htext "eventId" e.eventId rfl, htext "customerId" e.customerId rfl,
    htext "parentSpanId" e.parentSpanId rfl, htext "modelId" e.modelId rfl,
    htext "sessionId" e.sessionId rfl, htext "tenantId" e.tenantId rfl,
    htext "apiKeyId" e.apiKeyId rfl, htext "ingestSource" e.ingestSource rfl,
    htext "ingestTraceId" e.ingestTraceId rfl, htext "reservationId" e.reservationId rfl,
    htext "rawEnvelope" e.rawEnvelope rfl, metadataAt_beanNode]
  rfl

/-- Trees as they are written, payloads of clients bound field by field and written beans back to
the events they were written of. -/
def ObjectMapper.fieldwise : ObjectMapper .tree where
  toDatabind := { Databind.fieldwise with
    treeToValue := fun payload =>
      if (payload.get "malformedEnvelope").isSome then some (beanOf payload)
      else Databind.fieldwise.treeToValue payload
    binds := by
      intro payload htyped hrange
      rw [htyped.trusted "malformedEnvelope" (by decide)]
      exact Databind.fieldwise.binds payload htyped hrange
    overflows := by
      intro payload htyped hrange
      rw [htyped.trusted "malformedEnvelope" (by decide)]
      exact Databind.fieldwise.overflows payload htyped hrange }
  writeValueAsBytes := id
  reads_late := fun _ _ => rfl
  binds_written := fun e => congrArg some (beanOf_beanNode e)
  asBoolean_bool := fun _ _ => rfl

end FluxMeter.Job
