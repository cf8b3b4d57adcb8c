import FluxMeter.Job.LateEventSink

/-! The fields of the bean that no client supplies. The payload is bound first and the envelope is
copied over it field by field; the malformed flag and the raw envelope are not copied. -/
namespace FluxMeter.Job
open FluxMeter.Keys FluxMeter.Model FluxMeter.Wire

structure Trusted where
  tenantId : Option String := none
  customerId : Option String := none
  apiKeyId : Option String := none
  ingestSource : Option String := none
  ingestTraceId : Option String := none
  reservationId : Option String := none
  reservedUsd : ℚ := 0
  authorizedReplay : Bool := false
  malformedEnvelope : Bool := false
  rawEnvelope : Option String := none
  deriving DecidableEq

def trusted (e : TokenEvent) : Trusted where
  tenantId := e.tenantId
  customerId := e.customerId
  apiKeyId := e.apiKeyId
  ingestSource := e.ingestSource
  ingestTraceId := e.ingestTraceId
  reservationId := e.reservationId
  reservedUsd := e.reservedUsd
  authorizedReplay := e.authorizedReplay
  malformedEnvelope := e.malformedEnvelope
  rawEnvelope := e.rawEnvelope

/-- What the auth, receipt, reservation, source and replay nodes of an envelope say. -/
def envelopeTrusted (D : Databind) (root : Option Json) : Trusted where
  tenantId := textOrNull (Json.path root "auth") "tenantId"
  customerId := textOrNull (Json.path root "auth") "customerId"
  apiKeyId := textOrNull (Json.path root "auth") "apiKeyId"
  ingestSource := textOrNull root "source"
  ingestTraceId := textOrNull (Json.path root "receipt") "traceId"
  reservationId := textOrNull (Json.path root "reservation") "reservationId"
  reservedUsd := D.asDouble (Json.path (Json.path root "reservation") "reservedUsd") 0
  authorizedReplay := textOrNull root "source" = some "operator" ∧
    D.asBoolean (Json.path (Json.path root "replay") "authorized") false

/-- Two envelopes that differ in their payloads only. -/
def SameEnvelope (root root' : Option Json) : Prop :=
  ∀ field ∈ ["auth", "receipt", "reservation", "source", "replay"],
    Json.path root field = Json.path root' field

/-- `MalformedEnvelopeSink.invoke`: the record for the dead letters; `none` is the exception that a
null envelope raises. -/
def malformedRecord (e : TokenEvent) : Option String := e.rawEnvelope

/-- The event has its trusted fields from the envelope alone, and the sink of malformed envelopes
can write what it is given. -/
structure TrustsEnvelope (T : JsonText) (D : Databind) (bytes : T.Bytes) (clock : ℤ) : Prop where
  fields : ∀ tree payload e, Accepted T D bytes tree payload e →
    trusted (deserialize T D bytes clock) = envelopeTrusted D (some tree)
  record : (deserialize T D bytes clock).malformedEnvelope = true →
    malformedRecord (deserialize T D bytes clock) = some (T.decode bytes)

/-- The payload sets neither the malformed flag nor the raw envelope. -/
def CarriesNeither (T : JsonText) (D : Databind) (bytes : T.Bytes) : Prop :=
  ∀ tree payload e, Accepted T D bytes tree payload e →
    e.malformedEnvelope = false ∧ e.rawEnvelope = none

section Trust
variable {T : JsonText} {D : Databind} {bytes : T.Bytes} {tree : Json} {payload : Dict}
  {e : TokenEvent}

theorem envelopeTrusted_congr {root root' : Option Json} (h : SameEnvelope root root') :
    envelopeTrusted D root = envelopeTrusted D root' := by
  have hsource : textOrNull root "source" = textOrNull root' "source" := by
    unfold textOrNull
    rw [h "source" (by decide)]
  unfold envelopeTrusted
  rw [hsource, h "auth" (by decide), h "receipt" (by decide), h "reservation" (by decide),
    h "replay" (by decide)]

private theorem trusted_withTrusted {c : String} {root : Option Json}
    (hcustomer : textOrNull (Json.path root "auth") "customerId" = some c) (e : TokenEvent) :
    trusted (withTrusted D root c e) =
      { envelopeTrusted D root with
        malformedEnvelope := e.malformedEnvelope, rawEnvelope := e.rawEnvelope } := by
  unfold trusted withTrusted envelopeTrusted
  rw [hcustomer]

theorem trusted_deserialize (clock : ℤ) (h : Accepted T D bytes tree payload e) :
    trusted (deserialize T D bytes clock) =
      { envelopeTrusted D (some tree) with
        malformedEnvelope := e.malformedEnvelope, rawEnvelope := e.rawEnvelope } := by
  obtain ⟨c, hcustomer, heq⟩ := deserialize_accepted clock h
  rw [heq]
  exact trusted_withTrusted hcustomer e

theorem trusted_of_carriesNeither (clock : ℤ) (hneither : CarriesNeither T D bytes)
    (h : Accepted T D bytes tree payload e) :
    trusted (deserialize T D bytes clock) = envelopeTrusted D (some tree) := by
  obtain ⟨hflag, hraw⟩ := hneither tree payload e h
  rw [trusted_deserialize clock h, hflag, hraw]
  rfl

private theorem trustsEnvelope_iff (clock : ℤ) :
    TrustsEnvelope T D bytes clock ↔ CarriesNeither T D bytes := by
  constructor
  · intro htrusts tree payload e haccepted
    have hfields := htrusts.fields tree payload e haccepted
    rw [trusted_deserialize clock haccepted] at hfields
    exact ⟨congrArg Trusted.malformedEnvelope hfields, congrArg Trusted.rawEnvelope hfields⟩
  · intro hneither
    refine ⟨fun tree payload e h => trusted_of_carriesNeither clock hneither h, fun hflag => ?_⟩
    rcases deserialize_cases T D bytes clock with ⟨tree, payload, e, haccepted⟩ | hmalformed
    · have hflags := congrArg Trusted.malformedEnvelope
        (trusted_of_carriesNeither clock hneither haccepted)
      rw [show (trusted (deserialize T D bytes clock)).malformedEnvelope = true from hflag] at hflags
      cases hflags
    · rw [hmalformed]
      rfl

/-- The deserializer trusts only the envelope iff the payload carries neither of the two fields.
Then two accepted messages that differ in their payloads have the same trusted fields. -/
theorem deserialize_trusts_envelope (T : JsonText) (D : Databind) (bytes : T.Bytes) (clock : ℤ) :
    (TrustsEnvelope T D bytes clock ↔ CarriesNeither T D bytes) ∧
      ∀ bytes' clock' tree payload e tree' payload' e', Accepted T D bytes tree payload e →
        Accepted T D bytes' tree' payload' e' → SameEnvelope (some tree) (some tree') →
        CarriesNeither T D bytes → CarriesNeither T D bytes' →
        trusted (deserialize T D bytes clock) = trusted (deserialize T D bytes' clock') := by
  refine ⟨trustsEnvelope_iff clock, ?_⟩
  intro bytes' clock' tree payload e tree' payload' e' haccepted haccepted' hsame hneither hneither'
  rw [trusted_of_carriesNeither clock hneither haccepted,
    trusted_of_carriesNeither clock' hneither' haccepted']
  exact envelopeTrusted_congr hsame

end Trust

/-- An envelope of the customer `acme` around a payload. -/
def acmeEnvelope (payload : Dict) : Json :=
  .obj [("envelopeVersion", .num 1), ("source", .str "api"), ("payload", .obj payload),
    ("auth", .obj [("tenantId", .null), ("customerId", .str "acme"), ("apiKeyId", .null)]),
    ("receipt", .obj [("receivedAt", .num 1706745599000), ("traceId", .str "t1")])]

def plainPayload : Dict := [("eventId", .str "e1"), ("modelId", .str "gpt-4o")]

def flaggedPayload : Dict := plainPayload ++ [("malformedEnvelope", .bool true)]

theorem accepted_acme {payload : Dict} {e : TokenEvent}
    (hbinds : ObjectMapper.fieldwise.treeToValue payload = some e)
    (heventId : missing e.eventId = false) (hmodelId : missing e.modelId = false) :
    Accepted .tree ObjectMapper.fieldwise.toDatabind (acmeEnvelope payload) (acmeEnvelope payload)
      payload e where
  reads := rfl
  version := ObjectMapper.fieldwise.asInt_num 1 (-1) (by decide)
  object := rfl
  auth := rfl
  receipt := rfl
  customer := by
    have hcustomer : textOrNull (Json.path (some (acmeEnvelope payload)) "auth") "customerId" =
        some "acme" := by
      change (if isBlank "acme" = true then none else some "acme") = some "acme"
      decide +kernel
    rw [hcustomer]
    exact Option.some_ne_none "acme"
  binds := hbinds
  eventId := heventId
  modelId := hmodelId

theorem accepted_plain : Accepted .tree ObjectMapper.fieldwise.toDatabind
    (acmeEnvelope plainPayload) (acmeEnvelope plainPayload) plainPayload (bean plainPayload) := by
  have hbinds : (if InRange plainPayload then some (bean plainPayload) else none) =
      some (bean plainPayload) := if_pos (by decide)
  exact accepted_acme hbinds (by decide +kernel) (by decide +kernel)

theorem deserialize_trusts_plain : TrustsEnvelope .tree ObjectMapper.fieldwise.toDatabind
    (acmeEnvelope plainPayload) 1706745600000 := by
  refine (deserialize_trusts_envelope _ _ _ _).1.mpr ?_
  intro tree payload e haccepted
  obtain rfl : acmeEnvelope plainPayload = tree := Option.some.inj haccepted.reads
  obtain rfl : plainPayload = payload :=
    Json.obj.inj (Option.some.inj (accepted_plain.object.symm.trans haccepted.object))
  rw [← Option.some.inj (accepted_plain.binds.symm.trans haccepted.binds)]
  exact ⟨rfl, rfl⟩

/-- Two envelopes that differ only in their payloads: one event is billed, the other is sent to the
sink of malformed envelopes, which cannot write it. -/
theorem not_trusts_flagged :
    SameEnvelope (some (acmeEnvelope plainPayload)) (some (acmeEnvelope flaggedPayload)) ∧
    Accepted .tree ObjectMapper.fieldwise.toDatabind (acmeEnvelope flaggedPayload)
      (acmeEnvelope flaggedPayload) flaggedPayload (beanOf flaggedPayload) ∧
    (deserialize .tree ObjectMapper.fieldwise.toDatabind (acmeEnvelope plainPayload)
      1706745600000).malformedEnvelope = false ∧
    (deserialize .tree ObjectMapper.fieldwise.toDatabind (acmeEnvelope flaggedPayload)
      1706745600000).malformedEnvelope = true ∧
    malformedRecord (deserialize .tree ObjectMapper.fieldwise.toDatabind
      (acmeEnvelope flaggedPayload) 1706745600000) = none ∧
    ¬ TrustsEnvelope .tree ObjectMapper.fieldwise.toDatabind (acmeEnvelope flaggedPayload)
      1706745600000 := by
  have hflag : (deserialize .tree ObjectMapper.fieldwise.toDatabind (acmeEnvelope flaggedPayload)
      1706745600000).malformedEnvelope = true := by decide +kernel
  have hrecord : malformedRecord (deserialize .tree ObjectMapper.fieldwise.toDatabind
      (acmeEnvelope flaggedPayload) 1706745600000) = none := by decide +kernel
  refine ⟨?_, accepted_acme rfl (by decide +kernel) (by decide +kernel), by decide +kernel, hflag,
    hrecord, fun htrusts => ?_⟩
  · intro field hfield
    simp only [List.mem_cons, List.not_mem_nil, or_false] at hfield
    rcases hfield with rfl | rfl | rfl | rfl | rfl <;> rfl
  · have hsome := htrusts.record hflag
    rw [hrecord] at hsome
    cases hsome

end FluxMeter.Job
