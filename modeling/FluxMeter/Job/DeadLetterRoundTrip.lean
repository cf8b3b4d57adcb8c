import FluxMeter.Job.LateEventSink

/-! A round trip through the dead letters: the event that the deserializer makes of the bytes that
`LateEventSink` writes for an event. -/
namespace FluxMeter.Job
open FluxMeter.Keys FluxMeter.Model FluxMeter.Wire

def billing (e : TokenEvent) : TokenEvent :=
  { e with receivedAt := 0, timestamp := 0, ingestSource := none, authorizedReplay := false }

section RoundTrip
variable {T : JsonText} {M : ObjectMapper T} {bytes : T.Bytes}

theorem trustedText_textOrNull (root : Option Json) (field : String) :
    trustedText (textOrNull root field) = textOrNull root field := by
  rw [trustedText_eq_iff]
  intro t ht
  unfold textOrNull at ht
  split at ht
  · split_ifs at ht with hblank
    · cases ht
    · rw [← Option.some.inj ht]
      exact Bool.eq_false_iff.mpr hblank
  · cases ht

private theorem billing_replayed {D : Databind} {clock : ℤ} (now : ℤ)
    (hsound : (deserialize T D bytes clock).malformedEnvelope = false) :
    billing (replayed (deserialize T D bytes clock) now) =
      { billing (deserialize T D bytes clock) with reservationId := none, reservedUsd := 0 } := by
  rcases deserialize_cases T D bytes clock with ⟨tree, payload, e, haccepted⟩ | hmalformed
  · obtain ⟨c, -, heq⟩ := deserialize_accepted clock haccepted
    have htenant : trustedText (withTrusted D (some tree) c e).tenantId =
        (withTrusted D (some tree) c e).tenantId := trustedText_textOrNull _ "tenantId"
    have hapiKey : trustedText (withTrusted D (some tree) c e).apiKeyId =
        (withTrusted D (some tree) c e).apiKeyId := trustedText_textOrNull _ "apiKeyId"
    have htrace : trustedText (withTrusted D (some tree) c e).ingestTraceId =
        (withTrusted D (some tree) c e).ingestTraceId := trustedText_textOrNull _ "traceId"
    rw [heq]
    unfold billing replayed
    rw [htenant, hapiKey, htrace]
  · rw [hmalformed] at hsound
    cases hsound

/-- A round trip through the dead letters keeps everything but the reservation: it keeps what
billing needs iff the event has none. -/
theorem billing_roundTrip_iff {clock now : ℤ} (clock' : ℤ)
    (hsound : (deserialize T M.toDatabind bytes clock).malformedEnvelope = false)
    (hnow : isLong now) :
    billing (deserialize T M.toDatabind
        (lateRecord M (deserialize T M.toDatabind bytes clock) now) clock') =
      billing (deserialize T M.toDatabind bytes clock) ↔
    (deserialize T M.toDatabind bytes clock).reservationId = none ∧
      (deserialize T M.toDatabind bytes clock).reservedUsd = 0 := by
  rw [deserialize_lateRecord clock' (deserialize_identified hsound) hnow,
    billing_replayed now hsound]
  constructor
  · intro h
    exact ⟨(congrArg TokenEvent.reservationId h).symm, (congrArg TokenEvent.reservedUsd h).symm⟩
  · rintro ⟨hid, husd⟩
    have hid' : (billing (deserialize T M.toDatabind bytes clock)).reservationId = none := hid
    have husd' : (billing (deserialize T M.toDatabind bytes clock)).reservedUsd = 0 := husd
    rw [← hid', ← husd']

end RoundTrip

/-- The envelope of a usage event of `acme`, under a reservation or not. -/
def reservedEnvelope (reservation : Dict) : Json :=
  .obj ([("envelopeVersion", .num 1), ("source", .str "gateway"),
    ("payload", .obj [("eventId", .str "e1"), ("customerId", .str "acme"),
      ("modelId", .str "gpt-4o"), ("inputTokens", .num 1000), ("timestamp", .num 1706745599000)]),
    ("auth", .obj [("tenantId", .str "t1"), ("customerId", .str "acme"), ("apiKeyId", .null)]),
    ("receipt", .obj [("receivedAt", .num 1706745600000), ("traceId", .str "trace1")])] ++
    Dict.opt "reservation" (if reservation.isEmpty then none else some (.obj reservation)))

theorem billing_roundTrip_unreserved : billing (deserialize .tree ObjectMapper.fieldwise.toDatabind
      (lateRecord ObjectMapper.fieldwise (deserialize .tree ObjectMapper.fieldwise.toDatabind
        (reservedEnvelope []) 0) 1706745700000) 0) =
    billing (deserialize .tree ObjectMapper.fieldwise.toDatabind (reservedEnvelope []) 0) :=
  (billing_roundTrip_iff 0 (by decide +kernel) (by decide)).mpr
    ⟨by decide +kernel, by decide +kernel⟩

/-- The hold of half a dollar that the event was reserved under is not in the record. -/
theorem not_billing_roundTrip_reserved :
    let e := deserialize .tree ObjectMapper.fieldwise.toDatabind
      (reservedEnvelope [("reservationId", .str "r1"), ("reservedUsd", .float (1 / 2))]) 0
    let e' := deserialize .tree ObjectMapper.fieldwise.toDatabind
      (lateRecord ObjectMapper.fieldwise e 1706745700000) 0
    e.malformedEnvelope = false ∧ e.reservationId = some "r1" ∧ e.reservedUsd = 1 / 2 ∧
      e'.eventId = e.eventId ∧ e'.reservationId = none ∧ e'.reservedUsd = 0 ∧
      billing e' ≠ billing e := by
  refine ⟨by decide +kernel, by decide +kernel, by decide +kernel, by decide +kernel,
    by decide +kernel, by decide +kernel, fun h => ?_⟩
  have hid := congrArg TokenEvent.reservationId h
  revert hid
  decide +kernel

end FluxMeter.Job
