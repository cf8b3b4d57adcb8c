import FluxMeter.Api.Ingest
import FluxMeter.Job.Deserializer

/-! What an accepted event becomes on the consuming side: the envelope that Custody publishes is
decoded into the same event exactly when every field fits the bean it is bound to. -/
namespace FluxMeter.Job
open FluxMeter.Api FluxMeter.Custody FluxMeter.Keys FluxMeter.Model FluxMeter.Wire

/-! ### The envelope of any well-typed payload -/

/-- A trusted text; a blank one is dropped. -/
def trustedText (s : Option String) : Option String := s.filter fun s => !isBlank s

theorem trustedText_eq_iff (s : Option String) :
    trustedText s = s ↔ ∀ t ∈ s, isBlank t = false := by
  unfold trustedText
  cases s with
  | none => simp
  | some t => cases hb : isBlank t <;> simp [Option.filter, hb]

theorem textOrNull_ofOption (fields : Dict) (field : String) (s : Option String)
    (h : fields.get field = some (Json.ofOption s)) :
    textOrNull (some (.obj fields)) field = trustedText s := by
  unfold textOrNull Json.path
  dsimp only
  rw [h]
  cases s with
  | none => rfl
  | some s =>
    unfold trustedText
    change (if isBlank s = true then none else some s) = _
    cases hb : isBlank s <;> simp [Option.filter, hb]

section Envelope
variable {T : JsonText} {D : Databind} {payload fields : Dict} {a : EnvelopeArgs} {c : String}
  {clock : ℤ}

theorem trustedEnvelope_get (hcustomer : payload.get "customerId" = some (.str c))
    (henv : trustedEnvelope payload a = some fields) :
    fields.get "envelopeVersion" = some (.num 1) ∧
    fields.get "source" = some (.str a.source) ∧
    fields.get "payload" = some (.obj payload) ∧
    fields.get "auth" = some (.obj [("tenantId", Json.ofOption a.tenantId),
      ("customerId", .str c), ("apiKeyId", Json.ofOption a.apiKeyId)]) ∧
    fields.get "receipt" = some (.obj [("receivedAt", .num a.receivedAt),
      ("traceId", .str a.traceId)]) ∧
    fields.get "replay" = none := by
  unfold trustedEnvelope at henv
  rw [hcustomer, Option.map_some, Option.some.injEq] at henv
  subst henv
  simp [Dict.get_cons, Dict.get_opt]

theorem deserialize_refused (hfits : ¬ T.Fits (.obj fields)) :
    deserialize T D (T.dumps (.obj fields)) clock =
      malformed (T.decode (T.dumps (.obj fields))) clock := by
  unfold deserialize
  rw [T.refuses _ hfits]

theorem deserialize_envelope (hfits : T.Fits (.obj fields))
    (hcustomer : payload.get "customerId" = some (.str c))
    (henv : trustedEnvelope payload a = some fields) :
    deserialize T D (T.dumps (.obj fields)) clock =
      if isBlank c then malformed (T.decode (T.dumps (.obj fields))) clock
      else
        match D.treeToValue payload with
        | none => malformed (T.decode (T.dumps (.obj fields))) clock
        | some e =>
          if missing e.eventId || missing e.modelId then
            malformed (T.decode (T.dumps (.obj fields))) clock
          else withTrusted D (some (.obj fields)) c e := by
  obtain ⟨hversion, -, hpayload, hauth, hreceipt, -⟩ := trustedEnvelope_get hcustomer henv
  have hone : D.asInt (some (.num 1)) (-1) = 1 := D.asInt_num 1 (-1) (by decide)
  have hcust : textOrNull (Json.path (some (.obj fields)) "auth") "customerId" =
      if isBlank c then none else some c := by
    unfold textOrNull Json.path
    dsimp only
    rw [hauth]
    simp [Dict.get_cons]
  unfold deserialize
  rw [T.reads _ hfits]
  dsimp only
  have hp : ∀ key, Json.path (some (.obj fields)) key = fields.get key := fun _ => rfl
  rw [hp "envelopeVersion", hversion, if_neg (by rw [hone]; omega), hp "payload", hpayload]
  dsimp only
  rw [hcust, hp "auth", hauth, hp "receipt", hreceipt]
  simp only [Json.isObject, Bool.not_true, Bool.or_self, Bool.false_eq_true, if_false]
  cases hb : isBlank c <;> rfl

theorem deserialize_ok (hfits : T.Fits (.obj fields)) (hwell : WellTyped payload)
    (hrange : InRange payload) (hcustomer : payload.get "customerId" = some (.str c))
    (hblank : isBlank c = false) (heventId : missing (textAt payload "eventId") = false)
    (hmodelId : missing (textAt payload "modelId") = false)
    (henv : trustedEnvelope payload a = some fields) :
    deserialize T D (T.dumps (.obj fields)) clock =
      withTrusted D (some (.obj fields)) c (bean payload) := by
  have hcheck : (missing (bean payload).eventId || missing (bean payload).modelId) = false := by
    change (missing (textAt payload "eventId") || missing (textAt payload "modelId")) = false
    rw [heventId, hmodelId]
    rfl
  rw [deserialize_envelope hfits hcustomer henv, hblank, D.binds payload hwell hrange]
  dsimp only
  rw [hcheck]
  rfl

/-- An envelope of a well-typed payload that is not malformed met every check. -/
theorem checks_of_ok (hwell : WellTyped payload)
    (hcustomer : payload.get "customerId" = some (.str c))
    (henv : trustedEnvelope payload a = some fields)
    (hok : (deserialize T D (T.dumps (.obj fields)) clock).malformedEnvelope = false) :
    T.Fits (.obj fields) ∧ InRange payload ∧ isBlank c = false ∧
      missing (textAt payload "eventId") = false ∧
      missing (textAt payload "modelId") = false := by
  by_cases hfits : T.Fits (.obj fields)
  · rw [deserialize_envelope hfits hcustomer henv] at hok
    by_cases hrange : InRange payload
    · rw [D.binds payload hwell hrange] at hok
      dsimp only at hok
      split_ifs at hok with hblank hmissing
      · simp [malformed] at hok
      · simp [malformed] at hok
      · have hnone : (missing (bean payload).eventId || missing (bean payload).modelId) = false :=
          Bool.eq_false_iff.mpr hmissing
        rw [Bool.or_eq_false_iff] at hnone
        exact ⟨hfits, hrange, by simpa using hblank, hnone.1, hnone.2⟩
    · rw [D.overflows payload hwell hrange] at hok
      dsimp only at hok
      split_ifs at hok
      · simp [malformed] at hok
      · simp [malformed] at hok
  · rw [deserialize_refused hfits] at hok
    simp [malformed] at hok

theorem withTrusted_timestamp (hsource : a.source ≠ "operator")
    (hcustomer : payload.get "customerId" = some (.str c))
    (henv : trustedEnvelope payload a = some fields) (e : TokenEvent) :
    (withTrusted D (some (.obj fields)) c e).timestamp = e.timestamp := by
  obtain ⟨-, hsrc, -⟩ := trustedEnvelope_get hcustomer henv
  have hnot : textOrNull (some (.obj fields)) "source" ≠ some "operator" := by
    unfold textOrNull Json.path
    dsimp only
    rw [hsrc]
    dsimp only
    split_ifs
    · simp
    · exact fun h => hsource (Option.some.inj h)
  unfold withTrusted
  dsimp only
  rw [if_neg]
  simp [hnot]

theorem withTrusted_auth (hcustomer : payload.get "customerId" = some (.str c))
    (henv : trustedEnvelope payload a = some fields) (e : TokenEvent) :
    (withTrusted D (some (.obj fields)) c e).tenantId = trustedText a.tenantId ∧
    (withTrusted D (some (.obj fields)) c e).apiKeyId = trustedText a.apiKeyId := by
  obtain ⟨-, -, -, hauth, -, -⟩ := trustedEnvelope_get hcustomer henv
  have hpath : Json.path (some (.obj fields)) "auth" = fields.get "auth" := rfl
  constructor
  · change textOrNull (Json.path (some (.obj fields)) "auth") "tenantId" = _
    rw [hpath, hauth]
    exact textOrNull_ofOption _ _ _ (by simp [Dict.get_cons])
  · change textOrNull (Json.path (some (.obj fields)) "auth") "apiKeyId" = _
    rw [hpath, hauth]
    exact textOrNull_ofOption _ _ _ (by simp [Dict.get_cons])

theorem withTrusted_receivedAt (hreceived : isLong a.receivedAt)
    (hcustomer : payload.get "customerId" = some (.str c))
    (henv : trustedEnvelope payload a = some fields) (e : TokenEvent) :
    (withTrusted D (some (.obj fields)) c e).receivedAt = a.receivedAt := by
  obtain ⟨-, -, -, -, hreceipt, -⟩ := trustedEnvelope_get hcustomer henv
  have hpath : Json.path (some (.obj fields)) "receipt" = fields.get "receipt" := rfl
  change D.asLong (Json.path (Json.path (some (.obj fields)) "receipt") "receivedAt") 0 = _
  rw [hpath, hreceipt]
  exact D.asLong_num _ _ hreceived

end Envelope

/-! ### The HTTP endpoints -/

/-- One admitted event with everything the endpoint and Custody add to it. -/
structure Admission where
  event : IngestEvent
  /-- The `uuid4` for an event without an id. -/
  newEventId : String
  tenantId : Option String
  apiKeyId : Option String
  clock : ℤ
  receivedAt : ℤ
  traceId : String
  maxAge : ℤ := 24 * 60 * 60
  maxFuture : ℤ := 5 * 60

namespace Admission

def eventId (a : Admission) : String := a.event.eventId.getD a.newEventId

def timestamp (a : Admission) : ℤ := a.event.timestamp.getD a.clock

/-- The envelope that Custody publishes on the billing topic when it accepts the event; none
when it raises or quarantines. -/
def envelope (py : Python) (a : Admission) : Option Dict :=
  match preparePayload py (a.event.eventDict a.newEventId) a.tenantId none a.clock with
  | none => none
  | some (payload, _) =>
    match timestampOf py payload with
    | none => none
    | some timestamp =>
      if suspiciousTime timestamp a.receivedAt a.maxAge a.maxFuture then none
      else trustedEnvelope payload
        { tenantId := a.tenantId, apiKeyId := a.apiKeyId, receivedAt := a.receivedAt,
          traceId := a.traceId }

/-- The decoded event is the admitted one. -/
structure BilledAs (a : Admission) (e : TokenEvent) : Prop where
  sound : e.malformedEnvelope = false
  eventId : e.eventId = some a.eventId
  customerId : e.customerId = some a.event.customerId
  modelId : e.modelId = some a.event.modelId
  timestamp : e.timestamp = a.timestamp
  tokens : e.inputTokens = a.event.inputTokens ∧ e.outputTokens = a.event.outputTokens ∧
    e.cacheReadTokens = a.event.cacheReadTokens ∧ e.cacheWriteTokens = a.event.cacheWriteTokens ∧
    e.reasoningTokens = a.event.reasoningTokens ∧ e.embeddingTokens = a.event.embeddingTokens
  tenantId : e.tenantId = a.tenantId
  apiKeyId : e.apiKeyId = a.apiKeyId
  receivedAt : e.receivedAt = a.receivedAt

/-- Every text is non-blank for Java and every number fits its Java field. -/
structure Decodable (a : Admission) : Prop where
  customerId : isBlank a.event.customerId = false
  modelId : isBlank a.event.modelId = false
  eventId : isBlank a.eventId = false
  tenantId : ∀ t ∈ a.tenantId, isBlank t = false
  apiKeyId : ∀ k ∈ a.apiKeyId, isBlank k = false
  tokens : isInt a.event.inputTokens ∧ isInt a.event.outputTokens ∧
    isInt a.event.cacheReadTokens ∧ isInt a.event.cacheWriteTokens ∧
    isInt a.event.reasoningTokens ∧ isInt a.event.embeddingTokens
  latencyMs : isInt a.event.latencyMs
  timestamp : isLong a.timestamp

variable {py : Python} {a : Admission} {payload : Dict}

theorem preparePayload_get {hash : String}
    (h : preparePayload py (a.event.eventDict a.newEventId) a.tenantId none a.clock =
      some (payload, hash)) (j : String) :
    payload.get j =
      if j = "eventId" then some (.str a.eventId)
      else if j = "timestamp" then some (.num a.timestamp)
      else a.event.modelDump.get j := by
  have hid := IngestEvent.get_eventDict a.event a.newEventId "eventId"
  rw [if_pos rfl] at hid
  have htimestamp : a.event.modelDump.get "timestamp" = a.event.timestamp.map .num := by
    simp [IngestEvent.modelDump, Dict.get_append, Dict.get_cons, Dict.get_opt]
  have hres : resolveCustodyEventId py (a.event.eventDict a.newEventId) none =
      if a.eventId = "" then none else some a.eventId := by
    unfold resolveCustodyEventId
    rw [hid]
    by_cases hempty : a.event.eventId.getD a.newEventId = ""
    · simp [given, truthy, eventId, hempty]
    · simp [given, truthy, py.str_str, eventId, hempty]
  unfold preparePayload at h
  rw [hres] at h
  by_cases hempty : a.eventId = ""
  · rw [if_pos hempty] at h
    simp at h
  · rw [if_neg hempty, Option.map_some, Option.some.injEq, Prod.mk.injEq] at h
    have hget : ∀ k, (Dict.set (a.event.eventDict a.newEventId) "eventId" (.str a.eventId)).get k =
        if k = "eventId" then some (.str a.eventId) else a.event.modelDump.get k := by
      intro k
      rw [Dict.get_set, IngestEvent.get_eventDict]
      split_ifs <;> rfl
    have hgiven : (Dict.set (a.event.eventDict a.newEventId) "eventId" (.str a.eventId)).get
        "timestamp" = a.event.timestamp.map .num := by
      rw [hget, if_neg (by decide), htimestamp]
    rw [← h.1, hgiven]
    cases hcase : a.event.timestamp with
    | none =>
      have hts : a.timestamp = a.clock := by simp [timestamp, hcase]
      rw [Option.map_none, Option.isNone_none, if_pos rfl, Dict.get_set, hget, hts]
      by_cases hj : j = "timestamp"
      · subst hj
        rw [if_pos rfl, if_neg (by decide), if_pos rfl]
      · rw [if_neg hj, if_neg hj]
    | some n =>
      have hts : a.timestamp = n := by simp [timestamp, hcase]
      rw [Option.map_some, Option.isNone_some, if_neg (by simp), hget, hts]
      by_cases hj : j = "timestamp"
      · subst hj
        rw [if_neg (by decide), if_neg (by decide), if_pos rfl, htimestamp, hcase]
        rfl
      · rw [if_neg hj]

/-- The value has the type that the event schema gives the field `k`. -/
structure SchemaTyped (k : String) (v : Json) : Prop where
  text : k ∈ textProperties → ∃ s, v = .str s
  int : k ∈ intProperties → ∃ n, v = .num n
  metadata : k = "metadata" → ∃ fields, v = .obj fields ∧ ∀ p ∈ fields, ∃ s, p.2 = .str s
  client : k ∉ trustedProperties

theorem schemaTyped_text {k : String} (hk : k ∈ textProperties) (s : String) :
    SchemaTyped k (.str s) := by
  have hdisjoint : ∀ k ∈ textProperties, k ∉ intProperties ∧ k ≠ "metadata" ∧
      k ∉ trustedProperties := by decide
  obtain ⟨hint, hmeta, hclient⟩ := hdisjoint k hk
  exact ⟨fun _ => ⟨s, rfl⟩, fun h => absurd h hint, fun h => absurd h hmeta, hclient⟩

private theorem schemaTyped_num {k : String} (hk : k ∈ "timestamp" :: intProperties) (n : ℤ) :
    SchemaTyped k (.num n) := by
  have hdisjoint : ∀ k ∈ "timestamp" :: intProperties, k ∉ textProperties ∧ k ≠ "metadata" ∧
      k ∉ trustedProperties := by decide
  obtain ⟨htext, hmeta, hclient⟩ := hdisjoint k hk
  exact ⟨fun h => absurd h htext, fun _ => ⟨n, rfl⟩, fun h => absurd h hmeta, hclient⟩

private theorem schemaTyped_metadata (metadata : List (String × String)) :
    SchemaTyped "metadata" (IngestEvent.metadataJson metadata) := by
  refine ⟨fun h => absurd h (by decide), fun h => absurd h (by decide), fun _ => ⟨_, rfl, ?_⟩,
    by decide⟩
  intro p hp
  obtain ⟨q, -, rfl⟩ := List.mem_map.mp hp
  exact ⟨q.2, rfl⟩

/-- The values of a dumped event have the types of the schema. -/
theorem modelDump_types (e : IngestEvent) {k : String} {v : Json}
    (h : e.modelDump.get k = some v) : SchemaTyped k v := by
  have hmem := Dict.mem_of_get h
  simp only [IngestEvent.modelDump, List.mem_append, List.mem_cons, Prod.mk.injEq, Dict.mem_opt,
    Option.map_eq_some_iff, List.not_mem_nil, or_false] at hmem
  rcases hmem with (⟨rfl, rfl⟩ | ⟨rfl, rfl⟩ | ⟨rfl, rfl⟩ | ⟨rfl, rfl⟩ | ⟨rfl, rfl⟩ | ⟨rfl, rfl⟩ |
    ⟨rfl, rfl⟩ | ⟨rfl, rfl⟩ | ⟨rfl, rfl⟩) | ((((((((⟨rfl, s, -, rfl⟩ | ⟨rfl, s, -, rfl⟩) |
    ⟨rfl, s, -, rfl⟩) | ⟨rfl, s, -, rfl⟩) | ⟨rfl, s, -, rfl⟩) | ⟨rfl, rfl⟩) | ⟨rfl, s, -, rfl⟩) |
    ⟨rfl, n, -, rfl⟩) | ⟨rfl, m, -, rfl⟩)
  case inr.inr => exact schemaTyped_metadata m
  all_goals first
    | exact schemaTyped_text (by decide) _
    | exact schemaTyped_num (by decide) _

/-- What an admitted payload binds: its texts and numbers are the event's own. -/
theorem payload_wellTyped (hget : ∀ j, payload.get j =
      if j = "eventId" then some (.str a.eventId)
      else if j = "timestamp" then some (.num a.timestamp)
      else a.event.modelDump.get j) : WellTyped payload := by
  constructor
  case texts =>
    intro k hk v hv
    rw [hget] at hv
    split_ifs at hv with hid hts
    · exact ⟨_, (Option.some.inj hv).symm⟩
    · rw [hts] at hk
      simp [textProperties] at hk
    · exact (modelDump_types a.event hv).text hk
  case ints =>
    intro k hk v hv
    rw [hget] at hv
    split_ifs at hv with hid hts
    · rw [hid] at hk
      simp [intProperties] at hk
    · exact ⟨_, (Option.some.inj hv).symm⟩
    · exact (modelDump_types a.event hv).int hk
  case timestamp =>
    intro v hv
    rw [hget, if_neg (by decide), if_pos rfl] at hv
    exact ⟨_, (Option.some.inj hv).symm⟩
  case metadata =>
    intro v hv
    rw [hget, if_neg (by decide), if_neg (by decide)] at hv
    exact (modelDump_types a.event hv).metadata rfl
  case trusted =>
    intro k hk
    rw [hget]
    split_ifs with hid hts
    · rw [hid] at hk
      simp [trustedProperties] at hk
    · rw [hts] at hk
      simp [trustedProperties] at hk
    · cases hv : a.event.modelDump.get k with
      | none => rfl
      | some v => exact absurd hk (modelDump_types a.event hv).client

theorem bean_fields (hget : ∀ j, payload.get j =
      if j = "eventId" then some (.str a.eventId)
      else if j = "timestamp" then some (.num a.timestamp)
      else a.event.modelDump.get j) :
    payload.get "customerId" = some (.str a.event.customerId) ∧
    textAt payload "eventId" = some a.eventId ∧
    textAt payload "modelId" = some a.event.modelId ∧
    numAt payload "timestamp" = a.timestamp ∧
    numAt payload "inputTokens" = a.event.inputTokens ∧
    numAt payload "outputTokens" = a.event.outputTokens ∧
    numAt payload "cacheReadTokens" = a.event.cacheReadTokens ∧
    numAt payload "cacheWriteTokens" = a.event.cacheWriteTokens ∧
    numAt payload "reasoningTokens" = a.event.reasoningTokens ∧
    numAt payload "embeddingTokens" = a.event.embeddingTokens ∧
    numAt payload "latencyMs" = a.event.latencyMs := by
  unfold textAt numAt
  simp only [hget]
  simp [IngestEvent.modelDump, Dict.get_append, Dict.get_cons, Dict.get_opt]

/-- An accepted event is decoded as itself exactly when its texts are non-blank and its numbers
fit, and the envelope is within the reader's limits. -/
theorem billedAs_iff (py : Python) (T : JsonText) (D : Databind) {a : Admission} {fields : Dict}
    (clock : ℤ) (hreceived : isLong a.receivedAt) (haccepted : a.envelope py = some fields) :
    a.BilledAs (deserialize T D (T.dumps (.obj fields)) clock) ↔
      a.Decodable ∧ T.Fits (.obj fields) := by
  unfold envelope at haccepted
  split at haccepted
  · simp at haccepted
  next payload hash hprepare =>
    split at haccepted
    · simp at haccepted
    next timestamp hts =>
      split_ifs at haccepted with hsuspicious
      have hget := preparePayload_get hprepare
      have hwell := payload_wellTyped hget
      obtain ⟨hcustomer, hid, hmodel, htime, hin, hout, hread, hwrite, hreason, hembed, hlat⟩ :=
        bean_fields hget
      constructor
      case mp =>
        intro hbilled
        obtain ⟨hfits, hrange, hblank, hidok, hmodelok⟩ := checks_of_ok hwell hcustomer haccepted
          hbilled.sound
        rw [deserialize_ok hfits hwell hrange hcustomer hblank hidok hmodelok haccepted] at hbilled
        obtain ⟨htenant, hkey⟩ := withTrusted_auth (D := D) hcustomer haccepted (bean payload)
        have hints := hrange.ints
        simp only [intProperties, List.forall_mem_cons] at hints
        rw [hin, hout, hread, hwrite, hreason, hembed, hlat] at hints
        obtain ⟨h₁, h₂, h₃, h₄, h₅, h₆, h₇, -⟩ := hints
        refine ⟨⟨hblank, ?_, ?_, ?_, ?_, ⟨h₁, h₂, h₃, h₄, h₅, h₆⟩, h₇, ?_⟩, hfits⟩
        · rw [hmodel] at hmodelok
          exact hmodelok
        · rw [hid] at hidok
          exact hidok
        · exact (trustedText_eq_iff _).mp (htenant.symm.trans hbilled.tenantId)
        · exact (trustedText_eq_iff _).mp (hkey.symm.trans hbilled.apiKeyId)
        · rw [← htime]
          exact hrange.timestamp
      case mpr =>
        rintro ⟨hdec, hfits⟩
        obtain ⟨h₁, h₂, h₃, h₄, h₅, h₆⟩ := hdec.tokens
        have hrange : InRange payload := by
          constructor
          case ints =>
            simp only [intProperties, List.forall_mem_cons]
            rw [hin, hout, hread, hwrite, hreason, hembed, hlat]
            exact ⟨h₁, h₂, h₃, h₄, h₅, h₆, hdec.latencyMs, by simp⟩
          case timestamp =>
            rw [htime]
            exact hdec.timestamp
        rw [deserialize_ok hfits hwell hrange hcustomer hdec.customerId
          (by rw [hid]; exact hdec.eventId) (by rw [hmodel]; exact hdec.modelId) haccepted]
        obtain ⟨htenant, hkey⟩ := withTrusted_auth (D := D) hcustomer haccepted (bean payload)
        constructor
        case sound => rfl
        case eventId => exact hid
        case customerId => rfl
        case modelId => exact hmodel
        case timestamp =>
          exact (withTrusted_timestamp (by simp) hcustomer haccepted (bean payload)).trans htime
        case tokens => exact ⟨hin, hout, hread, hwrite, hreason, hembed⟩
        case tenantId => exact htenant.trans ((trustedText_eq_iff _).mpr hdec.tenantId)
        case apiKeyId => exact hkey.trans ((trustedText_eq_iff _).mpr hdec.apiKeyId)
        case receivedAt => exact withTrusted_receivedAt hreceived hcustomer haccepted _

/-- An admitted event that reports only input tokens. -/
def inputOnly (inputTokens : ℤ) : Admission where
  event := { customerId := "acme", modelId := "gpt", inputTokens, eventId := some "e1" }
  newEventId := "u"
  tenantId := some "t"
  apiKeyId := none
  clock := 1000
  receivedAt := 1000
  traceId := "trace"

theorem billedAs_inputOnly :
    ∃ fields, (inputOnly 12).envelope .ofEventId = some fields ∧
      (inputOnly 12).BilledAs
        (deserialize .tree .fieldwise (JsonText.tree.dumps (.obj fields)) 0) := by
  refine ⟨_, rfl, (billedAs_iff .ofEventId .tree .fieldwise 0 (by decide) rfl).mpr
    ⟨⟨by decide, by decide, by decide, by decide, by decide, ?_, by decide, by decide⟩, trivial⟩⟩
  exact ⟨by decide, by decide, by decide, by decide, by decide, by decide⟩

/-- A count of 2^31 input tokens is accepted and published, and decoded as malformed. -/
theorem overflow_not_billed :
    ∃ fields, (inputOnly (2 ^ 31)).envelope .ofEventId = some fields ∧
      (deserialize .tree .fieldwise (JsonText.tree.dumps (.obj fields)) 0).malformedEnvelope =
        true ∧
      ¬ (inputOnly (2 ^ 31)).BilledAs
        (deserialize .tree .fieldwise (JsonText.tree.dumps (.obj fields)) 0) := by
  refine ⟨_, rfl, by decide +kernel, fun h => ?_⟩
  have hsound := h.sound
  revert hsound
  decide +kernel

end Admission

end FluxMeter.Job
