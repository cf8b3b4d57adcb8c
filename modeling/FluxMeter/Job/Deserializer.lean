import FluxMeter.Model.TokenEvent
import FluxMeter.Wire.Json

/-! `TokenEventDeserializer`. The JSON text layer and the Jackson calls are parameters with the
documented behaviour that the deserializer relies on. -/
namespace FluxMeter.Job
open FluxMeter.Keys FluxMeter.Model FluxMeter.Wire

/-- `json.dumps(value).encode()` on the producing side and `ObjectMapper.readTree` on the
consuming one, which refuses documents beyond its size limits. -/
structure JsonText where
  Bytes : Type
  dumps : Json → Bytes
  readTree : Bytes → Option Json
  /-- `new String(bytes, UTF_8)`. -/
  decode : Bytes → String
  Fits : Json → Prop
  reads : ∀ v, Fits v → readTree (dumps v) = some v
  refuses : ∀ v, ¬ Fits v → readTree (dumps v) = none

def isInt (n : ℤ) : Prop := -(2 ^ 31) ≤ n ∧ n < 2 ^ 31

def isLong (n : ℤ) : Prop := -(2 ^ 63) ≤ n ∧ n < 2 ^ 63

instance (n : ℤ) : Decidable (isInt n) := inferInstanceAs (Decidable (_ ∧ _))
instance (n : ℤ) : Decidable (isLong n) := inferInstanceAs (Decidable (_ ∧ _))

/-- The `String` properties of the bean that a client payload may carry. -/
def textProperties : List String :=
  ["eventId", "customerId", "requestId", "spanId", "parentSpanId", "provider", "modelId",
    "sessionId", "environment"]

/-- The `int` properties of the bean. -/
def intProperties : List String :=
  ["inputTokens", "outputTokens", "cacheReadTokens", "cacheWriteTokens", "reasoningTokens",
    "embeddingTokens", "latencyMs"]

/-- The properties that only the trusted envelope sets. -/
def trustedProperties : List String :=
  ["tenantId", "apiKeyId", "ingestSource", "ingestTraceId", "reservationId", "reservedUsd",
    "receivedAt", "malformedEnvelope", "rawEnvelope", "authorizedReplay"]

def textAt (payload : Dict) (field : String) : Option String :=
  match payload.get field with
  | some (.str s) => some s
  | _ => none

def numAt (payload : Dict) (field : String) : ℤ :=
  match payload.get field with
  | some (.num n) => n
  | _ => 0

/-- A text value of a string map; no other value occurs in a well-typed payload. -/
def textOf : Json → String
  | .str s => s
  | _ => ""

def metadataAt (payload : Dict) : Option (List (String × String)) :=
  match payload.get "metadata" with
  | some (.obj fields) => some (fields.map fun p => (p.1, textOf p.2))
  | _ => none

/-- The event a well-typed payload binds to. -/
def bean (payload : Dict) : TokenEvent where
  eventId := textAt payload "eventId"
  customerId := textAt payload "customerId"
  parentSpanId := textAt payload "parentSpanId"
  modelId := textAt payload "modelId"
  sessionId := textAt payload "sessionId"
  inputTokens := numAt payload "inputTokens"
  outputTokens := numAt payload "outputTokens"
  cacheReadTokens := numAt payload "cacheReadTokens"
  cacheWriteTokens := numAt payload "cacheWriteTokens"
  reasoningTokens := numAt payload "reasoningTokens"
  embeddingTokens := numAt payload "embeddingTokens"
  timestamp := numAt payload "timestamp"
  latencyMs := numAt payload "latencyMs"
  metadata := metadataAt payload

/-- A payload of the types that the event schema gives its fields; the numbers may have any
size. -/
structure WellTyped (payload : Dict) : Prop where
  texts : ∀ k ∈ textProperties, ∀ v, payload.get k = some v → ∃ s, v = .str s
  ints : ∀ k ∈ intProperties, ∀ v, payload.get k = some v → ∃ n, v = .num n
  timestamp : ∀ v, payload.get "timestamp" = some v → ∃ n, v = .num n
  metadata : ∀ v, payload.get "metadata" = some v →
    ∃ fields, v = .obj fields ∧ ∀ p ∈ fields, ∃ s, p.2 = .str s
  trusted : ∀ k ∈ trustedProperties, payload.get k = none

/-- Every number of the payload fits the field it is bound to. -/
structure InRange (payload : Dict) : Prop where
  ints : ∀ k ∈ intProperties, isInt (numAt payload k)
  timestamp : isLong (numAt payload "timestamp")

instance (payload : Dict) : Decidable (InRange payload) :=
  decidable_of_iff ((∀ k ∈ intProperties, isInt (numAt payload k)) ∧
    isLong (numAt payload "timestamp")) ⟨fun h => ⟨h.1, h.2⟩, fun h => ⟨h.ints, h.timestamp⟩⟩

/-- The Jackson calls: number access on a node, and `treeToValue`, which binds a well-typed
payload field by field and throws on a number that overflows its field. -/
structure Databind where
  asInt : Option Json → ℤ → ℤ
  asLong : Option Json → ℤ → ℤ
  asDouble : Option Json → ℚ → ℚ
  asBoolean : Option Json → Bool → Bool
  treeToValue : Dict → Option TokenEvent
  asInt_num : ∀ n d, isInt n → asInt (some (.num n)) d = n
  asLong_num : ∀ n d, isLong n → asLong (some (.num n)) d = n
  asDouble_missing : ∀ d, asDouble none d = d
  asBoolean_missing : ∀ d, asBoolean none d = d
  binds : ∀ payload, WellTyped payload → InRange payload →
    treeToValue payload = some (bean payload)
  overflows : ∀ payload, WellTyped payload → ¬ InRange payload → treeToValue payload = none

/-- Documents exchanged as trees, without a size limit. -/
def JsonText.tree : JsonText where
  Bytes := Json
  dumps := id
  readTree := some
  decode _ := ""
  Fits _ := True
  reads _ _ := rfl
  refuses _ h := absurd trivial h

/-- Numbers read as they are written, and payloads bound field by field. -/
def Databind.fieldwise : Databind where
  asInt node default := match node with
    | some (.num n) => wrap32 n
    | _ => default
  asLong node default := match node with
    | some (.num n) => wrap64 n
    | _ => default
  asDouble node default := match node with
    | some (.num n) => n
    | some (.float q) => q
    | _ => default
  asBoolean node default := match node with
    | some (.bool b) => b
    | _ => default
  treeToValue payload := if InRange payload then some (bean payload) else none
  asInt_num n _ h := by
    obtain ⟨hlo, hhi⟩ := h
    dsimp only
    unfold wrap32
    omega
  asLong_num n _ h := by
    obtain ⟨hlo, hhi⟩ := h
    dsimp only
    unfold wrap64
    omega
  asDouble_missing _ := rfl
  asBoolean_missing _ := rfl
  binds _ _ h := if_pos h
  overflows _ _ h := if_neg h

/-- `textOrNull`: a text that is not blank. -/
def textOrNull (node : Option Json) (field : String) : Option String :=
  match Json.path node field with
  | some (.str s) => if isBlank s then none else some s
  | _ => none

/-- `malformed`. -/
def malformed (raw : String) (clock : ℤ) : TokenEvent :=
  { malformedEnvelope := true, rawEnvelope := some raw, timestamp := clock }

/-- A field that is null or blank. -/
def missing (s : Option String) : Bool :=
  match s with
  | some s => isBlank s
  | none => true

/-- The trusted fields, copied from the envelope over the bound payload. -/
def withTrusted (D : Databind) (root : Option Json) (trustedCustomer : String) (e : TokenEvent) :
    TokenEvent :=
  let receivedAt := D.asLong (Json.path (Json.path root "receipt") "receivedAt") 0
  let source := textOrNull root "source"
  let authorizedReplay := source = some "operator" ∧
    D.asBoolean (Json.path (Json.path root "replay") "authorized") false
  { e with
    customerId := some trustedCustomer
    tenantId := textOrNull (Json.path root "auth") "tenantId"
    apiKeyId := textOrNull (Json.path root "auth") "apiKeyId"
    ingestSource := source
    receivedAt := receivedAt
    ingestTraceId := textOrNull (Json.path root "receipt") "traceId"
    reservationId := textOrNull (Json.path root "reservation") "reservationId"
    reservedUsd := D.asDouble (Json.path (Json.path root "reservation") "reservedUsd") 0
    authorizedReplay := authorizedReplay
    timestamp := if authorizedReplay ∧ 0 < receivedAt then receivedAt else e.timestamp }

/-- `TokenEventDeserializer.deserialize`. -/
def deserialize (T : JsonText) (D : Databind) (bytes : T.Bytes) (clock : ℤ) : TokenEvent :=
  match T.readTree bytes with
  | none => malformed (T.decode bytes) clock
  | some tree =>
    let root := some tree
    if D.asInt (Json.path root "envelopeVersion") (-1) ≠ 1 then malformed (T.decode bytes) clock
    else
      match Json.path root "payload" with
      | some (.obj payload) =>
        if !Json.isObject (Json.path root "auth") || !Json.isObject (Json.path root "receipt") then
          malformed (T.decode bytes) clock
        else
          match textOrNull (Json.path root "auth") "customerId" with
          | none => malformed (T.decode bytes) clock
          | some trustedCustomer =>
            match D.treeToValue payload with
            | none => malformed (T.decode bytes) clock
            | some e =>
              if missing e.eventId || missing e.modelId then malformed (T.decode bytes) clock
              else withTrusted D root trustedCustomer e
      | _ => malformed (T.decode bytes) clock

/-- The checks that an envelope has to pass, with the payload's own event. -/
structure Accepted (T : JsonText) (D : Databind) (bytes : T.Bytes) (tree : Json) (payload : Dict)
    (e : TokenEvent) : Prop where
  reads : T.readTree bytes = some tree
  version : D.asInt (Json.path (some tree) "envelopeVersion") (-1) = 1
  object : Json.path (some tree) "payload" = some (.obj payload)
  auth : Json.isObject (Json.path (some tree) "auth") = true
  receipt : Json.isObject (Json.path (some tree) "receipt") = true
  customer : textOrNull (Json.path (some tree) "auth") "customerId" ≠ none
  binds : D.treeToValue payload = some e
  eventId : missing e.eventId = false
  modelId : missing e.modelId = false

section Reading
variable {T : JsonText} {D : Databind} {bytes : T.Bytes} {tree : Json} {payload : Dict}
  {e : TokenEvent}

theorem deserialize_accepted (clock : ℤ) (h : Accepted T D bytes tree payload e) :
    ∃ c, textOrNull (Json.path (some tree) "auth") "customerId" = some c ∧
      deserialize T D bytes clock = withTrusted D (some tree) c e := by
  obtain ⟨c, hc⟩ := Option.ne_none_iff_exists'.mp h.customer
  refine ⟨c, hc, ?_⟩
  unfold deserialize
  rw [h.reads]
  dsimp only
  rw [if_neg (not_not.mpr h.version), h.object]
  dsimp only
  rw [h.auth, h.receipt, if_neg (by decide), hc]
  dsimp only
  rw [h.binds]
  dsimp only
  rw [h.eventId, h.modelId, if_neg (by decide)]

/-- Every other message is malformed. -/
theorem deserialize_cases (T : JsonText) (D : Databind) (bytes : T.Bytes) (clock : ℤ) :
    (∃ tree payload e, Accepted T D bytes tree payload e) ∨
      deserialize T D bytes clock = malformed (T.decode bytes) clock := by
  unfold deserialize
  split
  · exact Or.inr rfl
  · rename_i tree hreads
    dsimp only
    split
    · exact Or.inr rfl
    · rename_i hversion
      split
      · rename_i payload hpayload
        split
        · exact Or.inr rfl
        · rename_i hobjects
          split
          · exact Or.inr rfl
          · rename_i c hcustomer
            split
            · exact Or.inr rfl
            · rename_i e hbinds
              split
              · exact Or.inr rfl
              · rename_i hmissing
                rw [Bool.or_eq_true, not_or, Bool.not_eq_true, Bool.not_eq_true] at hmissing
                simp only [Bool.or_eq_true, Bool.not_eq_true', not_or, Bool.not_eq_false] at hobjects
                exact Or.inl ⟨tree, payload, e, hreads, not_not.mp hversion, hpayload, hobjects.1,
                  hobjects.2, by rw [hcustomer]; exact Option.some_ne_none c, hbinds, hmissing.1,
                  hmissing.2⟩
      · exact Or.inr rfl

end Reading

end FluxMeter.Job
