import FluxMeter.Wire.Json

/-! The payload and the envelope of one event, as `ingestion.py` prepares them before it touches
the identity store. A function that raises returns `none`. -/
namespace FluxMeter.Custody
open FluxMeter.Wire

/-- The truth value of a Python object. -/
def truthy : Json → Bool
  | .null => false
  | .bool b => b
  | .num n => n ≠ 0
  | .float q => q ≠ 0
  | .str s => s ≠ ""
  | .arr items => !items.isEmpty
  | .obj fields => !fields.isEmpty

/-- `if value` for an optional text. -/
def given : Option String → Bool
  | some s => s ≠ ""
  | none => false

/-- `tenant_id or "default"`. -/
def tenantOrDefault (tenantId : Option String) : String :=
  if given tenantId then tenantId.getD "" else "default"

/-- What the Python runtime does with values: `str` and `int` of one (`none` when it raises), the
canonical encoding of a payload with its tenant (`json.dumps` with sorted keys), and SHA-256 as a
hexadecimal text. -/
structure Python where
  str : Json → String
  str_str : ∀ s, str (.str s) = s
  int : Json → Option ℤ
  int_num : ∀ n, int (.num n) = some n
  canonical : Dict → String → String
  sha256 : String → String

/-- `canonical_payload_hash`. -/
def Python.canonicalPayloadHash (py : Python) (payload : Dict) (tenantId : Option String) :
    String :=
  py.sha256 (py.canonical payload (tenantOrDefault tenantId))

/-- A runtime that encodes a payload as its event id and hashes a text to itself; `str` and `int`
are those of texts and integers. -/
def Python.ofEventId : Python where
  str v := match v with
    | .str s => s
    | _ => ""
  str_str _ := rfl
  int v := match v with
    | .num n => some n
    | _ => none
  int_num _ := rfl
  canonical payload _ := match payload.get "eventId" with
    | some (.str s) => s
    | _ => ""
  sha256 s := s

def resolveCustodyEventId (py : Python) (eventDict : Dict) (reservationId : Option String) :
    Option String :=
  if given reservationId then some ("res:" ++ reservationId.getD "")
  else
    match eventDict.get "eventId" with
    | some existing => if truthy existing then some (py.str existing) else none
    | none => none

/-- The payload with its event id and timestamp, and the fingerprint taken before the clock. -/
def preparePayload (py : Python) (eventDict : Dict) (tenantId reservationId : Option String)
    (clock : ℤ) : Option (Dict × String) :=
  (resolveCustodyEventId py eventDict reservationId).map fun eventId =>
    let payload := Dict.set eventDict "eventId" (.str eventId)
    let payloadHash := py.canonicalPayloadHash payload tenantId
    (if (payload.get "timestamp").isNone then Dict.set payload "timestamp" (.num clock) else payload,
      payloadHash)

def suspiciousTime (timestampMs receivedAt maxAge maxFuture : ℤ) : Bool :=
  timestampMs < receivedAt - maxAge * 1000 || receivedAt + maxFuture * 1000 < timestampMs

/-- `int(payload["timestamp"])`. -/
def timestampOf (py : Python) (payload : Dict) : Option ℤ := (payload.get "timestamp").bind py.int

structure EnvelopeArgs where
  tenantId : Option String
  apiKeyId : Option String
  receivedAt : ℤ
  source : String := "http"
  traceId : String
  reservationId : Option String := none
  reservedUsd : ℚ := 0

/-- `trusted_envelope`; a payload without a customer raises. -/
def trustedEnvelope (payload : Dict) (a : EnvelopeArgs) : Option Dict :=
  (payload.get "customerId").map fun customerId =>
    [("envelopeVersion", .num 1), ("source", .str a.source), ("payload", .obj payload),
      ("auth", .obj [("tenantId", Json.ofOption a.tenantId), ("customerId", customerId),
        ("apiKeyId", Json.ofOption a.apiKeyId)]),
      ("receipt", .obj [("receivedAt", .num a.receivedAt), ("traceId", .str a.traceId)])] ++
    Dict.opt "reservation"
      (if given a.reservationId then
        some (.obj [("reservationId", Json.ofOption a.reservationId),
          ("reservedUsd", .float (max 0 a.reservedUsd))])
      else none)

end FluxMeter.Custody
