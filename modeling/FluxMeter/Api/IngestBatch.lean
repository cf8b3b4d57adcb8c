import FluxMeter.Api.Auth
import FluxMeter.Api.EventModel
import FluxMeter.Custody.BatchVerdicts

/-! `POST /ingest/batch`: the checks of each item, Custody for the items that pass them, and the
answer that puts both back into the order of the request. -/
namespace FluxMeter.Api
open FluxMeter.Custody FluxMeter.Wire

/-! ### Results -/

inductive ItemStatus
  | custody (status : Status)
  | failed
  | rejected
  deriving DecidableEq

/-- The dict of one item in `results`. -/
structure ItemResult where
  eventId : String
  status : ItemStatus
  idempotent : Option Bool := none
  retryable : Option Bool := none
  message : Option String := none
  deriving DecidableEq

namespace ItemResult

def ofCustody (r : Result) : ItemResult :=
  { eventId := r.eventId, status := .custody r.status, idempotent := r.idempotent,
    retryable := r.retryable }

/-- An item that is not handed to Custody. -/
def rejection (eventId message : String) : ItemResult :=
  { eventId, status := .rejected, retryable := some false, message := some message }

/-- An item of a call of Custody that Redis failed. -/
def failure (eventId : String) : ItemResult := { eventId, status := .failed, retryable := some true }

/-- `unavailable` and `uncertain` are called `failed`. -/
def renamed (x : ItemResult) : ItemResult :=
  if x.status = .custody .unavailable ∨ x.status = .custody .uncertain then
    { x with status := .failed }
  else x

/-- What counts as accepted: accepted, quarantined or an idempotent replay. -/
def isAccepted (x : ItemResult) : Bool :=
  x.status = .custody .accepted || x.status = .custody .quarantined || x.idempotent = some true

end ItemResult

structure BatchResponse where
  statusCode : ℕ
  status : String
  results : List ItemResult
  /-- `Retry-After` -/
  retryAfter : Option String := none

inductive BatchAnswer
  | answered (response : BatchResponse)
  /-- The body or the request is refused as a whole. -/
  | refused (statusCode : ℕ)
  /-- An exception that nothing handles. -/
  | raised

/-- The answer to the results of all items. -/
def BatchResponse.ofResults (results : List ItemResult) : BatchResponse :=
  let accepted := results.countP ItemResult.isAccepted
  let failed := results.countP fun x => !x.isAccepted
  let conflicts := results.countP fun x => !x.isAccepted && x.status = .custody .conflict
  let rejected := results.countP fun x => !x.isAccepted && x.status = .rejected
  let overloaded := results.countP fun x => !x.isAccepted && x.status = .custody .overloaded
  if failed = 0 then { statusCode := 202, status := "accepted", results }
  else if accepted = 0 then
    if conflicts = failed then { statusCode := 409, status := "conflict", results }
    else if rejected = failed then { statusCode := 207, status := "rejected", results }
    else if overloaded = failed then
      { statusCode := 429, status := "overloaded", results, retryAfter := some "1" }
    else { statusCode := 503, status := "failed", results, retryAfter := some "1" }
  else { statusCode := 207, status := "partial", results }

/-! ### The request -/

/-- What the server is configured with. -/
structure Server where
  pydantic : Pydantic
  py : Python
  auth : AuthConfig
  keys : KeyStore
  allowedDims : List String
  settings : IdentitySettings
  config : CustodyConfig

/-- What a request meets outside: a fresh id, the clocks and a trace id for each place of its body,
the producer and the replies to its pipelines. -/
structure Outside where
  uuid : ℕ → String
  uuid_ne : ∀ i, uuid i ≠ ""
  prepareClock : ℕ → ℤ
  receivedClock : ℕ → ℤ
  traceId : ℕ → String
  claimClock : ℤ
  claimsRaise : Bool := false
  broker : Broker
  rememberClock : ℕ → ℤ
  rememberReply : ℕ → Reply
  markClock : ℤ
  markReply : Reply
  releaseRaises : Bool := false

namespace Outside
variable (o : Outside)

/-- The same for the item at one place alone. -/
def alone (i : ℕ) : Outside :=
  { o with
    uuid := fun _ => o.uuid i
    uuid_ne := fun _ => o.uuid_ne i
    prepareClock := fun _ => o.prepareClock i
    receivedClock := fun _ => o.receivedClock i
    traceId := fun _ => o.traceId i }

/-- What Custody reads for the events at some places of the body. -/
def surroundings (places : List ℕ) : Surroundings where
  prepareClock j := o.prepareClock (places.getD j 0)
  claimClock := o.claimClock
  receivedClock j := o.receivedClock (places.getD j 0)
  traceId j := o.traceId (places.getD j 0)
  broker := o.broker.publication
  rememberClock := o.rememberClock
  rememberReply := o.rememberReply
  markClock := o.markClock
  markReply := o.markReply

end Outside

namespace Server
variable (S : Server) (o : Outside) (provided : Option String)

/-- `str(raw_event.get("eventId") or uuid.uuid4())`. -/
def rawEventId (uuid : String) (raw : Dict) : String :=
  match raw.get "eventId" with
  | some value => if truthy value then S.py.str value else uuid
  | none => uuid

/-- The body of the loop over the items: the event that goes to Custody, or the rejection. -/
def screen (uuid : String) (raw : Dict) : Except ItemResult Dict :=
  match S.pydantic.modelValidate raw with
  | .error message => .error (.rejection (S.rawEventId uuid raw) message)
  | .ok event =>
    let eventId := if given event.eventId then event.eventId.getD "" else uuid
    match requireCustomerAccess S.auth S.py.sha256 S.keys provided event.customerId with
    | some _ => .error (.rejection eventId "API key not authorized for this customer")
    | none =>
      match validateMetadata S.allowedDims event.metadata with
      | .error message => .error (.rejection eventId message)
      | .ok _ => .ok (event.eventDict eventId)

/-- The items, screened, with their places. -/
def screened (items : List Dict) : List (ℕ × Except ItemResult Dict) :=
  items.zipIdx.map fun p => (p.2, S.screen provided (o.uuid p.2) p.1)

/-- `prepared`, with `prepared_indices`. -/
def prepared (items : List Dict) : List (ℕ × Dict) :=
  (S.screened o provided items).filterMap fun p => p.2.toOption.map fun event => (p.1, event)

/-- `TokenEventCustody(...)` with the context of the key. -/
def custody : TokenEventCustody where
  py := S.py
  settings := S.settings
  tenantId := resolveTenantFromKey S.py.sha256 S.keys provided
  config := S.config
  apiKeyId := (resolveKeyContext S.py.sha256 S.keys provided).2

/-- `custody_results`; none where an exception escapes. -/
def custodyResults (prepared : List (ℕ × Dict)) (s : IdentityStore) : Option (List ItemResult) :=
  if prepared = [] then some []
  else
    match (S.custody provided).acceptManyReplied (o.surroundings (prepared.map Prod.fst)) o.claimsRaise
      o.releaseRaises (prepared.map Prod.snd) s with
    | .returned results => some (results.map .ofCustody)
    | .redisError => some (prepared.map fun p => .failure (eventIdOf p.2))
    | .raised => none

/-- `merged[index]`: the result of Custody for the place, or its rejection. -/
def merged (screened : List (ℕ × Except ItemResult Dict)) (custody : List (ℕ × ItemResult)) (i : ℕ) :
    Option ItemResult :=
  match custody.lookup i with
  | some x => some x
  | none =>
    match screened.lookup i with
    | some (.error x) => some x
    | _ => none

/-- `final_results`, with the names of the wire format. -/
def finalResults (items : List Dict) (custody : List ItemResult) : List ItemResult :=
  ((List.range items.length).filterMap
    (merged (S.screened o provided items)
      (((S.prepared o provided items).map Prod.fst).zip custody))).map .renamed

/-- `ingest_batch` of a list of JSON objects. -/
def ingestItems (items : List Dict) (s : IdentityStore) : BatchAnswer :=
  match requireApiKey S.auth S.py.sha256 S.keys provided with
  | some status => .refused status
  | none =>
    if 1000 < items.length then .refused 400
    else
      match S.custodyResults o provided (S.prepared o provided items) s with
      | none => .raised
      | some custody => .answered (.ofResults (S.finalResults o provided items custody))

/-- An item of the declared type `list[dict]`. -/
def asDict : Json → Option Dict
  | .obj fields => some fields
  | _ => none

/-- `POST /ingest/batch`: a body that is no list of objects is refused before the call. -/
def ingestBatch (body : List Json) (s : IdentityStore) : BatchAnswer :=
  match body.mapM asDict with
  | none => .refused 422
  | some items => S.ingestItems o provided items s

end Server

end FluxMeter.Api
