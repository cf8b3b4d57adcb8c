import FluxMeter.Custody.IdentityStore
import FluxMeter.Custody.Publication

/-! `TokenEventCustody.accept` of one event (`_accept_impl` without the gateway's outbox), and the
parts that `accept_many` shares with it. -/
namespace FluxMeter.Custody
open FluxMeter.Wire

structure CustodyConfig where
  topic : String
  quarantineTopic : String
  maxAgeSeconds : ℤ := 24 * 60 * 60
  maxFutureSeconds : ℤ := 5 * 60

/-- The statuses of `_accept_impl` and `_accept_many_impl`, without `buffered` of the outbox. -/
inductive Status
  | accepted
  | quarantined
  | pending
  | uncertain
  | conflict
  | overloaded
  | unavailable
  deriving DecidableEq

structure Result where
  eventId : String
  status : Status
  idempotent : Option Bool := none
  retryable : Option Bool := none
  deriving DecidableEq

/-- The custody with the context of a call. -/
structure TokenEventCustody extends IdentityContext where
  config : CustodyConfig
  apiKeyId : Option String := none
  source : String := "http"
  reservationId : Option String := none
  reservedUsd : ℚ := 0

/-- What is told of an identity that the call does not own. -/
def claimResult (eventId : String) : Claim → Option Result
  | .owner => none
  | .same => some { eventId, status := .accepted, idempotent := some true }
  | .pending => some { eventId, status := .pending, retryable := some true }
  | .uncertain => some { eventId, status := .uncertain, retryable := some true }
  | .conflict => some { eventId, status := .conflict, retryable := some false }

/-- What is told of a message that was not published. -/
def errorResult (eventId : String) : PublishError → Result
  | .overloaded => { eventId, status := .overloaded, retryable := some true }
  | .uncertain => { eventId, status := .uncertain, retryable := some true }
  | .unavailable => { eventId, status := .unavailable, retryable := some true }

theorem claimResult_eq_none {eventId : String} {claim : Claim} :
    claimResult eventId claim = none ↔ claim = .owner := by
  cases claim <;> simp [claimResult]

theorem eventId_claimResult {eventId : String} {claim : Claim} {r : Result}
    (h : claimResult eventId claim = some r) : r.eventId = eventId := by
  cases claim with
  | owner => cases h
  | same => rw [← Option.some.inj h]
  | pending => rw [← Option.some.inj h]
  | uncertain => rw [← Option.some.inj h]
  | conflict => rw [← Option.some.inj h]

theorem same_of_claimResult {eventId : String} {claim : Claim} {r : Result}
    (h : claimResult eventId claim = some r)
    (hstatus : r.status = .accepted ∨ r.status = .quarantined) : claim = .same := by
  cases claim with
  | owner => cases h
  | same => rfl
  | pending => rw [← Option.some.inj h] at hstatus; simp at hstatus
  | uncertain => rw [← Option.some.inj h] at hstatus; simp at hstatus
  | conflict => rw [← Option.some.inj h] at hstatus; simp at hstatus

theorem errorResult_facts (eventId : String) (e : PublishError) :
    (errorResult eventId e).eventId = eventId ∧ (errorResult eventId e).status ≠ .accepted ∧
      (errorResult eventId e).status ≠ .quarantined := by
  cases e <;> simp [errorResult]

/-- `payload["eventId"]` of a prepared payload. -/
def eventIdOf (payload : Dict) : String :=
  match payload.get "eventId" with
  | some (.str eventId) => eventId
  | _ => ""

structure Prepared where
  index : ℕ
  payload : Dict
  payloadHash : String

def Prepared.eventId (p : Prepared) : String := eventIdOf p.payload

def Prepared.identity (p : Prepared) : String × String := (p.eventId, p.payloadHash)

/-- An event whose identity the call has claimed, with its envelope. -/
structure Owned extends Prepared where
  suspicious : Bool
  envelope : Dict

/-- What a call reads of the outside: its clocks (milliseconds for the places of its events, seconds
for the scripts), its trace ids, the fate of its messages and the replies to its pipelines after the
publication. -/
structure Surroundings where
  prepareClock : ℕ → ℤ
  claimClock : ℤ
  receivedClock : ℕ → ℤ
  traceId : ℕ → String
  broker : (messages : List Message) → Publication messages
  rememberClock : ℕ → ℤ
  rememberReply : ℕ → Reply
  markClock : ℤ
  markReply : Reply

inductive Ending (ρ : Type*)
  | returned (results : ρ)
  | raised
  deriving DecidableEq

/-- The store and the messages that a call leaves, and what it returns. -/
structure AcceptCall (ρ : Type*) where
  store : IdentityStore
  produced : List Message := []
  acked : List Message := []
  ending : Ending ρ

namespace TokenEventCustody
variable (C : TokenEventCustody) (w : Surroundings)

/-- `_prepare_payload` of the event at a place. -/
def prepare (index : ℕ) (event : Dict) : Option Prepared :=
  (preparePayload C.py event C.tenantId C.reservationId (w.prepareClock index)).map fun r =>
    { index, payload := r.1, payloadHash := r.2 }

/-- The envelope of a claimed event, and whether it goes to quarantine. -/
def own (p : Prepared) : Option Owned := do
  let timestamp ← timestampOf C.py p.payload
  let receivedAt := w.receivedClock p.index
  let suspicious := suspiciousTime timestamp receivedAt C.config.maxAgeSeconds C.config.maxFutureSeconds
  let envelope ← trustedEnvelope p.payload
    { tenantId := C.tenantId, apiKeyId := C.apiKeyId, receivedAt, source := C.source,
      traceId := w.traceId p.index, reservationId := C.reservationId, reservedUsd := C.reservedUsd }
  return {
    toPrepared := p
    suspicious
    envelope := if suspicious then
      Dict.set envelope "quarantine" (.obj [("reason", .str "event_time_out_of_range")])
    else envelope }

def topicOf (o : Owned) : String :=
  if o.suspicious then C.config.quarantineTopic else C.config.topic

def statusOf (o : Owned) : Status := if o.suspicious then .quarantined else .accepted

/-- The message of `accept`, whose key is `str(payload["customerId"])`. -/
def messageOf (o : Owned) : Option Message :=
  (o.payload.get "customerId").map fun customerId =>
    { topic := C.topicOf o, key := C.py.str customerId, envelope := o.envelope }

def remember (identities : List (String × String)) (s : IdentityStore) : IdentityStore × Bool :=
  C.rememberEventIdentities w.rememberClock w.rememberReply identities s

def mark (identities : List (String × String)) (s : IdentityStore) : IdentityStore :=
  C.markEventIdentitiesUncertain w.markClock w.markReply identities s

/-- `accept` after `publish_with_ack`. -/
def afterPublish (o : Owned) (outcome : Option PublishError) (s : IdentityStore) :
    IdentityStore × Result :=
  match outcome with
  | some .uncertain => (C.mark w [o.identity] s, errorResult o.eventId .uncertain)
  | some error => (C.releaseEventIdentities [o.identity] s, errorResult o.eventId error)
  | none =>
    let r := C.remember w [o.identity] s
    if r.2 then (r.1, { eventId := o.eventId, status := statusOf o, idempotent := some false })
    else (C.mark w [o.identity] r.1, errorResult o.eventId .uncertain)

/-- `accept`, at a place of the clocks. -/
def accept (index : ℕ) (event : Dict) (s : IdentityStore) : AcceptCall Result :=
  match C.prepare w index event with
  | none => { store := s, ending := .raised }
  | some p =>
    let claimed := C.eventIdentityStatusBatch w.claimClock [p.identity] s
    match claimed.2.head?.bind (claimResult p.eventId) with
    | some result => { store := claimed.1, ending := .returned result }
    | none =>
      match (C.own w p).bind fun o => (C.messageOf o).map fun m => (o, m) with
      | none => { store := claimed.1, ending := .raised }
      | some (o, m) =>
        let publication := w.broker [m]
        let r := C.afterPublish w o (publication.outcomes.headD none) claimed.1
        { store := r.1, produced := publication.produced, acked := publication.acked,
          ending := .returned r.2 }

end TokenEventCustody

end FluxMeter.Custody
