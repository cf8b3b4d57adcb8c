import FluxMeter.Custody.Accept

/-! `TokenEventCustody.accept_many`: the passes of `_accept_many_impl` over the positions of a batch.
The list `results` is a function of the position; `none` is a position without a result. -/
namespace FluxMeter.Custody
open Collections FluxMeter.Wire

abbrev Results := ℕ → Option Result

namespace Results

/-- `results[index] = own`, and a copy of `copied` for every alias of the index. -/
def answer (results : Results) (index : ℕ) (aliases : List ℕ) (own copied : Result) : Results :=
  aliases.foldl (fun r i => Function.update r i (some copied))
    (Function.update results index (some own))

end Results

/-- The first pass: the positions that stand for an event id, their aliases, and the conflicts. -/
structure Deduplicated where
  /-- `seen_in_batch` -/
  seen : Table String (String × ℕ) := Table.empty
  unique : List Prepared := []
  aliases : ℕ → List ℕ := fun _ => []
  results : Results := fun _ => none

namespace Deduplicated

def conflictResult (eventId : String) : Result :=
  { eventId, status := .conflict, retryable := some false }

def enter (d : Deduplicated) (p : Prepared) : Deduplicated :=
  match d.seen.get p.eventId with
  | none =>
    { d with
      seen := d.seen.set p.eventId (p.payloadHash, p.index)
      unique := d.unique ++ [p]
      aliases := Function.update d.aliases p.index [] }
  | some (payloadHash, first) =>
    if payloadHash = p.payloadHash then
      { d with aliases := Function.update d.aliases first (d.aliases first ++ [p.index]) }
    else
      { d with results := Function.update d.results p.index (some (conflictResult p.eventId)) }

def ofPrepared (prepared : List Prepared) : Deduplicated := prepared.foldl enter {}

/-- Answer a position with its aliases. -/
def answer (d : Deduplicated) (results : Results) (p : Prepared) (own copied : Result) : Results :=
  results.answer p.index (d.aliases p.index) own copied

end Deduplicated

/-- The second pass: what the claims answer, and the events that the call owns. -/
structure Claimed where
  results : Results
  owned : List Owned := []

/-- The third pass: what the outcomes of the publication answer. -/
structure Sorted where
  results : Results
  accepted : List Owned := []
  failed : List (String × String) := []
  uncertain : List (String × String) := []

/-- What `accept_many` ends with. -/
inductive BatchEnding
  | returned (results : List Result)
  | raised
  /-- `RuntimeError("batch custody left an event unresolved")` -/
  | unresolved
  deriving DecidableEq

structure BatchCall where
  store : IdentityStore
  produced : List Message := []
  acked : List Message := []
  ending : BatchEnding

namespace TokenEventCustody
variable (C : TokenEventCustody) (w : Surroundings)

/-- `accept_many` leaves the reservation of the context aside. -/
def withoutReservation : TokenEventCustody := { C with reservationId := none }

/-- `_prepare_payload` of every event. -/
def prepareAll (events : List Dict) : Option (List Prepared) :=
  events.zipIdx.mapM fun p => C.withoutReservation.prepare w p.2 p.1

def claimStep (d : Deduplicated) (b : Claimed) (p : Prepared × Claim) : Option Claimed :=
  match claimResult p.1.eventId p.2 with
  | some result => some { b with results := d.answer b.results p.1 result result }
  | none =>
    (C.withoutReservation.own w p.1).map fun o => { b with owned := b.owned ++ [o] }

/-- The messages of the owned events; a key is `payload["customerId"].encode()`. -/
def messagesOf (owned : List Owned) : Option (List Message) :=
  owned.mapM fun o =>
    match o.payload.get "customerId" with
    | some (.str customerId) =>
      some { topic := C.topicOf o, key := customerId, envelope := o.envelope }
    | _ => none

def sortStep (d : Deduplicated) (b : Sorted) (p : Owned × Option PublishError) : Sorted :=
  match p.2 with
  | none => { b with accepted := b.accepted ++ [p.1] }
  | some error =>
    let result := errorResult p.1.eventId error
    let results := d.answer b.results p.1.toPrepared result result
    if error = .uncertain then
      { b with results, uncertain := b.uncertain ++ [p.1.identity] }
    else { b with results, failed := b.failed ++ [p.1.identity] }

/-- What an acknowledged event is told, and its aliases. -/
def finalResult (finalized : Bool) (o : Owned) : Result × Result :=
  if finalized then
    ({ eventId := o.eventId, status := statusOf o, idempotent := some false },
      { eventId := o.eventId, status := statusOf o, idempotent := some true })
  else (errorResult o.eventId .uncertain, errorResult o.eventId .uncertain)

/-- The fourth pass, over the events that Kafka has acknowledged. -/
def finalizeStep (d : Deduplicated) (finalized : Bool) (results : Results) (o : Owned) : Results :=
  let r := finalResult finalized o
  d.answer results o.toPrepared r.1 r.2

/-- The list of results, if every position has one. -/
def endingOf (length : ℕ) (results : Results) : BatchEnding :=
  match (List.range length).mapM results with
  | some list => .returned list
  | none => .unresolved

/-- `accept_many` after the publication. -/
def settleBatch (d : Deduplicated) (c : Claimed) (outcomes : List (Option PublishError))
    (s : IdentityStore) : IdentityStore × Results :=
  let b := (c.owned.zip outcomes).foldl (sortStep d) { results := c.results }
  let identities := b.accepted.map fun o => o.identity
  let r := C.remember w identities s
  let results := b.accepted.foldl (finalizeStep d r.2) b.results
  let uncertain := if r.2 then b.uncertain else b.uncertain ++ identities
  (C.releaseEventIdentities b.failed (C.mark w uncertain r.1), results)

def acceptMany (events : List Dict) (s : IdentityStore) : BatchCall :=
  match C.prepareAll w events with
  | none => { store := s, ending := .raised }
  | some prepared =>
    let d := Deduplicated.ofPrepared prepared
    let claimed := C.eventIdentityStatusBatch w.claimClock (d.unique.map Prepared.identity) s
    match (d.unique.zip claimed.2).foldlM (C.claimStep w d) { results := d.results } with
    | none => { store := claimed.1, ending := .raised }
    | some c =>
      match C.messagesOf c.owned with
      | none => { store := claimed.1, ending := .raised }
      | some messages =>
        let publication := w.broker messages
        let r := C.settleBatch w d c publication.outcomes claimed.1
        { store := r.1, produced := publication.produced, acked := publication.acked,
          ending := endingOf events.length r.2 }

end TokenEventCustody

end FluxMeter.Custody
