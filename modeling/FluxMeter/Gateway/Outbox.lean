import FluxMeter.Collections.Table
import FluxMeter.Custody.Attempt
import FluxMeter.Wire.Json

/-! `gateway/outbox.py`: calls of `publish_envelope` and `flush_once`, each taking one Redis or Kafka
step at a time, in any order and with a crash between any two of them. -/
namespace FluxMeter.Gateway.Outbox
open Collections FluxMeter.Custody FluxMeter.Wire

/-! ### Envelopes and blobs -/

inductive PyError
  | keyError
  | typeError
  | valueError
  | attributeError
  deriving DecidableEq

/-- `value[key]`. -/
def item (value : Json) (key : String) : Except PyError Json :=
  match value with
  | .obj fields =>
    match Dict.get fields key with
    | some v => .ok v
    | none => .error .keyError
  | _ => .error .typeError

/-- `value.encode()`. -/
def encode (value : Json) : Except PyError String :=
  match value with
  | .str s => .ok s
  | _ => .error .attributeError

def payload (envelope : Json) : Except PyError Json := item envelope "payload"

/-- `envelope["payload"]["eventId"]`; custody makes it a text. -/
def eventId (envelope : Json) : Except PyError String := do
  encode (← item (← payload envelope) "eventId")

def customerId (envelope : Json) : Except PyError Json := do
  item (← item envelope "auth") "customerId"

/-- A text in Redis or in a Kafka message: `json.dumps` of a value, or no JSON. -/
inductive Blob
  | dumped (value : Json)
  | malformed (text : String)

/-- `json.loads`. -/
def loads : Blob → Except PyError Json
  | .dumped value => .ok value
  | .malformed _ => .error .valueError

/-! ### The shared state -/

inductive Delivery
  | inFlight
  | acked
  | refused
  deriving DecidableEq

structure Message where
  key : String
  value : Blob
  delivery : Delivery := .inFlight

/-- The blobs `gateway:outbox:event:{id}`, the sets `gateway:outbox:pending` and
`gateway:outbox:dead`, and the messages given to the producer. -/
structure Shared where
  blobs : Table String Blob := Table.empty
  pending : Table String ℤ := Table.empty
  dead : List (String × Blob) := []
  messages : List Message := []
  /-- The envelopes whose store step completed. -/
  stored : List (String × Json) := []

namespace Shared

def store (s : Shared) (eventId : String) (envelope : Json) (now : ℤ) : Shared :=
  { s with
    blobs := s.blobs.set eventId (.dumped envelope)
    pending := s.pending.set eventId now
    stored := (eventId, envelope) :: s.stored }

def remove (s : Shared) (eventId : String) : Shared :=
  { s with blobs := s.blobs.erase eventId, pending := s.pending.erase eventId }

/-- `zrange(PENDING_KEY, 0, 0)`. -/
def oldest (s : Shared) : Option String := (s.pending.rangeByScore (fun _ => true) 1).head?

end Shared

/-! ### Processes -/

/-- What a call of `publish_with_ack` is for. -/
structure Publication where
  eventId : String
  key : String
  value : Blob

/-- The next step of a call of `publish_envelope` or `flush_once`. The answer of a finished one is
`none` when an exception left it or the process crashed. -/
inductive Pc
  | storing (eventId : String) (customerId envelope : Json)
  | listing
  | reading (eventId : String)
  | dropping (eventId : String)
  | publishing (p : Publication)
  | awaiting (p : Publication) (message : ℕ)
  | burying (eventId : String) (raw : Blob)
  | removing (eventId : String)
  | finished (answer : Option Bool)

/-- `publish_envelope` up to its store step. -/
def publishEnvelope (envelope : Json) : Pc :=
  match eventId envelope, customerId envelope with
  | .ok id, .ok customer => .storing id customer envelope
  | _, _ => .finished none

/-- `flush_once` with what it read under the event id. -/
def flushBlob (eventId : String) : Option Blob → Pc
  | none | some (.malformed "") => .dropping eventId
  | some raw =>
    match (do encode (← customerId (← loads raw))) with
    | .ok key => .publishing ⟨eventId, key, raw⟩
    -- not among the exceptions that `flush_once` handles
    | .error .attributeError => .finished none
    | .error _ => .burying eventId raw

inductive Move
  | redis (now : ℤ)
  | produce (error : Option PublishError)
  | wake
  | timeout
  | crash

def redis (s : Shared) (now : ℤ) : Pc → Option (Shared × Pc)
  | .storing id customer envelope =>
    some (s.store id envelope now,
      match encode customer with
      | .ok key => .publishing ⟨id, key, .dumped envelope⟩
      | .error _ => .finished none)
  | .listing => some (s, (s.oldest.map Pc.reading).getD (.finished (some false)))
  | .reading id => some (s, flushBlob id (s.blobs.get id))
  | .dropping id => some ({ s with pending := s.pending.erase id }, .finished (some true))
  | .burying id raw => some ({ s with dead := s.dead ++ [(id, raw)] }, .removing id)
  | .removing id => some (s.remove id, .finished (some true))
  | _ => none

/-- `KafkaUnavailableError` is answered with `False`, `CustodyOverloadedError` is not handled. -/
def publishFailed : PublishError → Pc
  | .overloaded => .finished none
  | .unavailable | .uncertain => .finished (some false)

/-- One step of a process. A thread that is woken reads what its delivery callback was told. -/
def advance (s : Shared) : Move → Pc → Option (Shared × Pc)
  | .redis now, pc => redis s now pc
  | .produce none, .publishing p =>
    some ({ s with messages := s.messages ++ [{ key := p.key, value := p.value }] },
      .awaiting p s.messages.length)
  | .produce (some error), .publishing _ =>
    if error = .uncertain then none else some (s, publishFailed error)
  | .wake, .awaiting p i =>
    match s.messages[i]?.map Message.delivery with
    | some .acked => some (s, .removing p.eventId)
    | some .refused => some (s, publishFailed .unavailable)
    | _ => none
  | .timeout, .awaiting _ _ => some (s, publishFailed .uncertain)
  | .crash, .finished _ => none
  | .crash, _ => some (s, .finished none)
  | _, _ => none

/-- The outbox with the calls on it. -/
structure System where
  shared : Shared := {}
  processes : List Pc := []

inductive Event
  | publish (envelope : Json)
  | flush
  | move (process : ℕ) (m : Move)
  /-- The broker decides on a message, whoever still waits for it. -/
  | deliver (message : ℕ) (accepted : Bool)

def Message.settle (accepted : Bool) (m : Message) : Message :=
  { m with delivery := if accepted then .acked else .refused }

def step (w : System) : Event → Option System
  | .publish envelope => some { w with processes := w.processes ++ [publishEnvelope envelope] }
  | .flush => some { w with processes := w.processes ++ [.listing] }
  | .move i m => do
    let pc ← w.processes[i]?
    let (s, pc') ← advance w.shared m pc
    some { shared := s, processes := w.processes.set i pc' }
  | .deliver i accepted => do
    let m ← w.shared.messages[i]?
    if m.delivery = .inFlight then
      some { w with shared :=
        { w.shared with messages := w.shared.messages.set i (m.settle accepted) } }
    else none

end FluxMeter.Gateway.Outbox
