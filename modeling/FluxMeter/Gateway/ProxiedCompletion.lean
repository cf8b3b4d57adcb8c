import FluxMeter.Budget.Settlement
import FluxMeter.Custody.Payload

/-! The lifecycle of a chat completion in the gateway: `proxy.py` with `stream_guard.py` and
`ingest.py`. What the upstream does is an argument, as is the quote of the price catalog. Server-sent
events come as the blocks that the guard splits them into. -/
namespace FluxMeter.Gateway
open FluxMeter.Budget FluxMeter.Custody FluxMeter.Wire

/-- An admitted completion. Its reservation id is the text of a UUID. -/
structure ProxiedCompletion where
  customerId : String
  model : String
  parentSpanId : Option String := none
  sessionId : Option String := none
  keyId : Option String := none
  tenantId : Option String := none
  stream : Bool := false
  reservedUsd : ℚ
  reservationId : String
  reservationId_ne : reservationId ≠ ""

structure CustodyContext where
  tenantId : Option String
  apiKeyId : Option String
  source : String
  reservationId : Option String
  reservedUsd : ℚ

/-- What closes a reservation: `Reservation.settle`, or an event that is handed to
`TokenEventCustody.accept`. -/
inductive Closing
  | settle (reservationId : String)
  | custody (eventDict : Dict) (context : CustodyContext)

structure Progress where
  store : Redis
  closings : List Closing := []

namespace ProxiedCompletion
variable (c : ProxiedCompletion)

def optText (key : String) (value : Option String) : Dict :=
  Dict.opt key (if Custody.given value then value.map Json.str else none)

/-- The event of `ingest_usage`. -/
def usageEvent (inputTokens outputTokens : ℤ) (killed : Bool) (nowMs : ℤ) : Dict :=
  [("customerId", .str c.customerId), ("modelId", .str c.model),
    ("inputTokens", .num (max 0 inputTokens)), ("outputTokens", .num (max 0 outputTokens)),
    ("timestamp", .num nowMs)] ++
  (optText "parentSpanId" c.parentSpanId ++ optText "sessionId" c.sessionId ++
    Dict.opt "metadata" (if killed then some (.obj [("_stream_killed", .str "true")]) else none))

/-- `_ingest`. -/
def ingest (inputTokens outputTokens : ℤ) (killed : Bool) (nowMs : ℤ) (p : Progress) : Progress :=
  { p with closings := p.closings ++
      [.custody (c.usageEvent inputTokens outputTokens killed nowMs)
        { tenantId := c.tenantId, apiKeyId := c.keyId, source := "gateway",
          reservationId := some c.reservationId, reservedUsd := c.reservedUsd }] }

def settle (p : Progress) : Progress :=
  { store := (Reservation.settle p.store c.reservationId).1
    closings := p.closings ++ [.settle c.reservationId] }

end ProxiedCompletion

/-! ### Without streaming -/

/-- `int(value or 0)` of an optional field; none when it raises. -/
def intOrZero (py : Python) (value : Option Json) : Option ℤ :=
  match value with
  | some v => if truthy v then py.int v else some 0
  | none => some 0

/-- The token counts of a success body; none when reading them raises. -/
def usageOf (py : Python) (data : Json) : Option (ℤ × ℤ) :=
  match data with
  | .obj fields =>
    match (Dict.get fields "usage").filter truthy with
    | none => some (0, 0)
    | some (.obj usage) =>
      match intOrZero py (Dict.get usage "prompt_tokens"),
        intOrZero py (Dict.get usage "completion_tokens") with
      | some input, some output => some (input, output)
      | _, _ => none
    | some _ => none
  | _ => none

/-- `client.post`: it raises (no connection, a timeout), or a response arrives, whose body
`resp.json()` reads or not. -/
inductive Post
  | raises
  | response (status : ℕ) (json : Option Json)

/-- `_non_stream`. -/
def ProxiedCompletion.nonStream (c : ProxiedCompletion) (py : Python) (post : Post) (nowMs : ℤ)
    (p : Progress) : Progress :=
  match post with
  | .raises => p
  | .response status json =>
    if 400 ≤ status then c.settle p
    else
      match json.bind (usageOf py) with
      | none => p
      | some (input, output) => c.ingest input output false nowMs p

/-! ### Streaming -/

structure StreamUsage where
  inputTokens : ℤ := 0
  outputTokens : ℤ := 0
  killed : Bool := false

/-- `len(value)`; none when it raises. -/
def lengthOf : Json → Option ℕ
  | .str s => some s.length
  | .arr items => some items.length
  | .obj fields => some fields.length
  | _ => none

/-- `value or {}` used as a dict; none when a method call on it raises. -/
def dictOrEmpty (value : Option Json) : Option Dict :=
  match value.filter truthy with
  | none => some []
  | some (.obj fields) => some fields
  | some _ => none

/-- The content of the first choice of a chunk, if there is any; none when reading it raises. -/
def deltaContent (chunk : Dict) : Option (Option Json) :=
  match (chunk.get "choices").filter truthy with
  | none => some none
  | some (.arr (choice :: _)) => do
    let first ← dictOrEmpty (some choice)
    let delta ← dictOrEmpty (first.get "delta")
    return (delta.get "content").filter truthy
  | some _ => none

/-- `int(usage[key])` where the key is present and not null, else the old count. -/
def countOr (py : Python) (value : Option Json) (old : ℤ) : Option ℤ :=
  match value with
  | none | some .null => some old
  | some v => py.int v

/-- The second half of `_note_chunk`, with whether it goes on. -/
def noteUsage (py : Python) (u : StreamUsage) (chunk : Dict) : StreamUsage × Bool :=
  match (chunk.get "usage").filter truthy with
  | none => (u, true)
  | some (.obj usage) =>
    match countOr py (Dict.get usage "completion_tokens") u.outputTokens with
    | none => (u, false)
    | some output =>
      let counted := { u with outputTokens := output }
      match countOr py (Dict.get usage "prompt_tokens") u.inputTokens with
      | none => (counted, false)
      | some input => ({ counted with inputTokens := input }, true)
  | some _ => (u, false)

/-- `_note_chunk`; false when it raises, with the counts it has changed until then. -/
def noteChunk (py : Python) (u : StreamUsage) (chunk : Json) : StreamUsage × Bool :=
  match chunk with
  | .obj fields =>
    match deltaContent fields with
    | none => (u, false)
    | some none => noteUsage py u fields
    | some (some content) =>
      match lengthOf content with
      | none => (u, false)
      | some n => noteUsage py { u with outputTokens := u.outputTokens + max 1 (n / 4 : ℕ) } fields
  | _ => (u, false)

inductive Exit
  | goesOn
  | killed
  | raised
  deriving DecidableEq

/-- A `data:` line: the end marker or a text that is no JSON, or a chunk. -/
inductive SseLine
  | passed
  | chunk (value : Json)

/-- `_process_block`. -/
def processBlock (py : Python) (quote : ℤ → ℤ → ℚ) (reservedUsd : ℚ) :
    StreamUsage → List SseLine → StreamUsage × Exit
  | u, [] => (u, .goesOn)
  | u, .passed :: lines => processBlock py quote reservedUsd u lines
  | u, .chunk value :: lines =>
    match noteChunk py u value with
    | (noted, false) => (noted, .raised)
    | (noted, true) =>
      if 0 < reservedUsd ∧ reservedUsd < quote noted.inputTokens noted.outputTokens then
        ({ noted with killed := true }, .killed)
      else processBlock py quote reservedUsd noted lines

/-- What happens while the stream is open: a block arrives (with whether the minute for a refresh
is over and the clock of the refresh), the upstream raises (a lost connection, a timeout), or the
client disconnects. -/
inductive StreamEvent
  | block (lines : List SseLine) (refresh : Bool) (clock : ℚ)
  | fault
  | disconnect

/-- `client.stream`: it raises on entry, or a response opens. -/
inductive Upstream
  | raises
  | opened (status : ℕ) (events : List StreamEvent)

/-- The loop over `guard.transform`, however it is left. -/
def ProxiedCompletion.forward (c : ProxiedCompletion) (py : Python) (quote : ℤ → ℤ → ℚ) :
    Redis → StreamUsage → List StreamEvent → Redis × StreamUsage
  | store, u, [] => (store, u)
  | store, u, .fault :: _ => (store, u)
  | store, u, .disconnect :: _ => (store, u)
  | store, u, .block lines refresh clock :: events =>
    match processBlock py quote c.reservedUsd u lines with
    | (used, .raised) => (store, used)
    | (used, exit) =>
      let refreshed :=
        if refresh then (Reservation.refresh store c.reservationId none clock).1 else store
      if exit = .killed then (refreshed, used) else c.forward py quote refreshed used events

/-- The `finally` block of `_stream` where no error was settled. -/
def ProxiedCompletion.finish (c : ProxiedCompletion) (u : StreamUsage) (nowMs : ℤ) (p : Progress) :
    Progress :=
  if u.inputTokens ≠ 0 ∨ u.outputTokens ≠ 0 ∨ 0 < c.reservedUsd then
    c.ingest u.inputTokens u.outputTokens u.killed nowMs p
  else p

/-- `_stream`. The body of an error answer is read and passed on after the settlement, whether or
not that raises. -/
def ProxiedCompletion.streamed (c : ProxiedCompletion) (py : Python) (quote : ℤ → ℤ → ℚ)
    (upstream : Upstream) (nowMs : ℤ) (p : Progress) : Progress :=
  match upstream with
  | .raises => c.finish {} nowMs p
  | .opened status events =>
    if 400 ≤ status then c.settle p
    else
      let (store, used) := c.forward py quote p.store {} events
      c.finish used nowMs { p with store := store }

/-! ### The whole lifecycle -/

structure Outcome where
  post : Post
  upstream : Upstream

/-- `run` after the hold is open. -/
def ProxiedCompletion.run (c : ProxiedCompletion) (py : Python) (quote : ℤ → ℤ → ℚ) (o : Outcome)
    (nowMs : ℤ) (store : Redis) : Progress :=
  if c.stream then c.streamed py quote o.upstream nowMs { store := store }
  else c.nonStream py o.post nowMs { store := store }

/-- `hold.get("allowed")` of `Reservation.open`. -/
def ProxiedCompletion.admitted (c : ProxiedCompletion) (clock : ℚ) (store : Redis) : Bool :=
  match (Reservation.openHold store c.tenantId c.reservationId c.customerId c.reservedUsd
    c.parentSpanId none clock).2 with
  | .opened .. => true
  | .existing => true
  | _ => false

/-- A completion from its hold on; none where `Reservation.open` refuses it. -/
def ProxiedCompletion.lifecycle (c : ProxiedCompletion) (py : Python) (quote : ℤ → ℤ → ℚ)
    (o : Outcome) (nowMs : ℤ) (clock : ℚ) (store : Redis) : Option Progress :=
  if c.admitted clock store then
    some (c.run py quote o nowMs (Reservation.openHold store c.tenantId c.reservationId c.customerId
      c.reservedUsd c.parentSpanId none clock).1)
  else none

end FluxMeter.Gateway
