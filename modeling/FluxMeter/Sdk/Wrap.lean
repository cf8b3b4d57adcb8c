import FluxMeter.Budget.Holds

/-! `wrap.py` of the Python SDK: check, reserve, call the provider, reconcile. What the parts of a
call do is given by its behaviour; the budget service runs in the store of `Reservation`. -/
namespace FluxMeter.Sdk
open FluxMeter.Budget FluxMeter.Keys

/-- The arguments of `wrap`, the tenant of the meter's API key, and whether the meter has an
API url. -/
structure Wrapper where
  tenantId : Option String := none
  customerId : String
  estimatedCostUsd : ℚ := 1 / 20
  failOpen : Bool := true
  costPerOutputToken : ℚ := 1 / 100000
  costPerInputToken : ℚ := 1 / 400000
  apiUrl : Bool := true

/-! ### The budget service -/

/-- `budget:{customer}:balance_usd` exists for the tenant of the key. -/
def budgetFound (w : Wrapper) (r : Redis) : Bool :=
  (r.budgets (budgetPrefixForRead r w.tenantId w.customerId)).balanceUsd.isSome

/-- The budget whose hold `Reservation` moves. -/
def holdKey (w : Wrapper) (r : Redis) : BudgetKey :=
  budgetPrefixForRead r (stripTenant w.tenantId) w.customerId

/-- `POST /budget/{customer_id}/reserve`; no reply on the errors 400 and 404. -/
def reserveBudget (w : Wrapper) (r : Redis) : Redis × Option ReserveReply :=
  if w.estimatedCostUsd ≤ 0 || !budgetFound w r then (r, none)
  else
    let (r₁, reply) := Reservation.reserve r w.tenantId w.customerId w.estimatedCostUsd none
    (r₁, some reply)

/-- `POST /budget/{customer_id}/reconcile`; false on the error 404. -/
def reconcileBudget (w : Wrapper) (r : Redis) (reservedUsd : ℚ) : Redis × Bool :=
  if !budgetFound w r then (r, false)
  else ((Reservation.reconcile r w.tenantId w.customerId reservedUsd none).1, true)

/-! ### The behaviour of a call -/

/-- A request to reserve: it raises before the server acts, it raises after the server acted
because the reply is lost, or the reply arrives. -/
inductive ReserveCall
  | refused
  | lost
  | replied
  deriving DecidableEq

structure Usage where
  completionTokens : ℤ
  promptTokens : ℤ

/-- The length of the delta's content and the usage of a chunk, where it has them. -/
structure Chunk where
  contentLength : Option ℕ := none
  usage : Option Usage := none

inductive StreamItem
  | chunk (c : Chunk)
  /-- The provider's stream raises. -/
  | fault

inductive Provider
  | raises
  | response
  | stream (items : List StreamItem)

structure Behaviour where
  /-- Whether `meter.check` allows the call; none when it raises. -/
  check : Option Bool := some true
  /-- `kwargs["stream"]`. -/
  stream : Bool := true
  reserve : ReserveCall := .replied
  provider : Provider
  /-- How often the caller asks the stream for a chunk. -/
  pulls : ℕ := 0

/-! ### `_KillableStream` -/

structure Tokens where
  output : ℤ := 0
  input : ℤ := 0

/-- `_note_chunk`. -/
def Tokens.noteChunk (t : Tokens) (c : Chunk) : Tokens :=
  let counted :=
    match c.contentLength with
    | some n => if n = 0 then t else { t with output := t.output + max 1 (n / 4 : ℕ) }
    | none => t
  match c.usage with
  | some u =>
    { output := if u.completionTokens ≠ 0 then u.completionTokens else counted.output
      input := if u.promptTokens ≠ 0 then u.promptTokens else counted.input }
  | none => counted

def Tokens.estimate (w : Wrapper) (t : Tokens) : ℚ :=
  t.input * w.costPerInputToken + t.output * w.costPerOutputToken

structure KillableStream where
  reservedUsd : ℚ
  tokens : Tokens := {}
  closed : Bool := false
  /-- What the provider's stream has yet to deliver. -/
  rest : List StreamItem

namespace KillableStream

/-- `_finish`, with the amounts that it reconciles. -/
def finish (w : Wrapper) (s : KillableStream) : KillableStream × List ℚ :=
  if s.closed then (s, [])
  else ({ s with closed := true }, if 0 < s.reservedUsd && w.apiUrl then [s.reservedUsd] else [])

/-- `__next__`, with the amounts that it reconciles. -/
def next (w : Wrapper) (s : KillableStream) : KillableStream × List ℚ :=
  match s.rest with
  | [] => s.finish w
  | .fault :: rest => ({ s with rest := rest }, [])
  | .chunk c :: rest =>
    let noted := { s with rest := rest, tokens := s.tokens.noteChunk c }
    if 0 < s.reservedUsd ∧ s.reservedUsd < noted.tokens.estimate w then noted.finish w
    else (noted, [])

/-- The amounts reconciled while the caller asks `n` times for a chunk. -/
def pull (w : Wrapper) : ℕ → KillableStream → List ℚ
  | 0, _ => []
  | n + 1, s => (s.next w).2 ++ pull w n (s.next w).1

end KillableStream

/-! ### `create` -/

/-- The reservation of a streamed call: the store, what the server holds for the call, and what
`create` goes on with; none where it raises. -/
def reserveHold (w : Wrapper) (call : ReserveCall) (r : Redis) : Redis × ℚ × Option ℚ :=
  let failed := if w.failOpen then some 0 else none
  let served := reserveBudget w r
  let granted := served.2.elim false ReserveReply.isReserved
  let held := if granted then w.estimatedCostUsd else 0
  match call with
  | .refused => (r, 0, failed)
  | .lost => (served.1, held, failed)
  | .replied => (served.1, held, if granted then some w.estimatedCostUsd else failed)

/-- The gate of `_safe_check`. -/
def admitted (w : Wrapper) (b : Behaviour) : Bool := b.check.getD w.failOpen

/-- The stream that `create` returns; none where the provider raises or its answer is no
stream. -/
def opened (w : Wrapper) (b : Behaviour) (reserved : Option ℚ) : Option KillableStream :=
  match reserved, b.provider with
  | some reserved, .stream items =>
    if b.stream then
      some { reservedUsd := if reserved ≠ 0 then reserved else w.estimatedCostUsd, rest := items }
    else none
  | _, _ => none

/-- `create`: the store, what the server holds for the call, and the stream. -/
def create (w : Wrapper) (b : Behaviour) (r : Redis) : Redis × ℚ × Option KillableStream :=
  if !admitted w b then (r, 0, none)
  else
    let (r₁, held, reserved) :=
      if b.stream && w.apiUrl then reserveHold w b.reserve r else (r, 0, some 0)
    (r₁, held, opened w b reserved)

structure Outcome where
  store : Redis
  heldUsd : ℚ
  reconciledUsd : ℚ

/-- One reconcile request; only a successful one counts. -/
def Outcome.reconcile (w : Wrapper) (o : Outcome) (reservedUsd : ℚ) : Outcome :=
  let (r, done) := reconcileBudget w o.store reservedUsd
  { o with store := r, reconciledUsd := if done then o.reconciledUsd + reservedUsd else o.reconciledUsd }

/-- A wrapped call, up to the last chunk that the caller asks for. -/
def call (w : Wrapper) (b : Behaviour) (r : Redis) : Outcome :=
  let (r₁, held, stream) := create w b r
  let requests := stream.elim [] (KillableStream.pull w b.pulls)
  requests.foldl (Outcome.reconcile w) ⟨r₁, held, 0⟩

end FluxMeter.Sdk
