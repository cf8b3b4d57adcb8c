import FluxMeter.Custody.Delivered
import FluxMeter.Sdk.Streaming

/-! `_send` of `client.py` (and `send` of `client.ts`): one event is posted to `/ingest` until it is
accepted, by any number of clients, while the server takes custody of its identity. A response can be
lost, and a request can be served after its client has given it up. -/
namespace FluxMeter.Sdk
open FluxMeter.Api FluxMeter.Custody FluxMeter.Wire

/-! ### The client -/

/-- What `_http_json` raises. -/
inductive HttpError
  | status (code : ℕ)
  /-- A timeout, a closed connection or a body that is no JSON. -/
  | network
  deriving DecidableEq

/-- The errors that `_send` does not break on. -/
def HttpError.retryable : HttpError → Bool
  | .status code => code = 429 || code = 503 || 500 ≤ code
  | .network => true

/-- Where a call of `_send` stands: at the start of an attempt, with a request open, or at its end. -/
inductive Send
  | ready (attempt : ℕ)
  | waiting (attempt request : ℕ)
  | returned
  /-- `DeliveryError` with the last error. -/
  | raised (lastError : HttpError)
  deriving DecidableEq

/-- The `except` branch of an attempt. -/
def afterError (maxRetries attempt : ℕ) (error : HttpError) : Send :=
  if error.retryable && attempt < maxRetries then .ready (attempt + 1) else .raised error

/-- The status code of `ingest_event`. -/
def statusCode : Status → ℕ
  | .accepted => 202
  | .quarantined => 202
  | .pending => 503
  | .conflict => 409
  | .unavailable => 503
  | .uncertain => 503
  | .overloaded => 429

def afterAnswer (maxRetries attempt : ℕ) (status : Status) : Send :=
  if statusCode status < 300 then .returned
  else afterError maxRetries attempt (.status (statusCode status))

/-! ### The server -/

/-- The events that clients of one tenant send under one event id, with the uuids and clocks that the
server draws for their requests. -/
structure Ingestion where
  py : Python
  pydantic : Pydantic
  dims : List String
  tenantId : Option String
  finalizeRetries : ℕ
  maxRetries : ℕ
  eventId : String
  event : ℕ → TokenEvent
  newEventId : ℕ → String
  clock : ℕ → ℤ
  suspicious : ℕ → Bool
  sameId : ∀ j, (event j).eventId = eventId
  keys : ∀ j, ∀ m ∈ (event j).metadata, (m.map Prod.fst).Nodup

namespace Ingestion
variable (I : Ingestion)

/-- The fingerprint that `ingest_event` and `_prepare_payload` give to the request `i` of the send
`j`. -/
def fingerprint (j i : ℕ) : Option String :=
  match I.pydantic.modelValidate (I.event j).toDict with
  | .error _ => none
  | .ok event =>
    match validateMetadata I.dims event.metadata with
    | .error _ => none
    | .ok _ =>
      (preparePayload I.py (event.eventDict (I.newEventId i)) I.tenantId none (I.clock i)).map
        Prod.snd

/-- The identity of the event, the requests of the sends (with the attempts they are for), what the
requests are told, and the sends. -/
structure World where
  identity : IdentityState
  origin : ℕ → Option (ℕ × ℕ)
  answer : ℕ → Option Status
  sends : ℕ → Send

def World.init : World where
  identity := .init none
  origin _ := none
  answer _ := none
  sends _ := .ready 0

inductive Action
  | serve (request : ℕ) (m : Attempt.Move)
  /-- `accept_many` gives a request the result of an equal event before it. -/
  | copy (request leader : ℕ)
  | post (send request : ℕ)
  | receive (send : ℕ)
  | fail (send : ℕ) (error : HttpError)

/-- A request of a send claims once, in a batch, with its own fingerprint. -/
def mayServe (w : World) (i : ℕ) : Attempt.Move → Bool
  | .claim kind fingerprint =>
    (w.answer i).isNone &&
      match w.origin i with
      | some (j, _) => kind = .batch && I.fingerprint j i = some fingerprint
      | none => true
  | _ => true

/-- The request `i` has an equal event before it in its batch. -/
def mayCopy (w : World) (i leader : ℕ) : Bool :=
  (w.answer i).isNone && (w.identity.attempts i).pc = .idle &&
    (w.identity.attempts leader).pc ≠ .idle && (w.identity.attempts leader).kind = .batch &&
    match w.origin i with
    | some (j, _) => I.fingerprint j i = some (w.identity.attempts leader).fingerprint
    | none => false

def step (w : World) : Action → Option World
  | .serve i m =>
    if I.mayServe w i m then
      (IdentityState.step I.finalizeRetries w.identity (i, m)).map fun identity =>
        let told := Attempt.told (I.suspicious i) (w.identity.attempts i) m (identity.attempts i)
        { w with identity, answer := Function.update w.answer i ((w.answer i).or told) }
    else none
  | .copy i leader =>
    if I.mayCopy w i leader then
      (w.answer leader).map fun status =>
        { w with answer := Function.update w.answer i (some status) }
    else none
  | .post j i =>
    match w.sends j with
    | .ready attempt =>
      if w.origin i = none ∧ w.answer i = none ∧ (w.identity.attempts i).pc = .idle then
        some { w with
          origin := Function.update w.origin i (some (j, attempt))
          sends := Function.update w.sends j (.waiting attempt i) }
      else none
    | _ => none
  | .receive j =>
    match w.sends j with
    | .waiting attempt i =>
      (w.answer i).map fun status =>
        { w with sends := Function.update w.sends j (afterAnswer I.maxRetries attempt status) }
    | _ => none
  | .fail j error =>
    match w.sends j with
    | .waiting attempt _ =>
      some { w with sends := Function.update w.sends j (afterError I.maxRetries attempt error) }
    | _ => none

/-- No delivery callback writes over the timeout of a batch message. -/
def quiet (w : World) : Action → Prop
  | .serve i m => Attempt.overwritesTimeout (w.identity.attempts i) m = false
  | _ => True

instance : ∀ w a, Decidable (quiet w a)
  | w, .serve i m => inferInstanceAs (Decidable (Attempt.overwritesTimeout (w.identity.attempts i) m = false))
  | _, .copy _ _ => isTrue trivial
  | _, .post _ _ => isTrue trivial
  | _, .receive _ => isTrue trivial
  | _, .fail _ _ => isTrue trivial

/-! ### The fingerprint of a retry -/

variable {I}

theorem fingerprint_retry (j i i' : ℕ) : I.fingerprint j i = I.fingerprint j i' := by
  have hread := I.pydantic.typed _ _ (readFrom_toDict (I.keys j))
  have hdict : ∀ uuid : String, (I.event j).ingested.eventDict uuid = (I.event j).ingested.modelDump := by
    intro uuid
    unfold IngestEvent.eventDict
    dsimp only
    rw [if_neg]
    simp [IngestEvent.modelDump, TokenEvent.ingested, Dict.get_append, Dict.get_cons, Dict.get_opt]
  unfold fingerprint
  rw [hread]
  dsimp only
  split
  · rfl
  · rw [hdict, hdict]
    unfold preparePayload
    rw [Option.map_map, Option.map_map]
    rfl

/-! ### Runs -/

/-- The status tells of custody. -/
def Custodial (status : Status) : Prop := status = .accepted ∨ status = .quarantined

theorem statusCode_lt_iff {status : Status} : statusCode status < 300 ↔ Custodial status := by
  cases status <;> simp [statusCode, Custodial]

/-- The entry is accepted for the fingerprint of a request. -/
def Held (I : Ingestion) (w : World) (j i : ℕ) : Prop :=
  ∃ f, I.fingerprint j i = some f ∧ w.identity.entry = some (entryText .accepted f)

/-- What holds along every quiet run. -/
structure Sound (I : Ingestion) (w : World) : Prop where
  exclusive : w.identity.Exclusive
  backed : w.identity.Backed
  claimed : ∀ i j k, w.origin i = some (j, k) → (w.identity.attempts i).pc ≠ .idle →
    I.fingerprint j i = some (w.identity.attempts i).fingerprint
  told : ∀ i status, w.answer i = some status → Custodial status →
    ((w.identity.attempts i).pc ≠ .idle →
      w.identity.entry = some (entryText .accepted (w.identity.attempts i).fingerprint)) ∧
    ∀ j k, w.origin i = some (j, k) → Held I w j i
  returned : ∀ j, w.sends j = .returned → ∃ i, Held I w j i
  waiting : ∀ j k i, w.sends j = .waiting k i → w.origin i = some (j, k)
  ready : ∀ j k, w.sends j = .ready k → k ≤ I.maxRetries
  made : ∀ i j k, w.origin i = some (j, k) → k ≤ I.maxRetries ∧
    (∀ n, w.sends j = .ready n → k < n) ∧ ∀ n i', w.sends j = .waiting n i' → k < n ∨ i = i'
  single : ∀ i i' p, w.origin i = some p → w.origin i' = some p → i = i'

theorem sound_init : Sound I .init where
  exclusive := IdentityState.exclusive_init (by simp)
  backed := IdentityState.backed_init
  claimed i j k h := by cases h
  told i status h := by cases h
  returned j h := by cases h
  waiting j k i h := by cases h
  ready j k h := by
    cases h
    exact Nat.zero_le _
  made i j k h := by cases h
  single i i' p h := by cases h

variable {w w' : World}

theorem held_serve {i j r : ℕ} {m : Attempt.Move} {identity : IdentityState}
    (hstep : IdentityState.step I.finalizeRetries w.identity (i, m) = some identity)
    {answer : ℕ → Option Status} (h : Held I w j r) :
    Held I { w with identity, answer } j r := by
  obtain ⟨f, hf, hentry⟩ := h
  exact ⟨f, hf, IdentityState.accepted_step hentry hstep⟩

private theorem claimed_serve {i j k : ℕ} {m : Attempt.Move} {entry' : Option String} {b : Attempt}
    (h : Sound I w) (hmay : I.mayServe w i m = true)
    (hb : (w.identity.attempts i).advance I.finalizeRetries w.identity.entry m = some (entry', b))
    (horigin : w.origin i = some (j, k)) : I.fingerprint j i = some b.fingerprint := by
  by_cases hidle : (w.identity.attempts i).pc = .idle
  · obtain ⟨kind, fingerprint, rfl, rfl⟩ :=
      Attempt.claim_of_idle (h.exclusive.sound i) hidle hb
    simp only [mayServe, horigin, Bool.and_eq_true, decide_eq_true_eq] at hmay
    exact hmay.2.2
  · rw [(Attempt.kept_advance (h.exclusive.sound i) hidle hb).1]
    exact h.claimed i j k horigin hidle

theorem sound_serve {i : ℕ} {m : Attempt.Move} (h : Sound I w)
    (hquiet : Attempt.overwritesTimeout (w.identity.attempts i) m = false)
    (hstep : I.step w (.serve i m) = some w') : Sound I w' := by
  simp only [step] at hstep
  split_ifs at hstep with hmay
  obtain ⟨identity, hidentity, rfl⟩ := Option.map_eq_some_iff.mp hstep
  have hexclusive := IdentityState.exclusive_step h.exclusive hquiet hidentity
  have hbacked := IdentityState.backed_step h.exclusive h.backed hidentity
  obtain ⟨⟨entry', b⟩, hb, hnext⟩ := Option.map_eq_some_iff.mp hidentity
  have hself : identity.attempts i = b := by rw [← hnext]; exact Function.update_self ..
  have hother : ∀ i', i' ≠ i → identity.attempts i' = w.identity.attempts i' := by
    intro i' hi
    rw [← hnext]
    exact Function.update_of_ne hi _ _
  have hentry : identity.entry = entry' := by rw [← hnext]
  have hown := fun j k => claimed_serve (j := j) (k := k) h hmay hb
  constructor
  case exclusive => exact hexclusive
  case backed => exact hbacked
  case claimed =>
    intro i' j k horigin hbusy
    by_cases hi : i' = i
    · subst hi
      rw [hself]
      exact hown j k horigin
    · rw [hother i' hi] at hbusy ⊢
      exact h.claimed i' j k horigin hbusy
  case told =>
    intro i' status hanswer hstatus
    dsimp only at hanswer ⊢
    by_cases hi : i' = i
    · subst hi
      rw [Function.update_self] at hanswer
      cases hbefore : w.answer i' with
      | some earlier =>
        rw [hbefore, Option.some_or] at hanswer
        obtain rfl := Option.some.inj hanswer
        obtain ⟨haccepted, hheld⟩ := h.told i' earlier hbefore hstatus
        refine ⟨fun _ => ?_, fun j k horigin => held_serve hidentity (hheld j k horigin)⟩
        by_cases hidle : (w.identity.attempts i').pc = .idle
        · -- a request that has its answer does not claim
          obtain ⟨kind, fingerprint, rfl, -⟩ :=
            Attempt.claim_of_idle (h.exclusive.sound i') hidle hb
          simp [mayServe, hbefore] at hmay
        · rw [hself, (Attempt.kept_advance (h.exclusive.sound i') hidle hb).1]
          exact IdentityState.accepted_step (haccepted hidle) hidentity
      | none =>
        rw [hbefore, Option.none_or, hself] at hanswer
        have haccepted := Attempt.accepted_of_told hb hanswer hstatus
        rw [hself, hentry]
        exact ⟨fun _ => haccepted, fun j k horigin =>
          ⟨b.fingerprint, hown j k horigin, hentry.trans haccepted⟩⟩
    · rw [Function.update_of_ne hi] at hanswer
      obtain ⟨haccepted, hheld⟩ := h.told i' status hanswer hstatus
      rw [hother i' hi]
      exact ⟨fun hbusy => IdentityState.accepted_step (haccepted hbusy) hidentity,
        fun j k horigin => held_serve hidentity (hheld j k horigin)⟩
  case returned =>
    intro j hj
    obtain ⟨i', hheld⟩ := h.returned j hj
    exact ⟨i', held_serve hidentity hheld⟩
  case waiting => exact h.waiting
  case ready => exact h.ready
  case made => exact h.made
  case single => exact h.single

theorem sound_copy {i leader : ℕ} (h : Sound I w) (hstep : I.step w (.copy i leader) = some w') :
    Sound I w' := by
  simp only [step] at hstep
  split_ifs at hstep with hmay
  obtain ⟨status, hleader, rfl⟩ := Option.map_eq_some_iff.mp hstep
  simp only [mayCopy, Bool.and_eq_true, decide_eq_true_eq, ne_eq] at hmay
  obtain ⟨⟨⟨⟨-, hidle⟩, hbusy⟩, -⟩, hequal⟩ := hmay
  refine { h with told := ?_, returned := h.returned }
  intro i' status' hanswer hstatus
  dsimp only at hanswer
  by_cases hi : i' = i
  · subst hi
    rw [Function.update_self] at hanswer
    obtain rfl := Option.some.inj hanswer
    have haccepted := (h.told leader status hleader hstatus).1 hbusy
    refine ⟨fun hclaimed => absurd hidle hclaimed, fun j k horigin => ?_⟩
    dsimp only at horigin
    rw [horigin] at hequal
    exact ⟨_, of_decide_eq_true hequal, haccepted⟩
  · rw [Function.update_of_ne hi] at hanswer
    exact h.told i' status' hanswer hstatus

theorem sound_post {i j : ℕ} (h : Sound I w) (hstep : I.step w (.post j i) = some w') :
    Sound I w' := by
  simp only [step] at hstep
  split at hstep
  next attempt hready =>
    split_ifs at hstep with hfree
    obtain ⟨hnew, hunanswered, hidle⟩ := hfree
    obtain rfl := Option.some.inj hstep
    -- the requests that the send has made before are for earlier attempts
    have hearlier : ∀ i' k, w.origin i' = some (j, k) → k < attempt :=
      fun i' k horigin => (h.made i' j k horigin).2.1 attempt hready
    constructor
    case exclusive => exact h.exclusive
    case backed => exact h.backed
    case claimed =>
      intro i' j' k horigin hbusy
      by_cases hi : i' = i
      · subst hi
        exact absurd hidle hbusy
      · dsimp only at horigin
        rw [Function.update_of_ne hi] at horigin
        exact h.claimed i' j' k horigin hbusy
    case told =>
      intro i' status hanswer hstatus
      obtain ⟨haccepted, hheld⟩ := h.told i' status hanswer hstatus
      refine ⟨haccepted, fun j' k horigin => ?_⟩
      have hi : i' ≠ i := by
        rintro rfl
        rw [hunanswered] at hanswer
        cases hanswer
      dsimp only at horigin
      rw [Function.update_of_ne hi] at horigin
      exact hheld j' k horigin
    case returned =>
      intro j' hj
      dsimp only at hj
      by_cases hjj : j' = j
      · subst hjj
        rw [Function.update_self] at hj
        cases hj
      · rw [Function.update_of_ne hjj] at hj
        exact h.returned j' hj
    case waiting =>
      intro j' k i' hj
      dsimp only at hj ⊢
      by_cases hjj : j' = j
      · subst hjj
        rw [Function.update_self] at hj
        obtain ⟨rfl, rfl⟩ := Send.waiting.inj hj
        exact Function.update_self ..
      · rw [Function.update_of_ne hjj] at hj
        have horigin := h.waiting j' k i' hj
        rw [Function.update_of_ne, horigin]
        rintro rfl
        rw [hnew] at horigin
        cases horigin
    case ready =>
      intro j' k hj
      dsimp only at hj
      by_cases hjj : j' = j
      · subst hjj
        rw [Function.update_self] at hj
        cases hj
      · rw [Function.update_of_ne hjj] at hj
        exact h.ready j' k hj
    case made =>
      intro i' j' k horigin
      dsimp only at horigin ⊢
      by_cases hi : i' = i
      · subst hi
        rw [Function.update_self] at horigin
        obtain ⟨rfl, rfl⟩ := Prod.mk.inj (Option.some.inj horigin)
        rw [Function.update_self]
        refine ⟨h.ready _ _ hready, fun n hn => (nomatch hn), fun n i'' hn => ?_⟩
        exact Or.inr (Send.waiting.inj hn).2
      · rw [Function.update_of_ne hi] at horigin
        by_cases hjj : j' = j
        · subst hjj
          rw [Function.update_self]
          refine ⟨(h.made i' j' k horigin).1, fun n hn => (nomatch hn), fun n i'' hn => ?_⟩
          rw [← (Send.waiting.inj hn).1]
          exact Or.inl (hearlier i' k horigin)
        · rw [Function.update_of_ne hjj]
          exact h.made i' j' k horigin
    case single =>
      have hfresh : ∀ i', w.origin i' ≠ some (j, attempt) :=
        fun i' horigin => lt_irrefl _ (hearlier i' attempt horigin)
      intro i₁ i₂ p h₁ h₂
      dsimp only at h₁ h₂
      by_cases hi₁ : i₁ = i <;> by_cases hi₂ : i₂ = i
      · rw [hi₁, hi₂]
      · rw [hi₁, Function.update_self] at h₁
        rw [Function.update_of_ne hi₂, ← h₁] at h₂
        exact absurd h₂ (hfresh i₂)
      · rw [hi₂, Function.update_self] at h₂
        rw [Function.update_of_ne hi₁, ← h₂] at h₁
        exact absurd h₁ (hfresh i₁)
      · rw [Function.update_of_ne hi₁] at h₁
        rw [Function.update_of_ne hi₂] at h₂
        exact h.single i₁ i₂ p h₁ h₂
  next => cases hstep

theorem sound_leave {j i attempt : ℕ} {next : Send} (h : Sound I w)
    (hwaiting : w.sends j = .waiting attempt i)
    (hnext : next = .ready (attempt + 1) ∧ attempt < I.maxRetries ∨ (∃ e, next = .raised e) ∨
      next = .returned ∧ Held I w j i) :
    Sound I { w with sends := Function.update w.sends j next } := by
  have hopen : ∀ n i', next ≠ .waiting n i' := by
    rintro n i' rfl
    rcases hnext with ⟨hnext, -⟩ | ⟨e, hnext⟩ | ⟨hnext, -⟩ <;> cases hnext
  have horigin := h.waiting j attempt i hwaiting
  refine { h with
    returned := ?returned, waiting := ?waiting, ready := ?ready, made := ?made }
  case returned =>
    intro j' hj
    dsimp only at hj
    by_cases hjj : j' = j
    · subst hjj
      rw [Function.update_self] at hj
      subst hj
      rcases hnext with ⟨hnext, -⟩ | ⟨e, hnext⟩ | ⟨-, hheld⟩
      · cases hnext
      · cases hnext
      · exact ⟨i, hheld⟩
    · rw [Function.update_of_ne hjj] at hj
      exact h.returned j' hj
  case waiting =>
    intro j' k i' hj
    dsimp only at hj
    by_cases hjj : j' = j
    · subst hjj
      rw [Function.update_self] at hj
      exact absurd hj (hopen k i')
    · rw [Function.update_of_ne hjj] at hj
      exact h.waiting j' k i' hj
  case ready =>
    intro j' k hj
    dsimp only at hj
    by_cases hjj : j' = j
    · subst hjj
      rw [Function.update_self] at hj
      subst hj
      rcases hnext with ⟨hnext, hlt⟩ | ⟨e, hnext⟩ | ⟨hnext, -⟩
      · rw [Send.ready.inj hnext]
        exact hlt
      · cases hnext
      · cases hnext
    · rw [Function.update_of_ne hjj] at hj
      exact h.ready j' k hj
  case made =>
    intro i' j' k horigin'
    obtain ⟨hbound, hready, hopened⟩ := h.made i' j' k horigin'
    dsimp only
    by_cases hjj : j' = j
    · subst hjj
      rw [Function.update_self]
      refine ⟨hbound, fun n hn => ?_, fun n i'' hn => absurd hn (hopen n i'')⟩
      subst hn
      rcases hnext with ⟨hnext, -⟩ | ⟨e, hnext⟩ | ⟨hnext, -⟩
      · rw [Send.ready.inj hnext]
        rcases hopened attempt i hwaiting with hlt | rfl
        · exact hlt.trans (Nat.lt_succ_self _)
        · rw [horigin] at horigin'
          obtain ⟨-, rfl⟩ := Prod.mk.inj (Option.some.inj horigin')
          exact Nat.lt_succ_self _
      · cases hnext
      · cases hnext
    · rw [Function.update_of_ne hjj]
      exact ⟨hbound, hready, hopened⟩

theorem afterError_cases (maxRetries attempt : ℕ) (error : HttpError) :
    afterError maxRetries attempt error = .ready (attempt + 1) ∧ attempt < maxRetries ∨
      ∃ e, afterError maxRetries attempt error = .raised e := by
  unfold afterError
  split_ifs with h
  · exact Or.inl ⟨rfl, of_decide_eq_true (Bool.and_eq_true_iff.mp h).2⟩
  · exact Or.inr ⟨error, rfl⟩

private theorem sound_step {a : Action} (h : Sound I w) (hquiet : quiet w a)
    (hstep : I.step w a = some w') : Sound I w' := by
  cases a with
  | serve i m => exact sound_serve h hquiet hstep
  | copy i leader => exact sound_copy h hstep
  | post j i => exact sound_post h hstep
  | receive j =>
    simp only [step] at hstep
    split at hstep
    next attempt i hwaiting =>
      obtain ⟨status, hanswer, rfl⟩ := Option.map_eq_some_iff.mp hstep
      apply sound_leave h hwaiting
      unfold afterAnswer
      split_ifs with hcode
      · exact Or.inr (Or.inr ⟨rfl, (h.told i status hanswer (statusCode_lt_iff.mp hcode)).2 j attempt
          (h.waiting j attempt i hwaiting)⟩)
      · exact (afterError_cases _ _ _).imp_right Or.inl
    next => cases hstep
  | fail j error =>
    simp only [step] at hstep
    split at hstep
    next attempt i hwaiting =>
      obtain rfl := Option.some.inj hstep
      exact sound_leave h hwaiting ((afterError_cases _ _ _).imp_right Or.inl)
    next => cases hstep

/-- In every run in which no delivery callback writes over the timeout of a batch message, however the
requests of the clients are lost, repeated or overtaken: a send that returns has left the event
accepted, with one Kafka message in all, and no send makes more than one request for each attempt. -/
theorem delivered_once (I : Ingestion) (actions : List Action) (w : World)
    (hquiet : Transition.Guarded I.step quiet .init actions)
    (hrun : Transition.run I.step .init actions = some w) :
    (∀ j, w.sends j = .returned → ∃ f, (∀ i, I.fingerprint j i = some f) ∧
      w.identity.entry = some (entryText .accepted f) ∧
      ∃ i, (w.identity.attempts i).message = .delivered ∧
        (w.identity.attempts i).fingerprint = f ∧
        ∀ i', (w.identity.attempts i').HasMessage → i' = i) ∧
    ∀ i i' p, w.origin i = some p → w.origin i' = some p → p.2 ≤ I.maxRetries ∧ i = i' := by
  have h : Sound I w := Transition.guarded_invariant
    (fun w a w' h hquiet hstep => sound_step h hquiet hstep) sound_init hquiet hrun
  refine ⟨fun j hj => ?_, fun i i' p hi hi' => ⟨(h.made i p.1 p.2 hi).1, h.single i i' p hi hi'⟩⟩
  obtain ⟨i, f, hf, hentry⟩ := h.returned j hj
  exact ⟨f, fun i' => (fingerprint_retry j i' i).trans hf, hentry,
    IdentityState.sole_of_accepted h.exclusive h.backed hentry⟩

/-! ### A response that is lost -/

def ofOneEvent : Ingestion where
  py := .ofEventId
  pydantic := .strict
  dims := defaultDims
  tenantId := some "t1"
  finalizeRetries := 3
  maxRetries := 2
  eventId := "e1"
  event _ := { customerId := "c1", modelId := "gpt-4o", eventId := "e1", timestamp := 1700000000000 }
  newEventId _ := ""
  clock _ := 1700000000000
  suspicious _ := false
  sameId _ := rfl
  keys _ m hm := by cases hm

/-- The first request is given up before its message is acknowledged, the second is told to wait, and
the third is told that the event is there. -/
def retriedTwice : List Action :=
  let claim : Attempt.Move := .claim .batch ((ofOneEvent.fingerprint 0 0).getD "")
  [.post 0 0, .serve 0 claim, .serve 0 (.produce none), .fail 0 .network,
    .post 0 1, .serve 1 claim, .receive 0,
    .serve 0 (.report true), .serve 0 .callback, .serve 0 .callback, .serve 0 .callback,
    .serve 0 .thread, .serve 0 .thread, .serve 0 (.remember true false true),
    .post 0 2, .serve 2 claim, .receive 0]

theorem runs_retriedTwice : (Transition.run ofOneEvent.step .init retriedTwice).isSome := by
  decide +kernel

theorem delivered_once_retried :
    ∃ w, Transition.run ofOneEvent.step .init retriedTwice = some w ∧ w.sends 0 = .returned ∧
      ∃ i, (w.identity.attempts i).message = .delivered ∧
        ∀ i', (w.identity.attempts i').HasMessage → i' = i := by
  have hrun := (Option.some_get runs_retriedTwice).symm
  have hreturned : ((Transition.run ofOneEvent.step .init retriedTwice).get runs_retriedTwice).sends
      0 = .returned := by decide +kernel
  obtain ⟨f, -, -, i, hmessage, -, hsole⟩ :=
    (delivered_once ofOneEvent retriedTwice _ (by decide +kernel) hrun).1 0 hreturned
  exact ⟨_, hrun, hreturned, i, hmessage, hsole⟩

end Ingestion

end FluxMeter.Sdk
