import FluxMeter.Budget.Check
import FluxMeter.Transition.Keyed
import FluxMeter.Transition.Runs

/-! The limit on the requests of a minute: any number of calls of `Budget.check`, command by command.
A check writes the counter of its minute and the cache and nothing else, so that what it reads under
one prefix is read in one step. -/
namespace FluxMeter.Budget.RateLimit
open FluxMeter.Keys Transition

/-- A call of `check`, under the tenant of its `Budget`. -/
structure Call where
  tenantId : Option String
  args : CheckArgs

def Call.minute (call : Call) : ℤ := truncate (call.args.clock 0) / 60

def Call.rpmKey (call : Call) : String :=
  Py.rateLimitKey call.tenantId call.args.customerId call.minute

def Call.estimate (call : Call) : ℚ := max 0 call.args.estimatedCostUsd

inductive Client
  | idle
  /-- It knows the prefix that holds the budget. -/
  | located (call : Call) (budgetKey : BudgetKey)
  /-- It has read the counter of its minute. -/
  | counted (call : Call) (budgetKey : BudgetKey) (requests : ℤ)
  /-- It has read the limit, which leaves room. -/
  | admitted (call : Call) (requests : ℤ)
  /-- It has read the snapshot, which leaves the estimate. -/
  | funded (call : Call) (requests : ℤ) (snap : Snapshot)
  /-- It has read the caps of the span and of the session. -/
  | capped (call : Call) (requests : ℤ) (snap : Snapshot)
  /-- It is about to count and then to allow. -/
  | counting (call : Call) (requests : ℤ) (decision : Decision)

structure Answer where
  call : Call
  decision : Decision

structure State where
  desk : Desk
  clients : ℕ → Client := fun _ => .idle
  /-- The counters that have expired. -/
  dropped : String → Bool := fun _ => false
  answers : List Answer := []

inductive Action
  /-- The clock and `budget_prefix_for_read`. -/
  | begin (client : ℕ) (call : Call)
  /-- The next command of the call. -/
  | advance (client : ℕ)
  /-- The next command raises a `RedisError`; the counting may have been `applied`. -/
  | fail (client : ℕ) (applied : Bool)
  /-- The counter of a minute expires, 120 s after it was last counted. -/
  | drop (tenantId : Option String) (customerId : String) (minute : ℤ)

/-- The limit that a check reads; zero is none. -/
def maxRpm (s : Redis) (tenantId : Option String) (customerId : String) (budgetKey : BudgetKey) : ℤ :=
  let writeKey := budgetPrefix tenantId customerId
  ((s.budgets writeKey).maxRpm <|>
    if budgetKey ≠ writeKey then (s.budgets budgetKey).maxRpm else none).getD 0

def maxRpmOf (s : Redis) (tenantId : Option String) (customerId : String) : ℤ :=
  maxRpm s tenantId customerId (budgetPrefixForRead s tenantId customerId)

/-- What every decision on a snapshot carries. -/
def decisionOn (snap : Snapshot) (requests : ℤ) (allowed : Bool) (reason : String) : Decision where
  allowed := allowed
  reason := reason
  balanceUsd := some snap.balanceUsd
  heldUsd := some snap.heldUsd
  effectiveBalanceUsd := some snap.effectiveBalanceUsd
  requestsThisMinute := some requests
  source := "redis"

namespace State

def become (s : State) (i : ℕ) (client : Client) : State :=
  { s with clients := Function.update s.clients i client }

def answer (s : State) (i : ℕ) (call : Call) (decision : Decision) : State :=
  { s with clients := Function.update s.clients i .idle, answers := ⟨call, decision⟩ :: s.answers }

/-- A request that counts is counted before it is allowed. -/
def allow (s : State) (i : ℕ) (call : Call) (requests : ℤ) (decision : Decision) : State :=
  if call.args.countRequest then s.become i (.counting call requests decision)
  else s.answer i call decision

def cacheSnapshot (s : State) (call : Call) (snap : Snapshot) : State :=
  { s with desk := { s.desk with
      cache := Function.update s.desk.cache (cacheKey call.tenantId call.args.customerId)
        (some ⟨snap.balanceUsd, snap.heldUsd, call.args.clock 1⟩) } }

/-- `_increment_rate_limit`. -/
def incrementRateLimit (s : State) (call : Call) : State :=
  { s with desk := { s.desk with usage := s.desk.usage.incrBy call.rpmKey 1 } }

def requests (s : State) (key : String) : ℤ := (s.desk.usage.ints key).getD 0

end State

def Client.call : Client → Option Call
  | .idle => none
  | .located call _ | .counted call _ _ | .admitted call _ | .funded call _ _ | .capped call _ _
  | .counting call _ _ => some call

def advance (s : State) (i : ℕ) : Client → Option State
  | .idle => none
  | .located call budgetKey => some (s.become i (.counted call budgetKey (s.requests call.rpmKey)))
  | .counted call budgetKey requests =>
    let maxRpm := maxRpm s.desk.toRedis call.tenantId call.args.customerId budgetKey
    if 0 < maxRpm ∧ maxRpm ≤ requests then
      some (s.answer i call
        { allowed := false, reason := "rate_limited", requestsThisMinute := some requests
          maxRpm := some maxRpm, source := "redis" })
    else some (s.become i (.admitted call requests))
  | .admitted call requests =>
    let customerId := call.args.customerId
    match (s.desk.budgets (budgetPrefixForRead s.desk.toRedis call.tenantId customerId)).snapshot
        customerId with
    | none =>
      some (s.allow i call requests
        { allowed := true, reason := "no_budget_configured", requestsThisMinute := some requests
          source := "redis" })
    | some snap =>
      let cached := s.cacheSnapshot call snap
      if snap.effectiveBalanceUsd ≤ 0 then
        some (cached.answer i call (decisionOn snap requests false "budget_exhausted"))
      else if snap.effectiveBalanceUsd < call.estimate then
        some (cached.answer i call (decisionOn snap requests false "insufficient_balance"))
      else some (cached.become i (.funded call requests snap))
  | .funded call requests snap =>
    match hierarchyDenial s.desk call.tenantId call.args.parentSpanId call.args.sessionId
        call.estimate with
    | some d =>
      some (s.answer i call
        { decisionOn snap requests false "hierarchy_cap" with hierarchy := some d })
    | none => some (s.become i (.capped call requests snap))
  | .capped call requests snap =>
    match (given call.args.keyId).bind fun id =>
        checkApiKeyBudget s.desk id call.estimate call.args.nowMs with
    | some d =>
      some (s.answer i call { decisionOn snap requests false d.reason with apiKey := some d })
    | none => some (s.allow i call requests (decisionOn snap requests true "ok"))
  | .counting call _ decision =>
    some ((s.incrementRateLimit call).answer i call
      { decision with requestsThisMinute := decision.requestsThisMinute.map (· + 1) })

/-- What a `RedisError` leaves of the counting. -/
def interrupted (s : State) (applied : Bool) : Client → State
  | .counting call _ _ => if applied then s.incrementRateLimit call else s
  | _ => s

def step (s : State) : Action → Option State
  | .begin i call =>
    match s.clients i with
    | .idle => some (s.become i (.located call
        (budgetPrefixForRead s.desk.toRedis call.tenantId call.args.customerId)))
    | _ => none
  | .advance i => advance s i (s.clients i)
  | .fail i applied =>
    (s.clients i).call.map fun call =>
      (interrupted s applied (s.clients i)).answer i call
        (checkFallback s.desk call.tenantId call.args)
  | .drop tenantId customerId minute =>
    let key := Py.rateLimitKey tenantId customerId minute
    some { s with
      desk := { s.desk with usage := { s.desk.usage with
        ints := Function.update s.desk.usage.ints key none } }
      dropped := Function.update s.dropped key true }

/-- An allowed request of the customer in the minute that counts. -/
def Answer.CountsFor (tenantId : Option String) (customerId : String) (minute : ℤ) (a : Answer) :
    Prop :=
  a.call.tenantId = tenantId ∧ a.call.args.customerId = customerId ∧ a.call.minute = minute ∧
    a.call.args.countRequest = true ∧ a.decision.allowed = true

instance (tenantId : Option String) (customerId : String) (minute : ℤ) :
    DecidablePred (Answer.CountsFor tenantId customerId minute) := fun _ =>
  inferInstanceAs (Decidable (_ ∧ _ ∧ _ ∧ _ ∧ _))

/-- The requests of the minute that were allowed. -/
def State.allowedIn (s : State) (tenantId : Option String) (customerId : String) (minute : ℤ) : ℕ :=
  s.answers.countP fun a => a.CountsFor tenantId customerId minute

/-- At most `max_rpm` requests of each customer are allowed in each minute. -/
def Limited (limit : Option String → String → ℤ) (s : State) : Prop :=
  ∀ tenantId customerId minute, 0 < limit tenantId customerId →
    (s.allowedIn tenantId customerId minute : ℤ) ≤ limit tenantId customerId

/-- The counter that a call is about to increment is what the call has read, and has not expired. -/
def Unraced (s : State) : Client → Prop
  | .counting call requests _ => s.requests call.rpmKey = requests ∧ s.dropped call.rpmKey = false
  | _ => True

instance (s : State) : DecidablePred (Unraced s)
  | .counting .. => inferInstanceAs (Decidable (_ ∧ _))
  | .idle | .located .. | .counted .. | .admitted .. | .funded .. | .capped .. => isTrue trivial

/-- No other call is counted between the reading of a call and its counting, and the fallback allows
nothing. -/
def Serial (s : State) : Action → Prop
  | .advance i => Unraced s (s.clients i)
  | .fail i _ => ∀ call ∈ (s.clients i).call,
      (checkFallback s.desk call.tenantId call.args).allowed = false
  | _ => True

instance (s : State) : DecidablePred (Serial s)
  | .advance i => inferInstanceAs (Decidable (Unraced s (s.clients i)))
  | .fail i _ => inferInstanceAs (Decidable (∀ call ∈ (s.clients i).call, _ = _))
  | .begin .. | .drop .. => isTrue trivial

/-- Nothing is under way or answered, and no counter is below zero. -/
structure Fresh (s : State) : Prop where
  clients : ∀ i, s.clients i = .idle
  answers : s.answers = []
  requests : ∀ key, 0 ≤ s.requests key

/-- The call that has found room under the limit, and the number it has read. -/
def Client.room : Client → Option (Call × ℤ)
  | .admitted call requests | .funded call requests _ | .capped call requests _
  | .counting call requests _ => some (call, requests)
  | .idle | .located .. | .counted .. => none

def Client.limitKey : Client → Option (Call × BudgetKey)
  | .located call budgetKey | .counted call budgetKey _ => some (call, budgetKey)
  | .idle | .admitted .. | .funded .. | .capped .. | .counting .. => none

/-- A client that knows the prefix of its customer, or has found room under the limit. -/
structure Client.Fits (limit : Option String → String → ℤ) (s : Redis) (client : Client) : Prop where
  room : ∀ call requests, client.room = some (call, requests) →
    0 < limit call.tenantId call.args.customerId →
      requests < limit call.tenantId call.args.customerId
  limitKey : ∀ call key, client.limitKey = some (call, key) →
    key = budgetPrefixForRead s call.tenantId call.args.customerId

/-- What a run keeps: a counter that has not expired is at least what was allowed in its minute. -/
structure Kept (limit : Option String → String → ℤ) (s : State) : Prop where
  limits : ∀ tenantId customerId, maxRpmOf s.desk.toRedis tenantId customerId = limit tenantId customerId
  fits : ∀ i, (s.clients i).Fits limit s.desk.toRedis
  limited : Limited limit s
  counted : ∀ tenantId customerId minute,
    s.dropped (Py.rateLimitKey tenantId customerId minute) = false →
      (s.allowedIn tenantId customerId minute : ℤ) ≤
        s.requests (Py.rateLimitKey tenantId customerId minute)

section Kept
variable {limit : Option String → String → ℤ} {s t : State} {i : ℕ} {call : Call}
  {requests : ℤ} {snap : Snapshot} {decision : Decision}

theorem fits_idle (r : Redis) : Client.idle.Fits limit r :=
  ⟨fun _ _ hroom => (by cases hroom), fun _ _ hkey => (by cases hkey)⟩

theorem Client.Fits.of_room {r : Redis} {client client' : Client} (h : client.Fits limit r)
    (hroom : client'.room = client.room) (hkey : client'.limitKey = none) : client'.Fits limit r where
  room call requests hc := h.room call requests (hroom ▸ hc)
  limitKey call key hc := by
    rw [hkey] at hc
    cases hc

theorem allowedIn_nil (h : s.answers = []) (tenantId : Option String) (customerId : String)
    (minute : ℤ) : s.allowedIn tenantId customerId minute = 0 := by
  unfold State.allowedIn
  rw [h]
  rfl

theorem Fresh.kept (h : Fresh s) : Kept (maxRpmOf s.desk.toRedis) s where
  limits _ _ := rfl
  fits i := by
    rw [h.clients]
    exact fits_idle _
  limited tenantId customerId minute hpos := by
    rw [allowedIn_nil h.answers]
    exact hpos.le
  counted tenantId customerId minute _ := by
    rw [allowedIn_nil h.answers]
    exact h.requests _

theorem Kept.become (h : Kept limit s) {client : Client} (hfits : client.Fits limit s.desk.toRedis) :
    Kept limit (s.become i client) where
  limits := h.limits
  fits j := by
    unfold State.become
    dsimp only
    by_cases hj : j = i
    · rw [hj, Function.update_self]
      exact hfits
    · rw [Function.update_of_ne hj]
      exact h.fits j
  limited := h.limited
  counted := h.counted

theorem allowedIn_answer (tenantId : Option String) (customerId : String) (minute : ℤ) :
    (s.answer i call decision).allowedIn tenantId customerId minute =
      s.allowedIn tenantId customerId minute +
        if (Answer.mk call decision).CountsFor tenantId customerId minute then 1 else 0 := by
  unfold State.allowedIn State.answer
  rw [List.countP_cons]
  simp only [decide_eq_true_eq]

theorem Kept.answer (h : Kept limit s)
    (hfree : ¬(call.args.countRequest = true ∧ decision.allowed = true)) :
    Kept limit (s.answer i call decision) := by
  have hsame : ∀ tenantId customerId minute,
      (s.answer i call decision).allowedIn tenantId customerId minute =
        s.allowedIn tenantId customerId minute := by
    intro tenantId customerId minute
    rw [allowedIn_answer, if_neg fun hcounts => hfree hcounts.2.2.2, Nat.add_zero]
  have hidle : Kept limit (s.become i .idle) := h.become (fits_idle _)
  refine ⟨h.limits, hidle.fits, fun tenantId customerId minute => ?_,
    fun tenantId customerId minute => ?_⟩
  · rw [hsame]
    exact h.limited tenantId customerId minute
  · rw [hsame]
    exact h.counted tenantId customerId minute

theorem Kept.allow (h : Kept limit s) (hfits : (Client.counting call requests decision).Fits limit
    s.desk.toRedis) : Kept limit (s.allow i call requests decision) := by
  unfold State.allow
  split_ifs with hcount
  · exact h.become hfits
  · exact h.answer fun hcounts => hcount hcounts.1

theorem Kept.cacheSnapshot (h : Kept limit s) : Kept limit (s.cacheSnapshot call snap) :=
  ⟨h.limits, h.fits, h.limited, h.counted⟩

theorem requests_increment (key : String) : (s.incrementRateLimit call).requests key =
    s.requests key + if key = call.rpmKey then 1 else 0 := by
  unfold State.incrementRateLimit State.requests UsageStore.incrBy
  dsimp only
  by_cases hkey : key = call.rpmKey
  · subst hkey
    rw [Function.update_self, if_pos rfl]
    rfl
  · rw [Function.update_of_ne hkey, if_neg hkey, add_zero]

theorem Kept.increment (h : Kept limit s) : Kept limit (s.incrementRateLimit call) := by
  refine ⟨h.limits, fun j => ⟨(h.fits j).room, (h.fits j).limitKey⟩, h.limited,
    fun tenantId customerId minute hdropped => ?_⟩
  have hbefore := h.counted tenantId customerId minute hdropped
  rw [requests_increment]
  change (s.allowedIn tenantId customerId minute : ℤ) ≤ _
  split_ifs
  · omega
  · omega

theorem Kept.count (h : Kept limit s)
    (hroom : 0 < limit call.tenantId call.args.customerId →
      requests < limit call.tenantId call.args.customerId)
    (hread : s.requests call.rpmKey = requests) (hdropped : s.dropped call.rpmKey = false) :
    Kept limit ((s.incrementRateLimit call).answer i call decision) := by
  have hidle : Kept limit ((s.incrementRateLimit call).become i .idle) :=
    h.increment.become (fits_idle _)
  refine ⟨h.limits, hidle.fits, fun tenantId customerId minute hpos => ?_,
    fun tenantId customerId minute hkept => ?_⟩
  · rw [allowedIn_answer]
    change (((s.allowedIn tenantId customerId minute + _ : ℕ) : ℤ)) ≤ _
    split_ifs with hcounts
    · obtain ⟨rfl, rfl, rfl, -, -⟩ := hcounts
      have hcounter := h.counted call.tenantId call.args.customerId call.minute hdropped
      have hleft := hroom hpos
      change _ ≤ s.requests call.rpmKey at hcounter
      push_cast
      omega
    · exact h.limited tenantId customerId minute hpos
  · rw [allowedIn_answer]
    change (((s.allowedIn tenantId customerId minute + _ : ℕ) : ℤ)) ≤
      (s.incrementRateLimit call).requests _
    rw [requests_increment]
    have hcounter := h.counted tenantId customerId minute hkept
    split_ifs with hcounts hkey hkey
    · push_cast
      omega
    · obtain ⟨rfl, rfl, rfl, -, -⟩ := hcounts
      exact absurd rfl hkey
    · push_cast
      omega
    · push_cast
      omega

theorem Kept.drop (h : Kept limit s) {tenantId : Option String} {customerId : String} {minute : ℤ}
    (hstep : step s (.drop tenantId customerId minute) = some t) : Kept limit t := by
  obtain rfl := Option.some.inj hstep
  refine ⟨h.limits, fun j => ⟨(h.fits j).room, (h.fits j).limitKey⟩, h.limited,
    fun tenantId' customerId' minute' hdropped => ?_⟩
  by_cases hkey : Py.rateLimitKey tenantId' customerId' minute' =
      Py.rateLimitKey tenantId customerId minute
  · have htrue : Function.update s.dropped (Py.rateLimitKey tenantId customerId minute) true
        (Py.rateLimitKey tenantId' customerId' minute') = true := by
      rw [hkey, Function.update_self]
    cases htrue.symm.trans hdropped
  · have hbefore : s.dropped (Py.rateLimitKey tenantId' customerId' minute') = false := by
      rw [← hdropped]
      exact (Function.update_of_ne hkey true s.dropped).symm
    have hsame : Function.update s.desk.usage.ints (Py.rateLimitKey tenantId customerId minute) none
        (Py.rateLimitKey tenantId' customerId' minute') =
          s.desk.usage.ints (Py.rateLimitKey tenantId' customerId' minute') :=
      Function.update_of_ne hkey none s.desk.usage.ints
    change _ ≤ (Function.update s.desk.usage.ints _ none _).getD 0
    rw [hsame]
    exact h.counted tenantId' customerId' minute' hbefore

theorem kept_advance (h : Kept limit s) {client : Client} (hfits : client.Fits limit s.desk.toRedis)
    (hunraced : Unraced s client) (hstep : advance s i client = some t) : Kept limit t := by
  cases client with
  | idle => cases hstep
  | located call budgetKey =>
    obtain rfl := Option.some.inj hstep
    exact h.become ⟨fun _ _ hroom => (by cases hroom), fun call' key hkey => by
      cases hkey
      exact hfits.limitKey call budgetKey rfl⟩
  | counted call budgetKey requests =>
    have hlimit : maxRpm s.desk.toRedis call.tenantId call.args.customerId budgetKey =
        limit call.tenantId call.args.customerId := by
      rw [hfits.limitKey call budgetKey rfl]
      exact h.limits call.tenantId call.args.customerId
    unfold advance at hstep
    dsimp only at hstep
    rw [hlimit] at hstep
    split_ifs at hstep with hfull
    · obtain rfl := Option.some.inj hstep
      exact h.answer (by simp)
    · obtain rfl := Option.some.inj hstep
      refine h.become ⟨fun call' requests' hroom hpos => ?_, fun _ _ hkey => (by cases hkey)⟩
      cases hroom
      exact not_le.mp fun hle => hfull ⟨hpos, hle⟩
  | admitted call requests =>
    unfold advance at hstep
    dsimp only at hstep
    split at hstep
    · obtain rfl := Option.some.inj hstep
      exact h.allow (hfits.of_room rfl rfl)
    · split_ifs at hstep
      · obtain rfl := Option.some.inj hstep
        exact h.cacheSnapshot.answer (by simp [decisionOn])
      · obtain rfl := Option.some.inj hstep
        exact h.cacheSnapshot.answer (by simp [decisionOn])
      · obtain rfl := Option.some.inj hstep
        exact h.cacheSnapshot.become (hfits.of_room rfl rfl)
  | funded call requests snap =>
    unfold advance at hstep
    dsimp only at hstep
    split at hstep
    · obtain rfl := Option.some.inj hstep
      exact h.answer (by simp [decisionOn])
    · obtain rfl := Option.some.inj hstep
      exact h.become (hfits.of_room rfl rfl)
  | capped call requests snap =>
    unfold advance at hstep
    dsimp only at hstep
    split at hstep
    · obtain rfl := Option.some.inj hstep
      exact h.answer (by simp [decisionOn])
    · obtain rfl := Option.some.inj hstep
      exact h.allow (hfits.of_room rfl rfl)
  | counting call requests decision =>
    obtain rfl := Option.some.inj hstep
    exact h.count (hfits.room call requests rfl) hunraced.1 hunraced.2

theorem kept_step {a : Action} (h : Kept limit s) (hserial : Serial s a)
    (hstep : step s a = some t) : Kept limit t := by
  cases a with
  | begin i call =>
    unfold step at hstep
    dsimp only at hstep
    split at hstep
    · obtain rfl := Option.some.inj hstep
      refine h.become ⟨fun _ _ hroom => (by cases hroom), fun call' key hkey => ?_⟩
      cases hkey
      rfl
    · cases hstep
  | advance i => exact kept_advance h (h.fits i) hserial hstep
  | fail i applied =>
    obtain ⟨call, hcall, rfl⟩ := Option.map_eq_some_iff.mp hstep
    have hinterrupted : Kept limit (interrupted s applied (s.clients i)) := by
      unfold interrupted
      split
      · split_ifs
        · exact h.increment
        · exact h
      · exact h
    have hdenied : (checkFallback s.desk call.tenantId call.args).allowed = false :=
      hserial call hcall
    exact hinterrupted.answer (by simp [hdenied])
  | drop tenantId customerId minute => exact h.drop hstep

end Kept

section Alone
variable {s t : State} {i : ℕ} {call : Call} {answers : List Answer} {r : Desk × Option Decision}
  {requests : ℤ} {snap : Snapshot}

/-- Left alone, the client leaves the desk of `r` and answers with its decision. -/
def Returns (s : State) (i : ℕ) (call : Call) (answers : List Answer) (r : Desk × Option Decision) :
    Prop :=
  ∃ t d, Leads step (.advance i) s t ∧ t.clients i = .idle ∧
    r.2 = some d ∧ t.desk = r.1 ∧ t.answers = ⟨call, d⟩ :: answers

theorem become_clients (client : Client) : (s.become i client).clients i = client :=
  Function.update_self (β := fun _ => Client) i client s.clients

theorem returns_next {client : Client} (hclient : s.clients i = client)
    (hstep : advance s i client = some t) (h : Returns t i call answers r) :
    Returns s i call answers r := by
  obtain ⟨u, d, hleads, hrest⟩ := h
  have hfirst : step s (.advance i) = some t := by
    unfold step
    dsimp only
    rw [hclient, hstep]
  exact ⟨u, d, hleads.head hfirst, hrest⟩

theorem returns_answer (d : Decision) :
    Returns (s.answer i call d) i call s.answers (s.desk, some d) :=
  ⟨s.answer i call d, d, Leads.refl _ _,
    Function.update_self (β := fun _ => Client) i .idle s.clients, rfl, rfl, rfl⟩

theorem returns_allow (d : Decision) :
    Returns (s.allow i call requests d) i call s.answers
      (countAllowed s.desk call.rpmKey call.args none d) := by
  unfold State.allow countAllowed
  cases hcount : call.args.countRequest with
  | false => exact returns_answer d
  | true =>
    rw [if_pos rfl]
    exact returns_next (become_clients _) rfl (returns_answer _)

private theorem returns_capped (hclient : s.clients i = .capped call requests snap) :
    Returns s i call s.answers
      (match (given call.args.keyId).bind fun id =>
          checkApiKeyBudget s.desk id call.estimate call.args.nowMs with
        | some d =>
          (s.desk, some { decisionOn snap requests false d.reason with apiKey := some d })
        | none =>
          countAllowed s.desk call.rpmKey call.args none (decisionOn snap requests true "ok")) := by
  cases hkey : (given call.args.keyId).bind fun id =>
      checkApiKeyBudget s.desk id call.estimate call.args.nowMs with
  | some d =>
    refine returns_next hclient ?_ (returns_answer _)
    unfold advance
    dsimp only
    rw [hkey]
  | none =>
    refine returns_next hclient ?_ (@returns_allow s i call requests _)
    unfold advance
    dsimp only
    rw [hkey]

private theorem returns_funded (hclient : s.clients i = .funded call requests snap) :
    Returns s i call s.answers
      (match hierarchyDenial s.desk call.tenantId call.args.parentSpanId call.args.sessionId
          call.estimate with
        | some d =>
          (s.desk, some { decisionOn snap requests false "hierarchy_cap" with hierarchy := some d })
        | none =>
          match (given call.args.keyId).bind fun id =>
              checkApiKeyBudget s.desk id call.estimate call.args.nowMs with
          | some d =>
            (s.desk, some { decisionOn snap requests false d.reason with apiKey := some d })
          | none =>
            countAllowed s.desk call.rpmKey call.args none (decisionOn snap requests true "ok")) := by
  cases hdenial : hierarchyDenial s.desk call.tenantId call.args.parentSpanId call.args.sessionId
      call.estimate with
  | some d =>
    refine returns_next hclient ?_ (returns_answer _)
    unfold advance
    dsimp only
    rw [hdenial]
  | none =>
    have hstep : advance s i (.funded call requests snap) =
        some (s.become i (.capped call requests snap)) := by
      unfold advance
      dsimp only
      rw [hdenial]
    exact returns_next hclient hstep (returns_capped (become_clients _))

private theorem returns_snapshot (hclient : s.clients i = .admitted call requests)
    (hsnap : (s.desk.budgets (budgetPrefixForRead s.desk.toRedis call.tenantId
      call.args.customerId)).snapshot call.args.customerId = some snap) :
    Returns s i call s.answers
      (checkSnapshot s.desk call.tenantId call.args none call.rpmKey requests snap) := by
  unfold checkSnapshot
  dsimp only
  by_cases hempty : snap.effectiveBalanceUsd ≤ 0
  · rw [if_pos hempty]
    refine returns_next hclient ?_ (returns_answer (s := s.cacheSnapshot call snap) _)
    unfold advance
    dsimp only
    rw [hsnap]
    exact if_pos hempty
  rw [if_neg hempty]
  by_cases hshort : snap.effectiveBalanceUsd < call.estimate
  · rw [if_pos (by exact hshort)]
    refine returns_next hclient ?_ (returns_answer (s := s.cacheSnapshot call snap) _)
    unfold advance
    dsimp only
    rw [hsnap]
    exact (if_neg hempty).trans (if_pos hshort)
  have hstep : advance s i (.admitted call requests) =
      some ((s.cacheSnapshot call snap).become i (.funded call requests snap)) := by
    unfold advance
    dsimp only
    rw [hsnap]
    exact (if_neg hempty).trans (if_neg hshort)
  rw [if_neg (by exact hshort)]
  simp only [reduceCtorEq, false_and, if_false]
  exact returns_next hclient hstep (returns_funded (become_clients _))

private theorem returns_unconfigured (hclient : s.clients i = .admitted call requests)
    (hsnap : (s.desk.budgets (budgetPrefixForRead s.desk.toRedis call.tenantId
      call.args.customerId)).snapshot call.args.customerId = none) :
    Returns s i call s.answers
      (countAllowed s.desk call.rpmKey call.args none
        { allowed := true, reason := "no_budget_configured", requestsThisMinute := some requests
          source := "redis" }) := by
  refine returns_next hclient ?_ (@returns_allow s i call requests _)
  unfold advance
  dsimp only
  rw [hsnap]

/-- A check that no other command interrupts is `checkRedis`. -/
theorem check_alone (hidle : s.clients i = .idle) :
    ∃ t, step s (.begin i call) = some t ∧
      Returns t i call s.answers (checkRedis s.desk call.tenantId call.args none) := by
  refine ⟨_, by unfold step; dsimp only; rw [hidle], ?_⟩
  refine returns_next (become_clients _) rfl ?_
  unfold checkRedis
  dsimp only
  rw [if_neg (by simp)]
  by_cases hfull : 0 < maxRpmOf s.desk.toRedis call.tenantId call.args.customerId ∧
      maxRpmOf s.desk.toRedis call.tenantId call.args.customerId ≤ s.requests call.rpmKey
  · rw [if_pos (by exact hfull)]
    exact returns_next (become_clients _) (if_pos hfull) (returns_answer _)
  rw [if_neg (by exact hfull), if_neg (by simp)]
  refine returns_next (become_clients _) (if_neg hfull) ?_
  cases hsnap : (s.desk.budgets (budgetPrefixForRead s.desk.toRedis call.tenantId
      call.args.customerId)).snapshot call.args.customerId with
  | some snap => exact returns_snapshot (become_clients _) hsnap
  | none => exact returns_unconfigured (become_clients _) hsnap

end Alone

/-- Where no call is counted between the reading of another and its counting, at most `max_rpm`
requests are allowed in a minute. -/
theorem at_most_max_rpm {s t : State} {as : List Action} (hs : Fresh s)
    (hserial : Guarded step Serial s as) (hrun : run step s as = some t) :
    Limited (maxRpmOf s.desk.toRedis) t :=
  (guarded_invariant (fun _ _ _ h hserial hstep => kept_step h hserial hstep) hs.kept hserial
    hrun).limited

/-- A request of the customer `c1` in the first minute. -/
def requestOfC1 : Call := ⟨none, { customerId := "c1", clock := fun _ => 0 }⟩

def onePerMinute : State :=
  { desk := { budgets := fun k => if k = ⟨none, "c1"⟩ then { maxRpm := some 1 } else {} } }

theorem fresh_onePerMinute : Fresh onePerMinute := ⟨fun _ => rfl, rfl, fun _ => le_refl 0⟩

theorem at_most_max_rpm_serial : ∃ t, run step onePerMinute
    [.begin 0 requestOfC1, .advance 0, .advance 0, .advance 0, .advance 0,
      .begin 1 requestOfC1, .advance 1, .advance 1] = some t ∧
    Limited (maxRpmOf onePerMinute.desk.toRedis) t := by
  obtain ⟨t, hrun⟩ : ∃ t, run step onePerMinute
      [.begin 0 requestOfC1, .advance 0, .advance 0, .advance 0, .advance 0,
        .begin 1 requestOfC1, .advance 1, .advance 1] = some t :=
    Option.isSome_iff_exists.mp (by decide +kernel)
  exact ⟨t, hrun, at_most_max_rpm fresh_onePerMinute (by decide +kernel) hrun⟩

/-- Two checks read the counter before either has counted: both are allowed. -/
theorem not_at_most_max_rpm : Fresh onePerMinute ∧
    maxRpmOf onePerMinute.desk.toRedis none "c1" = 1 ∧
    (run step onePerMinute
      [.begin 0 requestOfC1, .begin 1 requestOfC1, .advance 0, .advance 1, .advance 0, .advance 1,
        .advance 0, .advance 1, .advance 0, .advance 1]).map (fun t => t.allowedIn none "c1" 0) =
      some 2 := by
  exact ⟨fresh_onePerMinute, by decide +kernel, by decide +kernel⟩

end FluxMeter.Budget.RateLimit
