import FluxMeter.Budget.Check

/-! One admission decision, coded three times: `Budget.check` in Python, `RESERVE_SCRIPT` and
`OPEN_SCRIPT` in Lua. Each is brought to the decision on what the customer has left and on the row of
the span. -/
namespace FluxMeter.Budget
open FluxMeter.Keys

/-- What a caller is told, with the cause of a denial. -/
inductive Verdict
  | allowed
  | customerBalance
  | spanCap
  | other
  deriving DecidableEq, Repr

def Decision.verdict (d : Decision) : Verdict :=
  if d.allowed then .allowed
  else if d.reason = "budget_exhausted" ∨ d.reason = "insufficient_balance" then .customerBalance
  else if d.reason = "hierarchy_cap" then .spanCap
  else .other

def ReserveReply.verdict : ReserveReply → Verdict
  | .reserved .. => .allowed
  | .insufficientBalance .. => .customerBalance
  | .hierarchyReserve .. => .spanCap
  | .invalid | .noBudget => .other

def OpenReply.verdict : OpenReply → Verdict
  | .opened .. | .existing => .allowed
  | .insufficientBalance .. => .customerBalance
  | .hierarchyReserve .. => .spanCap
  | .invalid | .conflict | .noBudget => .other

/-- The cap of the span is too small for the estimate. -/
def SpanRow.exceeded (row : SpanRow) (estimate : ℚ) : Bool :=
  row.maxCostUsd.any fun cap => cap < number row.costUsd + number row.heldUsd + estimate

/-- The decision on what the customer has left and on the span, where there is one. -/
def admission (left estimate : ℚ) (span : Option SpanRow) : Verdict :=
  if left < estimate then .customerBalance
  else if span.any fun row => row.exceeded estimate then .spanCap
  else .allowed

/-- No limit on the requests of the customer and no cap on the session or the API key, where the
check names them. -/
structure Uncapped (s : Desk) (tenantId : Option String) (a : CheckArgs) : Prop where
  requests : ∀ k ∈ [budgetPrefix tenantId a.customerId,
    budgetPrefixForRead s.toRedis tenantId a.customerId], ∀ n ∈ (s.budgets k).maxRpm, n ≤ 0
  session : ∀ id ∈ a.sessionId,
    (sessionRow s.usage (sessionPrefixForRead s.usage tenantId id)).maxCostUsd = none
  apiKey : ∀ id ∈ a.keyId, ∀ caps ∈ s.apiKeys id,
    caps.dailyBudgetUsd = none ∧ caps.monthlyBudgetUsd = none

section Decision
variable {r : Redis} {tenantId parentSpanId : Option String} {customerId : String}
  {balance estimate : ℚ}

/-- The row of the span that admission reads. -/
def spanRow (r : Redis) (tenantId parentSpanId : Option String) : Option SpanRow :=
  (Reservation.scope r tenantId parentSpanId).map r.spans

private theorem admitSpan_cases (r : Redis) (span : Option SpanKey) (estimate : ℚ) :
    ((span.map r.spans).any (fun row => row.exceeded estimate) = true ∧
      ∃ e, admitSpan r span estimate = .error e) ∨
    ((span.map r.spans).any (fun row => row.exceeded estimate) = false ∧
      ∃ a, admitSpan r span estimate = .ok a) := by
  cases span with
  | none => exact Or.inr ⟨rfl, _, rfl⟩
  | some s =>
    rw [Option.map_some, Option.any_some]
    unfold SpanRow.exceeded admitSpan Redis.spanHeld
    dsimp only
    cases hcap : (r.spans s).maxCostUsd with
    | none => exact Or.inr ⟨rfl, _, rfl⟩
    | some cap =>
      rw [Option.any_some]
      dsimp only
      by_cases hover : cap < number (r.spans s).costUsd + number (r.spans s).heldUsd + estimate
      · rw [if_pos hover]
        exact Or.inl ⟨decide_eq_true hover, _, rfl⟩
      · rw [if_neg hover]
        exact Or.inr ⟨decide_eq_false hover, _, rfl⟩

theorem admission_of_admitSpan (left : ℚ) : admission left estimate (spanRow r tenantId parentSpanId) =
    if left < estimate then .customerBalance
    else match admitSpan r (Reservation.scope r tenantId parentSpanId) estimate with
      | .error _ => .spanCap
      | .ok _ => .allowed := by
  unfold admission spanRow
  obtain ⟨hover, e, he⟩ | ⟨hfits, a, ha⟩ :=
    admitSpan_cases r (Reservation.scope r tenantId parentSpanId) estimate
  · rw [hover, he, if_pos rfl]
  · rw [hfits, ha, if_neg Bool.false_ne_true]

variable (parentSpanId) in
theorem reserve_verdict (hbalance : (r.budgets (budgetPrefixForRead r (stripTenant tenantId)
      customerId)).balanceUsd = some balance) (hestimate : 0 < estimate) :
    (Reservation.reserve r tenantId customerId estimate parentSpanId).2.verdict =
      admission (balance - r.held (budgetPrefixForRead r (stripTenant tenantId) customerId)) estimate
        (spanRow r (stripTenant tenantId) parentSpanId) := by
  unfold Reservation.reserve reserveScript
  rw [if_neg (not_le.mpr hestimate)]
  dsimp only
  rw [hbalance]
  dsimp only
  rw [admission_of_admitSpan]
  split_ifs
  · rfl
  · cases admitSpan r (Reservation.scope r (stripTenant tenantId) parentSpanId) estimate <;> rfl

variable (parentSpanId) in
theorem open_verdict (hbalance : (r.budgets (budgetPrefixForRead r (stripTenant tenantId)
      customerId)).balanceUsd = some balance) (hestimate : 0 < estimate) {reservationId : String}
    (hfresh : r.reservations.get reservationId = none) (expiresAt : Option ℚ) (clock : ℚ) :
    (Reservation.openHold r tenantId reservationId customerId estimate parentSpanId expiresAt
      clock).2.verdict =
      admission (balance - r.held (budgetPrefixForRead r (stripTenant tenantId) customerId)) estimate
        (spanRow r (stripTenant tenantId) parentSpanId) := by
  unfold Reservation.openHold openScript
  rw [if_neg (not_le.mpr hestimate)]
  dsimp only
  rw [hfresh]
  dsimp only
  rw [hbalance]
  dsimp only
  rw [admission_of_admitSpan]
  split_ifs
  · rfl
  · cases admitSpan r (Reservation.scope r (stripTenant tenantId) parentSpanId) estimate <;> rfl

/-! ### The check -/

private theorem scopeDenial_isSome (scope scopeId : String) (row : SpanRow) (estimate : ℚ) :
    (scopeDenial scope scopeId row estimate).isSome = row.exceeded estimate := by
  unfold scopeDenial SpanRow.exceeded
  cases row.maxCostUsd with
  | none => rfl
  | some cap =>
    rw [Option.any_some]
    dsimp only
    split_ifs with hover
    · exact (decide_eq_true hover).symm
    · exact (decide_eq_false hover).symm

theorem hierarchyDenial_isSome (s : Desk) (tenantId parentSpanId sessionId : Option String)
    (estimate : ℚ) (hsession : ∀ id ∈ sessionId,
      (sessionRow s.usage (sessionPrefixForRead s.usage tenantId id)).maxCostUsd = none) :
    (hierarchyDenial s tenantId parentSpanId sessionId estimate).isSome =
      (spanRow s.toRedis tenantId parentSpanId).any fun row => row.exceeded estimate := by
  have hnone : ((given sessionId).bind fun id => scopeDenial "session" id
      (sessionRow s.usage (sessionPrefixForRead s.usage tenantId id)) estimate) = none := by
    rw [Option.bind_eq_none_iff]
    intro id hid
    obtain ⟨hid, -⟩ := Option.filter_eq_some_iff.mp hid
    unfold scopeDenial
    rw [hsession id hid]
  unfold hierarchyDenial spanRow Reservation.scope
  rw [hnone]
  cases parentSpanId with
  | none => rfl
  | some id =>
    by_cases hid : id = ""
    · subst hid
      rfl
    · have hgiven : given (some id) = some id := by simp [given, hid]
      dsimp only
      rw [hgiven, if_neg hid, Option.bind_some, Option.map_some, Option.any_some,
        ← scopeDenial_isSome "span" id]
      cases scopeDenial "span" id _ estimate <;> rfl

private theorem checkApiKeyBudget_none {s : Desk} {id : String} (h : ∀ caps ∈ s.apiKeys id,
    caps.dailyBudgetUsd = none ∧ caps.monthlyBudgetUsd = none) (estimate : ℚ) (nowMs : ℤ) :
    checkApiKeyBudget s id estimate nowMs = none := by
  unfold checkApiKeyBudget
  rw [Option.bind_eq_none_iff]
  intro caps hcaps
  obtain ⟨hdaily, hmonthly⟩ := h caps hcaps
  rw [hdaily, hmonthly]
  rfl

private theorem verdict_countAllowed (s : Desk) (rpmKey : String) (a : CheckArgs) {d : Decision}
    (hallowed : d.allowed = true) :
    ∃ d', (countAllowed s rpmKey a none d).2 = some d' ∧ d'.verdict = .allowed := by
  unfold countAllowed
  split_ifs
  · exact ⟨d, rfl, by simp [Decision.verdict, hallowed]⟩
  · exact ⟨_, rfl, by simp [Decision.verdict, hallowed]⟩

private theorem checkSnapshot_verdict {s : Desk} {a : CheckArgs} (hestimate : 0 < a.estimatedCostUsd)
    (h : Uncapped s tenantId a) (rpmKey : String) (requests : ℤ) (snap : Snapshot) :
    ∃ d, (checkSnapshot s tenantId a none rpmKey requests snap).2 = some d ∧
      d.verdict = admission snap.effectiveBalanceUsd a.estimatedCostUsd
        (spanRow s.toRedis tenantId a.parentSpanId) := by
  have hmax : max 0 a.estimatedCostUsd = a.estimatedCostUsd := max_eq_right hestimate.le
  unfold checkSnapshot
  rw [hmax]
  dsimp only
  set cached : Desk := { s with
    cache := Function.update s.cache (cacheKey tenantId a.customerId)
      (some ⟨snap.balanceUsd, snap.heldUsd, a.clock 1⟩) } with hcached
  have hdenial := hierarchyDenial_isSome cached tenantId a.parentSpanId a.sessionId
    a.estimatedCostUsd h.session
  have hrow : spanRow cached.toRedis tenantId a.parentSpanId =
      spanRow s.toRedis tenantId a.parentSpanId := rfl
  have hkey : ((given a.keyId).bind fun id =>
      checkApiKeyBudget cached id a.estimatedCostUsd a.nowMs) = none := by
    rw [Option.bind_eq_none_iff]
    intro id hid
    obtain ⟨hid, -⟩ := Option.filter_eq_some_iff.mp hid
    exact checkApiKeyBudget_none (h.apiKey id hid) _ _
  rw [hrow] at hdenial
  unfold admission
  by_cases hleft : snap.effectiveBalanceUsd < a.estimatedCostUsd
  · rw [if_pos hleft, if_pos hleft]
    split_ifs
    · exact ⟨_, rfl, rfl⟩
    · exact ⟨_, rfl, rfl⟩
  · have hpositive : ¬ snap.effectiveBalanceUsd ≤ 0 :=
      fun h => hleft (lt_of_le_of_lt h hestimate)
    rw [if_neg hpositive, if_neg hleft, if_neg hleft, if_neg (by simp)]
    rw [← hdenial]
    cases hierarchyDenial cached tenantId a.parentSpanId a.sessionId a.estimatedCostUsd with
    | some denial => exact ⟨_, rfl, rfl⟩
    | none =>
      rw [if_neg (by simp), if_neg (by simp)]
      dsimp only
      rw [hkey]
      exact verdict_countAllowed cached rpmKey a rfl

private theorem checkRedis_unlimited {s : Desk} {a : CheckArgs}
    (h : Uncapped s tenantId a) {snap : Snapshot}
    (hsnap : (s.budgets (budgetPrefixForRead s.toRedis tenantId a.customerId)).snapshot a.customerId =
      some snap) :
    checkRedis s tenantId a none = checkSnapshot s tenantId a none
      (Py.rateLimitKey tenantId a.customerId (truncate (a.clock 0) / 60))
      ((s.usage.ints (Py.rateLimitKey tenantId a.customerId (truncate (a.clock 0) / 60))).getD 0)
      snap := by
  have hlimit : ((s.budgets (budgetPrefix tenantId a.customerId)).maxRpm <|>
      if budgetPrefixForRead s.toRedis tenantId a.customerId ≠ budgetPrefix tenantId a.customerId then
        (s.budgets (budgetPrefixForRead s.toRedis tenantId a.customerId)).maxRpm
      else none).getD 0 ≤ 0 := by
    cases hwrite : (s.budgets (budgetPrefix tenantId a.customerId)).maxRpm with
    | some n => exact h.requests _ List.mem_cons_self n hwrite
    | none =>
      rw [Option.orElse_eq_orElse, Option.orElse_none]
      split_ifs
      · cases hread : (s.budgets (budgetPrefixForRead s.toRedis tenantId a.customerId)).maxRpm with
        | some n => exact h.requests _ (List.mem_cons_of_mem _ List.mem_cons_self) n hread
        | none => exact le_refl 0
      · exact le_refl 0
  unfold checkRedis
  dsimp only
  rw [if_neg (by simp), if_neg (fun hlimited => not_le.mpr hlimited.1 hlimit), if_neg (by simp),
    hsnap]

end Decision

/-- The check, a reserve and the opening of a fresh reservation decide alike, and name the same cause
when they deny: the balance of the customer or the cap of the span. -/
theorem decisions_agree (s : Desk) (tenantId : Option String) (a : CheckArgs)
    (reservationId : String) (expiresAt : Option ℚ) (clock : ℚ) (hestimate : 0 < a.estimatedCostUsd)
    (hreadable : (snapshot s.toRedis tenantId a.customerId).isSome)
    (huncapped : Uncapped s (stripTenant tenantId) a)
    (hfresh : s.reservations.get reservationId = none) :
    (check s tenantId a none).2.verdict =
        (Reservation.reserve s.toRedis tenantId a.customerId a.estimatedCostUsd
          a.parentSpanId).2.verdict ∧
      (check s tenantId a none).2.verdict =
        (Reservation.openHold s.toRedis tenantId reservationId a.customerId a.estimatedCostUsd
          a.parentSpanId expiresAt clock).2.verdict ∧
      (check s tenantId a none).2.verdict ≠ .other := by
  obtain ⟨snap, hsnap⟩ := Option.isSome_iff_exists.mp hreadable
  unfold snapshot BudgetRow.snapshot at hsnap
  obtain ⟨balance, hbalance, hsnapshot⟩ := Option.map_eq_some_iff.mp hsnap
  have hleft : snap.effectiveBalanceUsd = balance -
      s.held (budgetPrefixForRead s.toRedis (stripTenant tenantId) a.customerId) := by
    rw [← hsnapshot]
    rfl
  have hcheck : (check s tenantId a none).2.verdict =
      admission (balance - s.held (budgetPrefixForRead s.toRedis (stripTenant tenantId) a.customerId))
        a.estimatedCostUsd (spanRow s.toRedis (stripTenant tenantId) a.parentSpanId) := by
    rw [← hleft]
    unfold check
    rw [checkRedis_unlimited huncapped hsnap]
    obtain ⟨d, hd, hverdict⟩ := checkSnapshot_verdict hestimate huncapped
      (Py.rateLimitKey (stripTenant tenantId) a.customerId (truncate (a.clock 0) / 60))
      ((s.usage.ints (Py.rateLimitKey (stripTenant tenantId) a.customerId
        (truncate (a.clock 0) / 60))).getD 0) snap
    split
    next heq =>
      rw [heq] at hd
      rw [Option.some.inj hd]
      exact hverdict
    next heq =>
      rw [heq] at hd
      cases hd
  rw [hcheck, reserve_verdict a.parentSpanId hbalance hestimate,
    open_verdict a.parentSpanId hbalance hestimate hfresh expiresAt clock]
  refine ⟨rfl, rfl, ?_⟩
  unfold admission
  split_ifs <;> decide

/-- Ten dollars with four held, and a span of seven dollars that has spent three. -/
def tightSpan : Desk where
  budgets _ := { balanceUsd := some 10, heldUsd := some 4 }
  spans _ := { costUsd := some 3, maxCostUsd := some 7 }

/-- A check for an estimate under the span `s1`. -/
def plainCheck (estimatedCostUsd : ℚ) : CheckArgs where
  customerId := "c1"
  estimatedCostUsd := estimatedCostUsd
  parentSpanId := some "s1"
  clock _ := 0

/-- Five dollars are left to the customer, but not to the span. -/
theorem decisions_agree_tightSpan :
    (check tightSpan none (plainCheck 5) none).2.verdict = .spanCap ∧
      (Reservation.reserve tightSpan.toRedis none "c1" 5 (some "s1")).2.verdict = .spanCap ∧
      (Reservation.openHold tightSpan.toRedis none "r1" "c1" 5 (some "s1") none 0).2.verdict =
        .spanCap := by
  have huncapped : Uncapped tightSpan none (plainCheck 5) := by
    constructor
    case requests =>
      intro k _ n hn
      cases hn
    case session =>
      intro id hid
      cases hid
    case apiKey =>
      intro id hid
      cases hid
  have hcheck : (check tightSpan none (plainCheck 5) none).2.verdict = .spanCap := by decide +kernel
  obtain ⟨hreserve, hopen, -⟩ := decisions_agree tightSpan none (plainCheck 5) "r1" none 0
    (by decide) rfl huncapped rfl
  exact ⟨hcheck, hreserve.symm.trans hcheck, hopen.symm.trans hcheck⟩

end FluxMeter.Budget
