import FluxMeter.Gateway.ProxiedCompletion

/-! Whether every admitted completion closes its reservation once. A stream does, because its
`finally` block runs on every exit; a plain request does only where an answer arrives and, unless it
is an error, can be read. -/
namespace FluxMeter.Gateway
open FluxMeter.Budget FluxMeter.Custody FluxMeter.Wire

/-- Custody makes of the event the usage event `res:{id}`, in an envelope with the reservation. -/
def CarriesReservation (py : Python) (rid : String) (eventDict : Dict) (ctx : CustodyContext) :
    Prop :=
  ∀ clock receivedAt traceId, ∃ payload hash fields,
    preparePayload py eventDict ctx.tenantId ctx.reservationId clock = some (payload, hash) ∧
    payload.get "eventId" = some (.str ("res:" ++ rid)) ∧
    trustedEnvelope payload
      { tenantId := ctx.tenantId, apiKeyId := ctx.apiKeyId, receivedAt := receivedAt,
        source := ctx.source, traceId := traceId, reservationId := ctx.reservationId,
        reservedUsd := ctx.reservedUsd } = some fields ∧
    fields.get "payload" = some (.obj payload) ∧
    Json.path (fields.get "reservation") "reservationId" = some (.str rid)

/-- The reservation is closed by one action: it is settled and its record is gone, or its usage
event is handed to Custody. -/
def ClosedOnce (py : Python) (rid : String) (p : Progress) : Prop :=
  (p.closings = [.settle rid] ∧ p.store.reservations.get rid = none) ∨
  ∃ eventDict ctx, p.closings = [.custody eventDict ctx] ∧ CarriesReservation py rid eventDict ctx

/-- An answer to a plain request that `_non_stream` gets through: an error status, or a body whose
usage can be read. -/
def Answered (py : Python) : Post → Prop
  | .raises => False
  | .response status json => 400 ≤ status ∨ ∃ body, json = some body ∧ (usageOf py body).isSome = true

variable {c : ProxiedCompletion} {py : Python} {quote : ℤ → ℤ → ℚ} {p : Progress} {nowMs : ℤ}

private theorem usageEvent_get (c : ProxiedCompletion) (nowMs input output : ℤ) (killed : Bool) :
    (c.usageEvent input output killed nowMs).get "customerId" = some (.str c.customerId) ∧
    (c.usageEvent input output killed nowMs).get "timestamp" = some (.num nowMs) := by
  unfold ProxiedCompletion.usageEvent
  simp [Dict.get_cons]

private theorem ingest_carries (input output : ℤ) (killed : Bool) :
    CarriesReservation py c.reservationId (c.usageEvent input output killed nowMs)
      { tenantId := c.tenantId, apiKeyId := c.keyId, source := "gateway",
        reservationId := some c.reservationId, reservedUsd := c.reservedUsd } := by
  intro clock receivedAt traceId
  obtain ⟨hcustomer, htime⟩ := usageEvent_get c nowMs input output killed
  have hgiven : Custody.given (some c.reservationId) = true := by
    simpa [Custody.given] using c.reservationId_ne
  have hid : resolveCustodyEventId py (c.usageEvent input output killed nowMs)
      (some c.reservationId) = some ("res:" ++ c.reservationId) := if_pos hgiven
  have hcustomer' : (Dict.set (c.usageEvent input output killed nowMs) "eventId"
      (.str ("res:" ++ c.reservationId))).get "customerId" = some (.str c.customerId) := by
    rw [Dict.get_set, if_neg (by decide), hcustomer]
  have htime' : (Dict.set (c.usageEvent input output killed nowMs) "eventId"
      (.str ("res:" ++ c.reservationId))).get "timestamp" = some (.num nowMs) := by
    rw [Dict.get_set, if_neg (by decide), htime]
  have hprepare : preparePayload py (c.usageEvent input output killed nowMs) c.tenantId
      (some c.reservationId) clock = some (Dict.set (c.usageEvent input output killed nowMs)
        "eventId" (.str ("res:" ++ c.reservationId)), py.canonicalPayloadHash (Dict.set
          (c.usageEvent input output killed nowMs) "eventId" (.str ("res:" ++ c.reservationId)))
        c.tenantId) := by
    unfold preparePayload
    rw [hid, Option.map_some]
    dsimp only
    rw [htime']
    rfl
  refine ⟨_, _, _, hprepare, ?_, congrArg (Option.map _) hcustomer', rfl, ?_⟩
  · rw [Dict.get_set, if_pos rfl]
  · rw [if_pos hgiven]
    simp [Dict.get_cons, Dict.get_opt, Json.path, Json.ofOption]

/-! ### The two ways -/

theorem closedOnce_settle (store : Redis) :
    ClosedOnce py c.reservationId (c.settle { store := store }) := by
  left
  refine ⟨rfl, ?_⟩
  have hgone := close_reservations store c.reservationId c.reservationId
  rw [if_pos rfl] at hgone
  exact hgone

theorem closedOnce_ingest (input output : ℤ) (killed : Bool) (store : Redis) :
    ClosedOnce py c.reservationId (c.ingest input output killed nowMs { store := store }) :=
  Or.inr ⟨_, _, rfl, ingest_carries input output killed⟩

theorem not_closedOnce_nil (rid : String) (store : Redis) :
    ¬ ClosedOnce py rid { store := store } := by
  rintro (⟨hclosings, -⟩ | ⟨eventDict, ctx, hclosings, -⟩)
  · simp at hclosings
  · simp at hclosings

theorem closedOnce_nonStream_iff (post : Post) (store : Redis) :
    ClosedOnce py c.reservationId (c.nonStream py post nowMs { store := store }) ↔
      Answered py post := by
  cases post with
  | raises => exact ⟨fun h => absurd h (not_closedOnce_nil _ _), fun h => absurd h id⟩
  | response status json =>
    unfold ProxiedCompletion.nonStream Answered
    dsimp only
    by_cases herror : 400 ≤ status
    · rw [if_pos herror]
      exact ⟨fun _ => Or.inl herror, fun _ => closedOnce_settle store⟩
    rw [if_neg herror]
    cases husage : json.bind (usageOf py) with
    | none =>
      refine ⟨fun h => absurd h (not_closedOnce_nil _ _), ?_⟩
      rintro (h | ⟨body, rfl, hread⟩)
      · exact absurd h herror
      · rw [Option.bind_some] at husage
        simp [husage] at hread
    | some counts =>
      obtain ⟨body, rfl, hread⟩ := Option.bind_eq_some_iff.mp husage
      exact ⟨fun _ => Or.inr ⟨body, rfl, by simp [hread]⟩, fun _ => closedOnce_ingest _ _ _ store⟩

private theorem closedOnce_streamed (hreserved : 0 < c.reservedUsd) (upstream : Upstream)
    (store : Redis) :
    ClosedOnce py c.reservationId (c.streamed py quote upstream nowMs { store := store }) := by
  have hfinish : ∀ (u : StreamUsage) (store : Redis),
      ClosedOnce py c.reservationId (c.finish u nowMs { store := store }) := by
    intro u store
    unfold ProxiedCompletion.finish
    rw [if_pos (Or.inr (Or.inr hreserved))]
    exact closedOnce_ingest _ _ _ store
  cases upstream with
  | raises => exact hfinish {} store
  | opened status events =>
    unfold ProxiedCompletion.streamed
    dsimp only
    split_ifs with herror
    · exact closedOnce_settle store
    · exact hfinish _ _

private theorem reservedUsd_pos {clock : ℚ} {store : Redis} (h : c.admitted clock store = true) :
    0 < c.reservedUsd := by
  by_contra hnot
  have hinvalid : (Reservation.openHold store c.tenantId c.reservationId c.customerId c.reservedUsd
      c.parentSpanId none clock).2 = .invalid := by
    unfold Reservation.openHold
    rw [if_pos (not_lt.mp hnot)]
  unfold ProxiedCompletion.admitted at h
  rw [hinvalid] at h
  exact Bool.noConfusion h

/-- Every admitted completion closes its reservation once, exactly when it is streamed or its
upstream gives an answer that can be read. -/
theorem lifecycle_closedOnce_iff (c : ProxiedCompletion) (py : Python) (quote : ℤ → ℤ → ℚ)
    (o : Outcome) (nowMs : ℤ) (clock : ℚ) (store : Redis) {p : Progress}
    (h : c.lifecycle py quote o nowMs clock store = some p) :
    ClosedOnce py c.reservationId p ↔ c.stream = true ∨ Answered py o.post := by
  unfold ProxiedCompletion.lifecycle at h
  split_ifs at h with hadmitted
  rw [← Option.some.inj h]
  unfold ProxiedCompletion.run
  cases hstream : c.stream with
  | true =>
    rw [if_pos rfl]
    exact ⟨fun _ => Or.inl rfl, fun _ => closedOnce_streamed (reservedUsd_pos hadmitted) _ _⟩
  | false =>
    rw [if_neg Bool.false_ne_true, closedOnce_nonStream_iff]
    simp

/-- A customer with a dollar. -/
def oneDollar : Redis :=
  { budgets := fun k => if k = ⟨none, "cust_1"⟩ then { balanceUsd := some 1 } else {} }

def completion (stream : Bool) : ProxiedCompletion :=
  { customerId := "cust_1", model := "gpt-4o-mini", stream := stream, reservedUsd := 1 / 1000,
    reservationId := "8d1f0f52-51d1-4e2c-9a3e-1f1b6a7d1a10", reservationId_ne := by decide }

/-- The connection is lost in the middle of a stream. -/
theorem closedOnce_lost_stream : ∃ p, (completion true).lifecycle .ofEventId (fun _ _ => 0)
      ⟨.raises, .opened 200 [.block [.chunk (.obj [])] false 0, .fault]⟩ 0 0 oneDollar = some p ∧
    ClosedOnce .ofEventId (completion true).reservationId p := by
  have hadmitted : (completion true).admitted 0 oneDollar = true := by decide +kernel
  refine ⟨_, if_pos hadmitted, ?_⟩
  exact (lifecycle_closedOnce_iff (completion true) .ofEventId (fun _ _ => 0)
    ⟨.raises, .opened 200 [.block [.chunk (.obj [])] false 0, .fault]⟩ 0 0 oneDollar
    (if_pos hadmitted)).mpr (Or.inl rfl)

/-- A plain request whose upstream cannot be reached leaves the reservation open, with its hold. -/
theorem unreachable_upstream : ∃ p, (completion false).lifecycle .ofEventId (fun _ _ => 0)
      ⟨.raises, .raises⟩ 0 0 oneDollar = some p ∧
    p.closings = [] ∧ p.store.held ⟨none, "cust_1"⟩ = 1 / 1000 ∧
    ¬ ClosedOnce .ofEventId (completion false).reservationId p := by
  have hadmitted : (completion false).admitted 0 oneDollar = true := by decide +kernel
  exact ⟨_, if_pos hadmitted, rfl, by decide +kernel, not_closedOnce_nil _ _⟩

end FluxMeter.Gateway
