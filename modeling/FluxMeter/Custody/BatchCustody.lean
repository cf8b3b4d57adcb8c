import FluxMeter.Custody.BatchResults
import FluxMeter.Custody.Scripts
import FluxMeter.Collections.PartialMap

/-! Accepted means durably in Kafka: every position of a batch is answered, and one that is told to be
accepted has its payload acknowledged and its identity stored. -/
namespace FluxMeter.Custody
open Collections FluxMeter.Wire

/-- An event that `accept_many` takes: a non-empty event id, a customer, an integer timestamp or
none. -/
structure WellFormed (event : Dict) : Prop where
  eventId : ∃ id, event.get "eventId" = some (.str id) ∧ id ≠ ""
  customerId : ∃ id, event.get "customerId" = some (.str id)
  timestamp : ∀ value, event.get "timestamp" = some value → ∃ n, value = .num n

def stamped (event : Dict) (clock : ℤ) : Dict :=
  if (event.get "timestamp").isNone then Dict.set event "timestamp" (.num clock) else event

/-- `envelope["payload"]["eventId"]`. -/
def Message.eventId (m : Message) : Option Json :=
  Json.path (m.envelope.get "payload") "eventId"

/-- The payload of the message is the JSON document of the event, stamped. -/
def Message.Carries (m : Message) (py : Python) (tenantId : Option String) (event : Dict) : Prop :=
  ∃ payload clock, m.envelope.get "payload" = some (.obj (stamped payload clock)) ∧
    py.canonical payload (tenantOrDefault tenantId) =
      py.canonical event (tenantOrDefault tenantId)

section Stamped
variable {event : Dict} {clock : ℤ}

theorem stamped_get (event : Dict) (clock : ℤ) {key : String} (hkey : key ≠ "timestamp") :
    (stamped event clock).get key = event.get key := by
  unfold stamped
  split_ifs
  · rw [Dict.get_set, if_neg hkey]
  · rfl

theorem eventIdOf_stamped (event : Dict) (clock : ℤ) :
    eventIdOf (stamped event clock) = eventIdOf event := by
  unfold eventIdOf
  rw [stamped_get event clock (by decide)]

theorem WellFormed.eventIdOf (h : WellFormed event) :
    event.get "eventId" = some (.str (eventIdOf event)) ∧ eventIdOf event ≠ "" := by
  obtain ⟨id, hget, hne⟩ := h.eventId
  unfold Custody.eventIdOf
  rw [hget]
  exact ⟨rfl, hne⟩

theorem WellFormed.stamped_timestamp (h : WellFormed event) (clock : ℤ) :
    ∃ n, (stamped event clock).get "timestamp" = some (.num n) := by
  unfold stamped
  cases hget : event.get "timestamp" with
  | none =>
    refine ⟨clock, ?_⟩
    rw [Option.isNone_none, if_pos rfl, Dict.get_set, if_pos rfl]
  | some value =>
    obtain ⟨n, rfl⟩ := h.timestamp value hget
    exact ⟨n, by rw [if_neg (by simp), hget]⟩

end Stamped

namespace TokenEventCustody
variable {C : TokenEventCustody} {w : Surroundings} {events : List Dict} {s : IdentityStore}

def hashOf (C : TokenEventCustody) (event : Dict) : String :=
  C.py.canonicalPayloadHash event C.tenantId

def preparedAt (C : TokenEventCustody) (w : Surroundings) (p : Dict × ℕ) : Prepared :=
  { index := p.2, payload := stamped p.1 (w.prepareClock p.2), payloadHash := C.hashOf p.1 }

theorem eventId_preparedAt (p : Dict × ℕ) : (C.preparedAt w p).eventId = eventIdOf p.1 :=
  eventIdOf_stamped _ _

theorem prepare_wellFormed {event : Dict} (h : WellFormed event) (i : ℕ) :
    C.withoutReservation.prepare w i event = some (C.preparedAt w (event, i)) := by
  obtain ⟨hget, hne⟩ := h.eventIdOf
  have hresolve : resolveCustodyEventId C.py event none = some (eventIdOf event) := by
    unfold resolveCustodyEventId
    rw [if_neg (by simp [given]), hget]
    simp [truthy, hne, C.py.str_str]
  unfold prepare preparePayload withoutReservation
  dsimp only
  rw [hresolve, Option.map_some, Option.map_some, Dict.set_of_get hget]
  rfl

theorem prepareAll_wellFormed (h : ∀ e ∈ events, WellFormed e) :
    C.prepareAll w events = some (events.zipIdx.map (C.preparedAt w)) := by
  unfold prepareAll
  rw [mapM_eq_some_iff, List.forall₂_map_right_iff, List.forall₂_same]
  intro p hp
  obtain ⟨event, i⟩ := p
  have hmem : event ∈ events := by
    rw [List.mem_zipIdx_iff_getElem?] at hp
    exact List.mem_of_getElem? hp
  exact prepare_wellFormed (h event hmem) i

theorem own_isSome {p : Prepared} {n : ℤ} {customerId : Json}
    (htimestamp : p.payload.get "timestamp" = some (.num n))
    (hcustomer : p.payload.get "customerId" = some customerId) : (C.own w p).isSome := by
  unfold own timestampOf trustedEnvelope
  rw [htimestamp, Option.bind_some, C.py.int_num, hcustomer]
  rfl

private theorem payload_of_trustedEnvelope {payload envelope : Dict} {a : EnvelopeArgs}
    (h : trustedEnvelope payload a = some envelope) :
    envelope.get "payload" = some (.obj payload) := by
  unfold trustedEnvelope at h
  obtain ⟨customerId, -, rfl⟩ := Option.map_eq_some_iff.mp h
  simp [Dict.get_cons]

/-- The envelope of an owned event carries its payload. -/
theorem envelope_payload {p : Prepared} {o : Owned} (h : C.own w p = some o) :
    o.envelope.get "payload" = some (.obj o.payload) := by
  unfold own at h
  obtain ⟨timestamp, -, h⟩ := Option.bind_eq_some_iff.mp h
  obtain ⟨envelope, henvelope, h⟩ := Option.bind_eq_some_iff.mp h
  have hpayload := payload_of_trustedEnvelope henvelope
  rw [← Option.some.inj h]
  dsimp only
  split_ifs
  · rw [Dict.get_set, if_neg (by decide), hpayload]
  · exact hpayload

theorem foldlM_isSome {α β : Type*} {f : β → α → Option β} {l : List α}
    (h : ∀ b, ∀ x ∈ l, (f b x).isSome) (b : β) : (l.foldlM f b).isSome := by
  induction l generalizing b with
  | nil => rfl
  | cons x l ih =>
    obtain ⟨m, hm⟩ := Option.isSome_iff_exists.mp (h b x List.mem_cons_self)
    rw [List.foldlM_cons, hm]
    exact ih (fun b y hy => h b y (List.mem_cons_of_mem _ hy)) m

/-! ### The stages of a batch -/

def prepared (C : TokenEventCustody) (w : Surroundings) (events : List Dict) : List Prepared :=
  events.zipIdx.map (C.preparedAt w)

def deduplicated (C : TokenEventCustody) (w : Surroundings) (events : List Dict) : Deduplicated :=
  .ofPrepared (C.prepared w events)

/-- The claims of the batch, with the store that they leave. -/
def batchClaims (C : TokenEventCustody) (w : Surroundings) (events : List Dict)
    (s : IdentityStore) : IdentityStore × List Claim :=
  C.eventIdentityStatusBatch w.claimClock ((C.deduplicated w events).unique.map Prepared.identity) s

/-- The batch comes to its publication with these owned events and messages. -/
structure Publishes (C : TokenEventCustody) (w : Surroundings) (events : List Dict)
    (s : IdentityStore) (c : Claimed) (messages : List Message) : Prop where
  claiming : ((C.deduplicated w events).unique.zip (C.batchClaims w events s).2).foldlM
    (C.claimStep w (C.deduplicated w events)) { results := (C.deduplicated w events).results } =
      some c
  messaging : C.messagesOf c.owned = some messages

theorem mem_prepared {p : Prepared} :
    p ∈ C.prepared w events ↔ ∃ i e, events[i]? = some e ∧ p = C.preparedAt w (e, i) := by
  unfold prepared
  constructor
  · intro hp
    obtain ⟨⟨e, i⟩, hmem, rfl⟩ := List.mem_map.mp hp
    rw [List.mem_zipIdx_iff_getElem?] at hmem
    exact ⟨i, e, hmem, rfl⟩
  · rintro ⟨i, e, hget, rfl⟩
    refine List.mem_map.mpr ⟨(e, i), ?_, rfl⟩
    rw [List.mem_zipIdx_iff_getElem?]
    exact hget

private theorem index_prepared (C : TokenEventCustody) (w : Surroundings) (events : List Dict) :
    (C.prepared w events).map Prepared.index = List.range events.length := by
  unfold prepared
  rw [List.map_map]
  have hindex : (Prepared.index ∘ C.preparedAt w) = Prod.snd := rfl
  rw [hindex, List.zipIdx_map_snd, List.range_eq_range']

theorem sound_deduplicated (C : TokenEventCustody) (w : Surroundings) (events : List Dict) :
    (C.deduplicated w events).Sound (C.prepared w events) := by
  apply Deduplicated.sound_ofPrepared
  rw [index_prepared]
  exact List.nodup_range

theorem length_batchClaims (C : TokenEventCustody) (w : Surroundings) (events : List Dict)
    (s : IdentityStore) :
    (C.batchClaims w events s).2.length = (C.deduplicated w events).unique.length := by
  unfold batchClaims IdentityContext.eventIdentityStatusBatch
  dsimp only
  rw [List.length_map, List.length_range, List.length_map]

/-- Well-formed events come to their publication. -/
theorem publishes_wellFormed (h : ∀ e ∈ events, WellFormed e) (s : IdentityStore) :
    ∃ c messages, C.Publishes w events s c messages := by
  have hsound := C.sound_deduplicated w events
  have hown : ∀ u ∈ (C.deduplicated w events).unique, (C.withoutReservation.own w u).isSome := by
    intro u hu
    obtain ⟨i, e, hget, rfl⟩ := mem_prepared.mp (hsound.mem hu)
    have hwell := h e (List.mem_of_getElem? hget)
    obtain ⟨n, hn⟩ := hwell.stamped_timestamp (w.prepareClock i)
    obtain ⟨customerId, hcustomer⟩ := hwell.customerId
    have hpayload : (C.preparedAt w (e, i)).payload.get "customerId" = some (.str customerId) :=
      (stamped_get e _ (by decide)).trans hcustomer
    exact own_isSome hn hpayload
  have hfold : (((C.deduplicated w events).unique.zip (C.batchClaims w events s).2).foldlM
      (C.claimStep w (C.deduplicated w events))
      { results := (C.deduplicated w events).results }).isSome := by
    apply foldlM_isSome
    intro b p hp
    unfold claimStep
    cases claimResult p.1.eventId p.2 with
    | some result => rfl
    | none =>
      have hsome := hown p.1 (List.of_mem_zip hp).1
      dsimp only
      rw [Option.isSome_map]
      exact hsome
  obtain ⟨c, hc⟩ := Option.isSome_iff_exists.mp hfold
  obtain ⟨-, howned, howns⟩ := claims_answer hc
  have hmessages : (C.messagesOf c.owned).isSome := by
    unfold messagesOf
    rw [mapM_isSome]
    intro o ho
    have hmem : o.toPrepared ∈ c.owned.map Owned.toPrepared := List.mem_map.mpr ⟨o, ho, rfl⟩
    rw [howned] at hmem
    obtain ⟨p, hp, heq⟩ := List.mem_map.mp hmem
    have hunique := (List.of_mem_zip (List.mem_filter.mp hp).1).1
    obtain ⟨i, e, hget, hprepared⟩ := mem_prepared.mp (hsound.mem hunique)
    obtain ⟨customerId, hcustomer⟩ := (h e (List.mem_of_getElem? hget)).customerId
    have hpayload : o.payload.get "customerId" = some (.str customerId) := by
      rw [← heq, hprepared]
      exact (stamped_get e _ (by decide)).trans hcustomer
    rw [hpayload]
    rfl
  obtain ⟨messages, hm⟩ := Option.isSome_iff_exists.mp hmessages
  exact ⟨c, messages, hc, hm⟩

/-- The store and the results after the publication. -/
def settled (C : TokenEventCustody) (w : Surroundings) (events : List Dict) (s : IdentityStore)
    (c : Claimed) (messages : List Message) : IdentityStore × Results :=
  C.settleBatch w (C.deduplicated w events) c (w.broker messages).outcomes
    (C.batchClaims w events s).1

variable {c : Claimed} {messages : List Message}

theorem acceptMany_eq (hwell : ∀ e ∈ events, WellFormed e)
    (h : C.Publishes w events s c messages) :
    C.acceptMany w events s =
      { store := (C.settled w events s c messages).1
        produced := (w.broker messages).produced
        acked := (w.broker messages).acked
        ending := endingOf events.length (C.settled w events s c messages).2 } := by
  have hclaiming := h.claiming
  unfold settled
  unfold batchClaims deduplicated prepared at hclaiming ⊢
  unfold acceptMany
  rw [prepareAll_wellFormed hwell]
  dsimp only
  rw [hclaiming]
  dsimp only
  rw [h.messaging]

/-! ### The end of a batch -/

def acknowledged (c : Claimed) (outcomes : List (Option PublishError)) : List Owned :=
  ((c.owned.zip outcomes).filter fun p => p.2 = none).map Prod.fst

/-- Whether the acknowledged identities are remembered, with the store after that. -/
def remembered (C : TokenEventCustody) (w : Surroundings) (c : Claimed)
    (outcomes : List (Option PublishError)) (s : IdentityStore) : IdentityStore × Bool :=
  C.remember w ((acknowledged c outcomes).map fun o => o.identity) s

variable {d : Deduplicated} {outcomes : List (Option PublishError)}

theorem settleBatch_results (C : TokenEventCustody) (w : Surroundings) (d : Deduplicated)
    (c : Claimed) (outcomes : List (Option PublishError)) (s : IdentityStore) :
    (C.settleBatch w d c outcomes s).2 =
      (acknowledged c outcomes).foldl (finalizeStep d (C.remembered w c outcomes s).2)
        ((c.owned.zip outcomes).foldl (sortStep d) { results := c.results }).results := by
  have haccepted := (sorts_answer (d := d) (c.owned.zip outcomes) { results := c.results }).2
  unfold settleBatch remembered acknowledged
  dsimp only
  rw [haccepted]
  rfl

theorem accepted_settleBatch {l : Location} {fingerprint : String}
    (h : (C.remembered w c outcomes s).1.current l = some (entryText .accepted fingerprint)) :
    (C.settleBatch w d c outcomes s).1.current l = some (entryText .accepted fingerprint) := by
  have haccepted := (sorts_answer (d := d) (c.owned.zip outcomes) { results := c.results }).2
  unfold remembered acknowledged at h
  unfold settleBatch
  dsimp only
  rw [haccepted]
  apply IdentityContext.accepted_release
  exact IdentityContext.accepted_transition .uncertain w.markReply h

/-- The results are good where those of every pass are. -/
theorem settleBatch_sound (good : ℕ → Result → Prop) (h : C.Publishes w events s c messages)
    (hconflicts : (C.deduplicated w events).results.Sound good)
    (hclaims : ∀ p ∈ (C.deduplicated w events).unique.zip (C.batchClaims w events s).2, ∀ r,
      claimResult p.1.eventId p.2 = some r → (C.deduplicated w events).GoodFor good p.1 r r)
    (herrors : ∀ p ∈ c.owned.zip outcomes, ∀ e, p.2 = some e → (C.deduplicated w events).GoodFor
      good p.1.toPrepared (errorResult p.1.eventId e) (errorResult p.1.eventId e))
    (hfinals : ∀ o ∈ acknowledged c outcomes, (C.deduplicated w events).GoodFor good o.toPrepared
      (finalResult (C.remembered w c outcomes (C.batchClaims w events s).1).2 o).1
      (finalResult (C.remembered w c outcomes (C.batchClaims w events s).1).2 o).2) :
    (C.settleBatch w (C.deduplicated w events) c outcomes (C.batchClaims w events s).1).2.Sound
      good := by
  rw [settleBatch_results]
  apply (finals_answer _ _ _).sound good
  · apply (sorts_answer _ _).1.sound good
    · apply (claims_answer h.claiming).1.sound good hconflicts
      intro p hp r htold
      obtain ⟨result, hresult, rfl⟩ := Option.map_eq_some_iff.mp htold
      exact hclaims p hp result hresult
    · intro p hp r htold
      obtain ⟨error, herror, rfl⟩ := Option.map_eq_some_iff.mp htold
      exact herrors p hp error herror
  · intro o ho r htold
    obtain rfl := Option.some.inj htold
    exact hfinals o ho

theorem exists_zip {α β : Type*} {l : List α} {l' : List β} (h : l'.length = l.length) {x : α}
    (hx : x ∈ l) : ∃ y, (x, y) ∈ l.zip l' := by
  obtain ⟨i, hget⟩ := List.mem_iff_getElem?.mp hx
  obtain ⟨hi, -⟩ := List.getElem?_eq_some_iff.mp hget
  have hi' : i < l'.length := by omega
  refine ⟨l'[i], List.mem_iff_getElem?.mpr ⟨i, ?_⟩⟩
  exact List.getElem?_zip_eq_some.mpr ⟨hget, List.getElem?_eq_getElem hi'⟩

/-- Every position is answered. -/
theorem settleBatch_complete (h : C.Publishes w events s c messages)
    (houtcomes : outcomes.length = c.owned.length) {p : Prepared} (hp : p ∈ C.prepared w events) :
    (C.settleBatch w (C.deduplicated w events) c outcomes (C.batchClaims w events s).1).2 p.index ≠
      none := by
  obtain ⟨hclaims, howned, -⟩ := claims_answer h.claiming
  have hsorts := (sorts_answer (d := C.deduplicated w events) (c.owned.zip outcomes)
    { results := c.results }).1
  rw [settleBatch_results]
  have hfinals := finals_answer (d := C.deduplicated w events)
    (C.remembered w c outcomes (C.batchClaims w events s).1).2 (acknowledged c outcomes)
    ((c.owned.zip outcomes).foldl (sortStep (C.deduplicated w events))
      { results := c.results }).results
  rcases (C.sound_deduplicated w events).covered p hp with hdone | ⟨u, hu, hcovers⟩
  · exact hfinals.kept _ (hsorts.kept _ (hclaims.kept _ hdone))
  · obtain ⟨claim, hclaim⟩ := exists_zip (length_batchClaims C w events s) hu
    cases htold : claimResult u.eventId claim with
    | some result =>
      -- the claim answers it
      apply hfinals.kept
      apply hsorts.kept
      exact hclaims.answered _ hclaim (by rw [htold]; simp) _ hcovers
    | none =>
      have howner := claimResult_eq_none.mp htold
      have hmem : u ∈ c.owned.map Owned.toPrepared := by
        rw [howned]
        apply List.mem_append_right
        refine List.mem_map.mpr ⟨(u, claim), List.mem_filter.mpr ⟨hclaim, ?_⟩, rfl⟩
        simpa using howner
      obtain ⟨o, ho, rfl⟩ := List.mem_map.mp hmem
      obtain ⟨outcome, houtcome⟩ := exists_zip houtcomes ho
      cases outcome with
      | some error =>
        apply hfinals.kept
        exact hsorts.answered _ houtcome (by simp) _ hcovers
      | none =>
        have hacked : o ∈ acknowledged c outcomes :=
          List.mem_map.mpr ⟨(o, none), List.mem_filter.mpr ⟨houtcome, by simp⟩, rfl⟩
        exact hfinals.answered o hacked (by simp) _ hcovers

theorem endingOf_complete {n : ℕ} {results : Results} (h : ∀ i < n, results i ≠ none) :
    ∃ list, endingOf n results = .returned list ∧ list.length = n ∧
      ∀ i < n, list[i]? = results i := by
  have hsome : ((List.range n).mapM results).isSome := by
    rw [mapM_isSome]
    intro i hi
    exact Option.isSome_iff_ne_none.mpr (h i (List.mem_range.mp hi))
  obtain ⟨list, hlist⟩ := Option.isSome_iff_exists.mp hsome
  have hforall := mapM_eq_some_iff.mp hlist
  have hlength : n = list.length := by simpa using hforall.length_eq
  refine ⟨list, ?_, hlength.symm, ?_⟩
  · unfold endingOf
    rw [hlist]
  · intro i hi
    have hget := hforall.get (i := i) (by simpa using hi) (by rwa [← hlength])
    simp only [List.get_eq_getElem, List.getElem_range] at hget
    rw [hget, List.getElem?_eq_getElem]

/-! ### The messages -/

theorem owned_sublist (h : C.Publishes w events s c messages) :
    (c.owned.map Owned.toPrepared).Sublist (C.deduplicated w events).unique := by
  obtain ⟨-, howned, -⟩ := claims_answer h.claiming
  have hsub := (List.filter_sublist (p := fun p : Prepared × Claim => p.2 = .owner)
    (l := (C.deduplicated w events).unique.zip (C.batchClaims w events s).2)).map Prod.fst
  rw [List.map_fst_zip (length_batchClaims C w events s).ge] at hsub
  rw [howned]
  exact hsub

theorem mem_owned (h : C.Publishes w events s c messages) {o : Owned} (ho : o ∈ c.owned) :
    o.toPrepared ∈ (C.deduplicated w events).unique ∧
      o.envelope.get "payload" = some (.obj o.payload) := by
  refine ⟨(owned_sublist h).subset (List.mem_map.mpr ⟨o, ho, rfl⟩), ?_⟩
  obtain ⟨-, -, howns⟩ := claims_answer h.claiming
  rcases howns o ho with hold | hown
  · cases hold
  · exact envelope_payload hown

/-- The messages stand for the owned events, in their order. -/
theorem messages_of_owned (h : C.Publishes w events s c messages) :
    List.Forall₂ (fun o m => m.envelope = o.envelope) c.owned messages := by
  apply (mapM_eq_some_iff.mp h.messaging).imp
  intro o m hm
  split at hm
  next => rw [← Option.some.inj hm]
  next => cases hm

/-- A message carries the payload of its event. -/
theorem payload_of_message (h : C.Publishes w events s c messages) {i : ℕ} {o : Owned}
    {m : Message} (ho : c.owned[i]? = some o) (hm : messages[i]? = some m) :
    m.envelope.get "payload" = some (.obj o.payload) := by
  obtain ⟨hi, rfl⟩ := List.getElem?_eq_some_iff.mp ho
  obtain ⟨hi', rfl⟩ := List.getElem?_eq_some_iff.mp hm
  have hsame := (messages_of_owned h).get hi hi'
  simp only [List.get_eq_getElem] at hsame
  rw [hsame]
  exact (mem_owned h (List.getElem_mem hi)).2

theorem eventIds_nodup (hwell : ∀ e ∈ events, WellFormed e)
    (h : C.Publishes w events s c messages) : (messages.map Message.eventId).Nodup := by
  have hids : messages.map Message.eventId =
      (c.owned.map Owned.toPrepared).map fun p => some (Json.str p.eventId) := by
    rw [List.map_map]
    apply List.ext_getElem?
    intro i
    rw [List.getElem?_map, List.getElem?_map]
    have hlength := (messages_of_owned h).length_eq
    cases hm : messages[i]? with
    | none =>
      have ho : c.owned[i]? = none := by
        rw [List.getElem?_eq_none_iff] at hm ⊢
        omega
      rw [ho]
      rfl
    | some m =>
      obtain ⟨hi, -⟩ := List.getElem?_eq_some_iff.mp hm
      have ho : c.owned[i]? = some c.owned[i] := List.getElem?_eq_getElem (by omega)
      rw [ho, Option.map_some, Option.map_some]
      have hunique := (mem_owned h (List.getElem_mem (l := c.owned) (n := i) (by omega))).1
      obtain ⟨j, e, hget, hprepared⟩ :=
        mem_prepared.mp ((C.sound_deduplicated w events).mem hunique)
      have hid := (hwell e (List.mem_of_getElem? hget)).eventIdOf.1
      unfold Message.eventId
      rw [payload_of_message h ho hm]
      have hpayload : c.owned[i].payload.get "eventId" = some (.str c.owned[i].eventId) := by
        unfold Prepared.eventId
        rw [hprepared]
        dsimp only [preparedAt]
        rw [eventIdOf_stamped, stamped_get e _ (by decide), hid]
      exact congrArg some hpayload
  rw [hids]
  apply List.Nodup.map_on
  · intro p hp q hq heq
    have hsame : p.eventId = q.eventId := by simpa using heq
    exact List.inj_on_of_nodup_map (C.sound_deduplicated w events).nodup
      ((owned_sublist h).subset hp) ((owned_sublist h).subset hq) hsame
  · exact ((C.sound_deduplicated w events).nodup.of_map _).sublist (owned_sublist h)

/-! ### Accepted means durably in Kafka -/

/-- The identity of the event is stored as accepted, with its fingerprint. -/
def Stored (C : TokenEventCustody) (s : IdentityStore) (event : Dict) : Prop :=
  s.current (C.locate (eventIdOf event)) = some (entryText .accepted (C.hashOf event))

/-- A batch answers every position, and what it tells to be accepted is kept. -/
structure Accountable (C : TokenEventCustody) (events : List Dict) (s : IdentityStore)
    (run : BatchCall) : Prop where
  answered : ∃ results, run.ending = .returned results ∧
    results.map Result.eventId = events.map eventIdOf
  produced : (run.produced.map Message.eventId).Nodup
  kept : ∀ (results : List Result) (i : ℕ) (event : Dict) (r : Result),
    run.ending = .returned results → events[i]? = some event → results[i]? = some r →
    r.status = .accepted ∨ r.status = .quarantined →
    C.Stored s event ∨
      (∃ m ∈ run.acked, m.Carries C.py C.tenantId event) ∧ C.Stored run.store event

/-- What a position that is told to be accepted rests on. -/
structure Kept (C : TokenEventCustody) (events : List Dict) (s final : IdentityStore)
    (acked : List Message) (p : Prepared) : Prop where
  kept : s.current (C.locate p.eventId) = some (entryText .accepted p.payloadHash) ∨
    (∃ m ∈ acked, ∃ e ∈ events, ∃ clock, m.envelope.get "payload" = some (.obj (stamped e clock)) ∧
      C.hashOf e = p.payloadHash) ∧
    final.current (C.locate p.eventId) = some (entryText .accepted p.payloadHash)

/-- The result of a position has its event id, and tells it to be accepted only where it is kept. -/
def Faithful (C : TokenEventCustody) (w : Surroundings) (events : List Dict)
    (s final : IdentityStore) (acked : List Message) (i : ℕ) (r : Result) : Prop :=
  ∃ p ∈ C.prepared w events, p.index = i ∧ r.eventId = p.eventId ∧
    (r.status = .accepted ∨ r.status = .quarantined → C.Kept events s final acked p)

section Faithful
variable {final : IdentityStore} {acked : List Message}

theorem goodFor_faithful {u : Prepared} (hu : u ∈ (C.deduplicated w events).unique)
    {own copied : Result} (hown : own.eventId = u.eventId) (hcopied : copied.eventId = u.eventId)
    (hkept : own.status = .accepted ∨ own.status = .quarantined → C.Kept events s final acked u)
    (hstatus : copied.status = own.status) :
    (C.deduplicated w events).GoodFor (C.Faithful w events s final acked) u own copied := by
  have hsound := C.sound_deduplicated w events
  constructor
  · exact ⟨u, hsound.mem hu, rfl, hown, hkept⟩
  · intro i hi
    obtain ⟨p, hp, hindex, hsame, -⟩ := hsound.aliases u hu i hi
    have hid : p.eventId = u.eventId := congrArg Prod.fst hsame
    have hhash : p.payloadHash = u.payloadHash := congrArg Prod.snd hsame
    refine ⟨p, hp, hindex, hcopied.trans hid.symm, fun hp => ?_⟩
    rw [hstatus] at hp
    obtain ⟨hkeptu⟩ := hkept hp
    exact ⟨by rw [hid, hhash]; exact hkeptu⟩

theorem faithful_claim {u : Prepared} {claim : Claim} {r : Result}
    (hmem : (u, claim) ∈ (C.deduplicated w events).unique.zip (C.batchClaims w events s).2)
    (hr : claimResult u.eventId claim = some r) :
    (C.deduplicated w events).GoodFor (C.Faithful w events s final acked) u r r := by
  have hid := eventId_claimResult hr
  refine goodFor_faithful (List.of_mem_zip hmem).1 hid hid (fun hstatus => ?_) rfl
  have hsame := same_of_claimResult hr hstatus
  -- the claim found the identity accepted
  obtain ⟨i, hi, hget⟩ := List.getElem_of_mem hmem
  rw [List.getElem_zip] at hget
  obtain ⟨hu, hclaim⟩ := Prod.mk.inj hget
  rw [List.length_zip] at hi
  have hidentity : ((C.deduplicated w events).unique.map Prepared.identity)[i]? =
      some u.identity := by
    rw [List.getElem?_map, List.getElem?_eq_getElem (by omega), hu]
    rfl
  have hanswer : (C.batchClaims w events s).2[i]? = some .same := by
    rw [List.getElem?_eq_getElem (by omega), hclaim, hsame]
  unfold batchClaims at hanswer
  have hbefore := IdentityContext.accepted_of_same hidentity hanswer
  exact ⟨Or.inl hbefore⟩

end Faithful

theorem event_of_owned (h : C.Publishes w events s c messages) {o : Owned} (ho : o ∈ c.owned) :
    ∃ e ∈ events, ∃ clock, o.payload = stamped e clock ∧ o.payloadHash = C.hashOf e := by
  have hunique := (mem_owned h ho).1
  obtain ⟨i, e, hget, hprepared⟩ := mem_prepared.mp ((C.sound_deduplicated w events).mem hunique)
  have hpayload : o.payload = stamped e (w.prepareClock i) := by
    rw [hprepared]
    rfl
  have hhash : o.payloadHash = C.hashOf e := by
    rw [hprepared]
    rfl
  exact ⟨e, List.mem_of_getElem? hget, w.prepareClock i, hpayload, hhash⟩

theorem mem_acknowledged {o : Owned} (ho : o ∈ acknowledged c outcomes) :
    ∃ i : ℕ, c.owned[i]? = some o ∧ outcomes[i]? = some none := by
  obtain ⟨⟨o', outcome⟩, hmem, rfl⟩ := List.mem_map.mp ho
  obtain ⟨hzip, hnone⟩ := List.mem_filter.mp hmem
  obtain ⟨i, hget⟩ := List.mem_iff_getElem?.mp hzip
  rw [List.getElem?_zip_eq_some] at hget
  have hnone : outcome = none := by simpa using hnone
  exact ⟨i, hget.1, by rw [hget.2, hnone]⟩

private theorem acked_of_acknowledged (h : C.Publishes w events s c messages) {o : Owned}
    (ho : o ∈ acknowledged c (w.broker messages).outcomes) :
    o ∈ c.owned ∧ ∃ m ∈ (w.broker messages).acked,
      m.envelope.get "payload" = some (.obj o.payload) := by
  obtain ⟨i, howned, houtcome⟩ := mem_acknowledged ho
  obtain ⟨hi, -⟩ := List.getElem?_eq_some_iff.mp howned
  have hlength := (messages_of_owned h).length_eq
  have hm : messages[i]? = some messages[i] := List.getElem?_eq_getElem (by omega)
  exact ⟨List.mem_of_getElem? howned, messages[i],
    (w.broker messages).acked_of_none i messages[i] hm houtcome, payload_of_message h howned hm⟩

private theorem faithful_final (h : C.Publishes w events s c messages) {o : Owned}
    (ho : o ∈ acknowledged c (w.broker messages).outcomes) :
    (C.deduplicated w events).GoodFor
      (C.Faithful w events s (C.settled w events s c messages).1 (w.broker messages).acked)
      o.toPrepared
      (finalResult (C.remembered w c (w.broker messages).outcomes (C.batchClaims w events s).1).2
        o).1
      (finalResult (C.remembered w c (w.broker messages).outcomes (C.batchClaims w events s).1).2
        o).2 := by
  obtain ⟨howned, m, hm, hpayload⟩ := acked_of_acknowledged h ho
  have hunique := (mem_owned h howned).1
  unfold finalResult
  split_ifs with hfinalized
  · refine goodFor_faithful hunique rfl rfl (fun _ => ⟨Or.inr ⟨?_, ?_⟩⟩) rfl
    · obtain ⟨e, he, clock, hstamped, hhash⟩ := event_of_owned h howned
      rw [hstamped] at hpayload
      exact ⟨m, hm, e, he, clock, hpayload, hhash.symm⟩
    · apply accepted_settleBatch
      have hidentity : o.identity ∈
          (acknowledged c (w.broker messages).outcomes).map fun o => o.identity :=
        List.mem_map.mpr ⟨o, ho, rfl⟩
      exact IdentityContext.accepted_of_remembered hfinalized o.identity hidentity
  · refine goodFor_faithful hunique rfl rfl (fun hstatus => ?_) rfl
    simp [errorResult] at hstatus

/-- The results of a batch are faithful to its messages and to the store that it leaves. -/
theorem settled_faithful (h : C.Publishes w events s c messages) :
    (C.settled w events s c messages).2.Sound
      (C.Faithful w events s (C.settled w events s c messages).1 (w.broker messages).acked) := by
  refine settleBatch_sound
    (C.Faithful w events s (C.settled w events s c messages).1 (w.broker messages).acked) h
    ?_ ?_ ?_ fun o ho => faithful_final h ho
  · intro i r hr
    obtain ⟨p, hp, hindex, rfl, -⟩ := (C.sound_deduplicated w events).conflicts i r hr
    refine ⟨p, hp, hindex, rfl, fun hstatus => ?_⟩
    simp [Deduplicated.conflictResult] at hstatus
  · exact fun p hp r hr => faithful_claim hp hr
  · intro p hp e he
    have hunique := (mem_owned h (List.of_mem_zip hp).1).1
    obtain ⟨hid, haccepted, hquarantined⟩ := errorResult_facts p.1.eventId e
    refine goodFor_faithful hunique hid hid (fun hstatus => ?_) rfl
    rcases hstatus with hstatus | hstatus
    · exact absurd hstatus haccepted
    · exact absurd hstatus hquarantined

/-- Every batch of well-formed events answers every position with its event id, produces one message
at most for an event id, and tells a position to be accepted or quarantined only where its payload
was acknowledged and its identity is stored, or was stored before. -/
theorem accepted_in_kafka (C : TokenEventCustody) (w : Surroundings) (events : List Dict)
    (s : IdentityStore) (hwell : ∀ e ∈ events, WellFormed e)
    (hsha : ∀ e ∈ events, ∀ e' ∈ events, C.hashOf e = C.hashOf e' →
      C.py.canonical e (tenantOrDefault C.tenantId) =
        C.py.canonical e' (tenantOrDefault C.tenantId)) :
    C.Accountable events s (C.acceptMany w events s) := by
  obtain ⟨c, messages, h⟩ := publishes_wellFormed (C := C) (w := w) hwell s
  have houtcomes : (w.broker messages).outcomes.length = c.owned.length := by
    rw [(w.broker messages).length_outcomes, (messages_of_owned h).length_eq]
  have hcomplete : ∀ i < events.length, (C.settled w events s c messages).2 i ≠ none := by
    intro i hi
    have hp : C.preparedAt w (events[i], i) ∈ C.prepared w events :=
      mem_prepared.mpr ⟨i, events[i], List.getElem?_eq_getElem hi, rfl⟩
    exact settleBatch_complete h houtcomes hp
  obtain ⟨results, hending, hlength, hresults⟩ := endingOf_complete hcomplete
  have hfaithful := settled_faithful h
  rw [acceptMany_eq hwell h]
  -- the result of a position
  have hat : ∀ (i : ℕ) (event : Dict) (r : Result), events[i]? = some event →
      results[i]? = some r → r.eventId = eventIdOf event ∧
        (r.status = .accepted ∨ r.status = .quarantined →
          C.Kept events s (C.settled w events s c messages).1 (w.broker messages).acked
            (C.preparedAt w (event, i))) := by
    intro i event r hevent hr
    obtain ⟨hi, -⟩ := List.getElem?_eq_some_iff.mp hevent
    rw [hresults i hi] at hr
    obtain ⟨p, hp, hindex, hid, hkept⟩ := hfaithful i r hr
    obtain ⟨j, e, hget, rfl⟩ := mem_prepared.mp hp
    have hj : j = i := hindex
    subst hj
    rw [hevent] at hget
    obtain rfl := Option.some.inj hget
    exact ⟨hid.trans (eventId_preparedAt _), hkept⟩
  constructor
  case answered =>
    refine ⟨results, hending, ?_⟩
    apply List.ext_getElem
    · rw [List.length_map, List.length_map, hlength]
    · intro i hi hi'
      rw [List.length_map] at hi hi'
      rw [List.getElem_map, List.getElem_map]
      exact (hat i events[i] results[i] (List.getElem?_eq_getElem hi')
        (List.getElem?_eq_getElem hi)).1
  case produced =>
    exact (eventIds_nodup hwell h).sublist ((w.broker messages).produced_sublist.map _)
  case kept =>
    intro results' i event r hending' hevent hr hstatus
    obtain rfl : results = results' := by
      rw [hending] at hending'
      exact BatchEnding.returned.inj hending'
    obtain ⟨hbefore | ⟨⟨m, hm, e, he, clock, hpayload, hhash⟩, hstored⟩⟩ :=
      (hat i event r hevent hr).2 hstatus
    · left
      rw [eventId_preparedAt] at hbefore
      exact hbefore
    · right
      rw [eventId_preparedAt] at hstored
      refine ⟨⟨m, hm, e, clock, hpayload, ?_⟩, hstored⟩
      exact hsha e he event (List.mem_of_getElem? hevent) hhash

end TokenEventCustody

/-! ### A batch with an event and its copy -/

def twin : Dict := [("customerId", .str "c1"), ("eventId", .str "e1")]

/-- The runtime on the texts of this batch. -/
def Python.onTwin : Python :=
  { Python.ofEventId with
    canonical := fun payload tenantId => match payload with
      | [("customerId", .str customerId), ("eventId", .str eventId)] =>
        "\x7b\"payload\":\x7b\"customerId\":\"" ++ customerId ++ "\",\"eventId\":\"" ++ eventId ++
          "\"\x7d,\"tenantId\":\"" ++ tenantId ++ "\"\x7d"
      | _ => ""
    sha256 := fun text =>
      if text = "default" then "37a8eec1ce19687d132fe29051dca629d164e2c4958ba141d5f4133a33f0688f"
      else if text = "e1" then "8b5cc4df7eec7d32a7814eca4af047ae33b2d52342667715682e19c25b0b9faa"
      else "7c3065d39156fd29e3f7a769172472d7514fb42ac42a7f493dfda4721521ef05" }

/-- A producer that queues every message, with an acknowledgement of each. -/
def Publication.ofAcks (messages : List Message) : Publication messages :=
  .ofProducer messages (messages.map fun _ => .queued)
    ((List.range messages.length).map fun i => (i, true)) (List.length_map ..)

/-- A clock that stands still, a broker that acknowledges and a Redis that answers. -/
def Surroundings.still (seconds : ℤ) : Surroundings where
  prepareClock _ := 1000 * seconds
  claimClock := seconds
  receivedClock _ := 1000 * seconds
  traceId _ := "trace"
  broker := Publication.ofAcks
  rememberClock _ := seconds
  rememberReply _ := .ok
  markClock := seconds
  markReply := .ok

def twinCustody : TokenEventCustody where
  py := .onTwin
  settings := .defaults
  tenantId := none
  config := { topic := "token-events", quarantineTopic := "token-events-quarantine" }

theorem wellFormed_twin : WellFormed twin where
  eventId := ⟨"e1", rfl, by decide⟩
  customerId := ⟨"c1", rfl⟩
  timestamp value h := by cases h

theorem accepted_in_kafka_twins :
    (twinCustody.acceptMany (.still 1700000000) [twin, twin] .empty).ending =
        .returned [{ eventId := "e1", status := .accepted, idempotent := some false },
          { eventId := "e1", status := .accepted, idempotent := some true }] ∧
      twinCustody.Accountable [twin, twin] .empty
        (twinCustody.acceptMany (.still 1700000000) [twin, twin] .empty) := by
  refine ⟨by decide +kernel, twinCustody.accepted_in_kafka _ _ _ ?_ ?_⟩
  · simp [wellFormed_twin]
  · simp

end FluxMeter.Custody
