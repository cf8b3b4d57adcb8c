import FluxMeter.Custody.BatchCustody
import FluxMeter.Custody.IdentityCalls
import FluxMeter.Custody.SharedDeadline

/-! What `accept_many` tells an event whose id no other event of the batch has: the answer of the
claim of its own entry, the fate of its own message, and whether Redis lets it be remembered. -/
namespace FluxMeter.Custody
open Collections FluxMeter.Wire Transition

/-- The pipeline came back. -/
def Reply.isOk : Reply → Bool
  | .ok => true
  | .raised _ => false

namespace IdentityStore

/-! ### Remembering -/

/-- The transition to accepted counts the entry of the member. -/
def Matched (f : Location → Slot) (m : Member) : Prop :=
  transitionMatched .accepted m.fingerprint (f m.location).text = true

private theorem transitionSlot_matched (expiry : ℤ) {m : Member} {x : Slot}
    (h : transitionMatched .accepted m.fingerprint x.text = true) :
    (transitionSlot .accepted expiry m x).2 = 1 ∧
      (transitionSlot .accepted expiry m x).1.text = some (entryText .accepted m.fingerprint) := by
  have hcount : (transitionSlot .accepted expiry m x).2 = 1 := by
    unfold transitionMatched at h
    unfold transitionSlot
    split_ifs with hallowed hsame
    · rfl
    · rfl
    · simp [hallowed, hsame] at h
  exact ⟨hcount, text_of_matched hcount⟩

private theorem matched_of_accepted {fingerprint : String} :
    transitionMatched .accepted fingerprint (some (entryText .accepted fingerprint)) = true := by
  simp [transitionMatched]

/-- Members that are counted stay counted while some of them are remembered. -/
theorem matched_runKeyed (expiry : ℤ) {all members : List Member} (hsub : ∀ m ∈ members, m ∈ all)
    (hsame : ∀ m ∈ all, ∀ m' ∈ all, m.location = m'.location → m.fingerprint = m'.fingerprint)
    {f : Location → Slot} (h : ∀ m ∈ all, Matched f m) :
    (∀ m ∈ all, Matched (runKeyed (transitionSlot .accepted expiry) f (keyed members)).1 m) ∧
      ((runKeyed (transitionSlot .accepted expiry) f (keyed members)).2.map Prod.snd).sum =
        members.length := by
  induction members generalizing f with
  | nil => exact ⟨h, rfl⟩
  | cons m members ih =>
    obtain ⟨hm, hrest⟩ := List.forall_mem_cons.mp hsub
    obtain ⟨hcount, htext⟩ := transitionSlot_matched expiry (h m hm)
    have hnext : ∀ m' ∈ all, Matched (Function.update f m.location
        (transitionSlot .accepted expiry m (f m.location)).1) m' := by
      intro m' hm'
      unfold Matched
      rw [Function.update_apply]
      split_ifs with hlocation
      · rw [htext, hsame m' hm' m hm hlocation]
        exact matched_of_accepted
      · exact h m' hm'
    obtain ⟨hkept, hsum⟩ := ih hrest hnext
    refine ⟨hkept, ?_⟩
    simp only [keyed, List.map_cons, runKeyed, List.sum_cons, List.length_cons] at hsum ⊢
    omega

end IdentityStore

namespace IdentityContext
open IdentityStore
variable {C : IdentityContext} {s : IdentityStore} {now : ℤ} {identities : List (String × String)}

/-- Every identity is counted by the transition to accepted, and no two share a location under
different fingerprints. -/
structure Rememberable (C : IdentityContext) (identities : List (String × String))
    (s : IdentityStore) : Prop where
  matched : ∀ m ∈ C.members identities, Matched s.slot m
  same : ∀ m ∈ C.members identities, ∀ m' ∈ C.members identities,
    m.location = m'.location → m.fingerprint = m'.fingerprint

/-- A pipeline that comes back has counted all identities, and one that raises leaves them to be
counted by the next. -/
theorem transition_rememberable (now : ℤ) (h : C.Rememberable identities s) (hne : identities ≠ [])
    (reply : Reply) :
    C.Rememberable identities
        (C.transitionEventIdentities .accepted now reply identities s).1 ∧
      (C.transitionEventIdentities .accepted now reply identities s).2 =
        if reply.isOk then some identities.length else none := by
  have hperm := groupIdentities_perm C identities
  have hscripts := slot_scripts (local_transition .accepted (now + C.targetTtl .accepted))
  unfold transitionEventIdentities
  rw [if_neg hne]
  cases reply with
  | ok =>
    obtain ⟨hslot, hsum⟩ := hscripts (C.groupIdentities identities) s
    obtain ⟨hkept, hcount⟩ := matched_runKeyed (now + C.targetTtl .accepted)
      (fun m hm => hperm.mem_iff.mp hm) h.same h.matched
    rw [← hslot] at hkept
    refine ⟨⟨hkept, h.same⟩, ?_⟩
    rw [← hsum, hperm.length_eq, length_members] at hcount
    exact congrArg some hcount
  | raised executed =>
    obtain ⟨hslot, -⟩ := hscripts ((C.groupIdentities identities).filter fun g => executed g.1) s
    have hsub : ∀ m ∈ ((C.groupIdentities identities).filter fun g => executed g.1).flatMap Prod.snd,
        m ∈ C.members identities := by
      intro m hm
      obtain ⟨g, hg, hmg⟩ := List.mem_flatMap.mp hm
      exact hperm.mem_iff.mp (List.mem_flatMap.mpr ⟨g, (List.mem_filter.mp hg).1, hmg⟩)
    obtain ⟨hkept, -⟩ := matched_runKeyed (now + C.targetTtl .accepted) hsub h.same h.matched
    rw [← hslot] at hkept
    exact ⟨⟨hkept, h.same⟩, rfl⟩

theorem remembered_of_rememberable (clock : ℕ → ℤ) (replies : ℕ → Reply) (hne : identities ≠ []) :
    ∀ (tries attempt : ℕ) (s : IdentityStore), C.Rememberable identities s →
      (C.rememberFrom clock replies identities attempt tries s).2 =
        (List.range tries).any fun k => (replies (attempt + k)).isOk := by
  intro tries
  induction tries with
  | zero => exact fun _ _ _ => rfl
  | succ tries ih =>
    intro attempt s h
    obtain ⟨hkept, hreply⟩ := transition_rememberable (clock attempt) h hne (replies attempt)
    unfold rememberFrom
    rw [List.range_succ_eq_map, List.any_cons, List.any_map, Nat.add_zero]
    cases hok : (replies attempt).isOk with
    | true =>
      rw [hok, if_pos rfl] at hreply
      split
      next s' changed heq =>
        rw [heq] at hreply
        obtain rfl := Option.some.inj hreply
        simp
      next s' heq =>
        rw [heq] at hreply
        cases hreply
    | false =>
      rw [hok, if_neg Bool.false_ne_true] at hreply
      split
      next s' changed heq =>
        rw [heq] at hreply
        cases hreply
      next s' heq =>
        rw [heq] at hkept
        rw [ih (attempt + 1) s' hkept, Bool.false_or]
        congr 1
        funext k
        show (replies (attempt + 1 + k)).isOk = (replies (attempt + (k + 1))).isOk
        rw [Nat.add_right_comm, Nat.add_assoc]

/-! ### Claims -/

def claimOf (C : IdentityContext) (now : ℤ) (s : IdentityStore) (identity : String × String) :
    Claim :=
  claimAnswer ((s.live now (C.locate identity.1)).map Prod.fst) identity.2

/-- Where no two identities share a location, each claim is answered from its own entry, and an owner
finds its entry pending afterwards. -/
theorem claim_of_nodup (now : ℤ) (s : IdentityStore)
    (hnodup : (identities.map fun p => C.locate p.1).Nodup) {i : ℕ} {p : String × String}
    (hp : identities[i]? = some p) :
    (C.eventIdentityStatusBatch now identities s).2[i]? = some (C.claimOf now s p) ∧
      (C.claimOf now s p = .owner →
        (C.eventIdentityStatusBatch now identities s).1.current (C.locate p.1) =
          some (entryText .pending p.2)) := by
  obtain ⟨hlive, hanswers⟩ := C.eventIdentityStatusBatch_statuses now identities s
  have hkeys : ((C.located identities).map Prod.fst).Nodup := by
    unfold located
    rw [List.map_map]
    exact hnodup
  have hlocated : (C.located identities)[i]? = some (C.locate p.1, p.2) := by
    unfold located
    rw [List.getElem?_map, hp]
    rfl
  obtain ⟨houtcome, hstate⟩ := runKeyed_of_nodup
    (claimEntry (now + C.settings.pendingTtlSeconds)) (s.live now) hkeys hlocated
  constructor
  · rw [hanswers, List.getElem?_map]
    unfold statuses
    rw [houtcome, Option.map_some, claimEntry_answer]
    rfl
  · intro howner
    have hnone : s.live now (C.locate p.1) = none :=
      Option.map_eq_none_iff.mp (claimAnswer_eq_owner.mp howner)
    have hafter : (C.eventIdentityStatusBatch now identities s).1.live now (C.locate p.1) =
        some (entryText .pending p.2, some (now + C.settings.pendingTtlSeconds)) := by
      rw [hlive]
      unfold statuses
      rw [hstate, hnone]
      rfl
    exact current_of_live hafter

end IdentityContext

/-- How `accept_many` ends for its caller. -/
inductive CustodyEnding
  | returned (results : List Result)
  /-- `redis.RedisError` -/
  | redisError
  | raised

def CustodyEnding.ofBatch : BatchEnding → CustodyEnding
  | .returned results => .returned results
  | .raised => .raised
  | .unresolved => .raised

theorem takeWhile_ne_of_nodup {α β : Type*} [DecidableEq β] {f : α → β} {l : List α}
    (h : (l.map f).Nodup) {k : ℕ} {x : α} (hx : l[k]? = some x) :
    l.takeWhile (fun y => f y ≠ f x) = l.take k := by
  induction l generalizing k with
  | nil => rw [List.take_nil, List.takeWhile_nil]
  | cons y l ih =>
    rw [List.map_cons, List.nodup_cons] at h
    cases k with
    | zero =>
      obtain rfl := Option.some.inj hx
      rw [List.takeWhile_cons_of_neg (by simp), List.take_zero]
    | succ k =>
      have hne : f y ≠ f x := fun heq => h.1 (heq ▸ List.mem_map_of_mem (List.mem_of_getElem? hx))
      rw [List.takeWhile_cons_of_pos (by simpa using hne), List.take_succ_cons, ih h.2 hx]

namespace TokenEventCustody
variable {C : TokenEventCustody} {w : Surroundings} {events : List Dict} {s : IdentityStore}
  {fate : Prepared → Message → Option PublishError} {c : Claimed} {messages : List Message}

/-! ### Verdicts -/

def messageIn (C : TokenEventCustody) (o : Owned) : Option Message :=
  match o.payload.get "customerId" with
  | some (.str customerId) =>
    some { topic := C.topicOf o, key := customerId, envelope := o.envelope }
  | _ => none

/-- The envelope and the message that an event is sent with. -/
def sending (C : TokenEventCustody) (w : Surroundings) (p : Prepared) : Option (Owned × Message) :=
  (C.withoutReservation.own w p).bind fun o => (C.messageIn o).map fun m => (o, m)

/-- One of the tries to remember the acknowledged identities comes back. -/
def finalizes (C : TokenEventCustody) (w : Surroundings) : Bool :=
  (List.range C.settings.finalizeRetries).any fun k => (w.rememberReply k).isOk

/-- What an event is told that shares its id with no other; `fate` is the outcome of its message. -/
def verdict (C : TokenEventCustody) (w : Surroundings) (fate : Prepared → Message → Option PublishError)
    (s : IdentityStore) (p : Prepared) : Option Result :=
  match claimResult p.eventId (C.claimOf w.claimClock s p.identity) with
  | some result => some result
  | none =>
    (C.sending w p).map fun sent =>
      match fate p sent.2 with
      | some error => errorResult p.eventId error
      | none => (finalResult (C.finalizes w) sent.1).1

/-- The outcomes that the broker tells are the fates of the messages. -/
def Fated (w : Surroundings) (c : Claimed) (messages : List Message)
    (fate : Prepared → Message → Option PublishError) : Prop :=
  ∀ (k : ℕ) (o : Owned) (m : Message), c.owned[k]? = some o → messages[k]? = some m →
    (w.broker messages).outcomes[k]? = some (fate o.toPrepared m)

/-- The events whose messages are published, in their order. -/
def published (C : TokenEventCustody) (w : Surroundings) (events : List Dict) (s : IdentityStore) :
    List Prepared :=
  (C.deduplicated w events).unique.filter fun p => C.claimOf w.claimClock s p.identity = .owner

/-- The messages that are published before that of an event. -/
def messagesBefore (C : TokenEventCustody) (w : Surroundings) (events : List Dict) (s : IdentityStore)
    (p : Prepared) : List Message :=
  ((C.published w events s).takeWhile fun u => u.index ≠ p.index).filterMap fun u =>
    (C.sending w u).map Prod.snd

/-- No two event ids of the batch have one digest. -/
def DigestsDiffer (C : TokenEventCustody) (events : List Dict) : Prop :=
  ∀ e ∈ events, ∀ e' ∈ events,
    C.py.sha256 (eventIdOf e) = C.py.sha256 (eventIdOf e') → eventIdOf e = eventIdOf e'

/-! ### The events of a batch -/

section Batch
variable (h : C.Publishes w events s c messages) (hsha : C.DigestsDiffer events)
include h hsha

omit h in
theorem eventId_of_locate {u v : Prepared} (hu : u ∈ C.prepared w events)
    (hv : v ∈ C.prepared w events) (hlocate : C.locate u.eventId = C.locate v.eventId) :
    u.eventId = v.eventId := by
  obtain ⟨i, e, he, rfl⟩ := mem_prepared.mp hu
  obtain ⟨j, e', he', rfl⟩ := mem_prepared.mp hv
  rw [eventId_preparedAt, eventId_preparedAt] at hlocate ⊢
  exact hsha e (List.mem_of_getElem? he) e' (List.mem_of_getElem? he')
    (congrArg Location.field hlocate)

omit h in
/-- The events that stand for their ids have entries of their own. -/
theorem nodup_locations : (((C.deduplicated w events).unique.map Prepared.identity).map
    fun p => C.locate p.1).Nodup := by
  have hsound := C.sound_deduplicated w events
  rw [List.map_map]
  refine List.Nodup.map_on (fun u hu v hv hlocate => ?_) (hsound.nodup.of_map _)
  exact List.inj_on_of_nodup_map hsound.nodup hu hv
    (eventId_of_locate hsha (hsound.mem hu) (hsound.mem hv) hlocate)

omit h in
/-- The claims are answered each from its own entry. -/
theorem claim_of_unique {u : Prepared} {claim : Claim}
    (hmem : (u, claim) ∈ (C.deduplicated w events).unique.zip (C.batchClaims w events s).2) :
    claim = C.claimOf w.claimClock s u.identity ∧
      (claim = .owner → (C.batchClaims w events s).1.current (C.locate u.eventId) =
        some (entryText .pending u.payloadHash)) := by
  obtain ⟨i, hi⟩ := List.mem_iff_getElem?.mp hmem
  obtain ⟨hunique, hclaim⟩ := List.getElem?_zip_eq_some.mp hi
  have hidentity : ((C.deduplicated w events).unique.map Prepared.identity)[i]? =
      some u.identity := by
    rw [List.getElem?_map, hunique]
    rfl
  obtain ⟨hanswer, hpending⟩ := IdentityContext.claim_of_nodup w.claimClock s
    (nodup_locations hsha) hidentity
  have hsame : claim = C.claimOf w.claimClock s u.identity := by
    unfold batchClaims at hclaim
    rw [hanswer] at hclaim
    exact (Option.some.inj hclaim).symm
  exact ⟨hsame, fun howner => hpending (hsame.symm.trans howner)⟩

/-- The owned events are those whose entries answered so. -/
theorem owned_facts {o : Owned} (ho : o ∈ c.owned) :
    o.toPrepared ∈ (C.deduplicated w events).unique ∧
      C.claimOf w.claimClock s o.identity = .owner ∧
      (C.batchClaims w events s).1.current (C.locate o.eventId) =
        some (entryText .pending o.payloadHash) ∧
      C.withoutReservation.own w o.toPrepared = some o := by
  obtain ⟨-, howned, howns⟩ := claims_answer h.claiming
  have hmem : o.toPrepared ∈ c.owned.map Owned.toPrepared := List.mem_map.mpr ⟨o, ho, rfl⟩
  rw [howned] at hmem
  obtain ⟨⟨u, claim⟩, hp, heq⟩ := List.mem_map.mp hmem
  obtain ⟨hzip, hfilter⟩ := List.mem_filter.mp hp
  have howner : claim = .owner := by simpa using hfilter
  obtain rfl : u = o.toPrepared := heq
  obtain ⟨hclaim, hpending⟩ := claim_of_unique hsha hzip
  refine ⟨(List.of_mem_zip hzip).1, hclaim.symm.trans howner, hpending howner, ?_⟩
  rcases howns o ho with hold | hown
  · cases hold
  · exact hown

omit hsha in
/-- An event whose claim is answered so is owned. -/
theorem owned_of_owner {u : Prepared}
    (hmem : (u, Claim.owner) ∈ (C.deduplicated w events).unique.zip (C.batchClaims w events s).2) :
    ∃ o ∈ c.owned, o.toPrepared = u := by
  obtain ⟨-, howned, -⟩ := claims_answer h.claiming
  have hu : u ∈ c.owned.map Owned.toPrepared := by
    rw [howned]
    apply List.mem_append_right
    exact List.mem_map.mpr ⟨(u, .owner), List.mem_filter.mpr ⟨hmem, by simp⟩, rfl⟩
  exact List.mem_map.mp hu

omit hsha in
private theorem message_of_owned {k : ℕ} {o : Owned} (ho : c.owned[k]? = some o) :
    ∃ m, messages[k]? = some m ∧ C.messageIn o = some m := by
  have hforall := mapM_eq_some_iff.mp h.messaging
  obtain ⟨hk, hget⟩ := List.getElem?_eq_some_iff.mp ho
  have hk' : k < messages.length := hforall.length_eq ▸ hk
  refine ⟨messages[k], List.getElem?_eq_getElem hk', ?_⟩
  have hsent := hforall.get hk hk'
  rw [List.get_eq_getElem, List.get_eq_getElem, hget] at hsent
  exact hsent

omit hsha in
/-- The outcome of an owned event is the fate of its message. -/
theorem outcome_of_owned (hfate : Fated w c messages fate) {o : Owned}
    {outcome : Option PublishError} (hmem : (o, outcome) ∈ c.owned.zip (w.broker messages).outcomes) :
    o ∈ c.owned ∧ ∃ m, C.messageIn o = some m ∧ outcome = fate o.toPrepared m := by
  obtain ⟨k, hk⟩ := List.mem_iff_getElem?.mp hmem
  obtain ⟨ho, houtcome⟩ := List.getElem?_zip_eq_some.mp hk
  obtain ⟨m, hm, hsent⟩ := message_of_owned h ho
  rw [hfate k o m ho hm] at houtcome
  exact ⟨List.mem_of_getElem? ho, m, hsent, (Option.some.inj houtcome).symm⟩

omit hsha in
theorem take_messages (k : ℕ) : (c.owned.take k).filterMap C.messageIn = messages.take k := by
  have hforall := List.forall₂_take k (mapM_eq_some_iff.mp h.messaging)
  generalize c.owned.take k = owned at hforall
  generalize messages.take k = sent at hforall
  induction hforall with
  | nil => rfl
  | cons hm _ ih => exact (List.filterMap_cons_some (f := C.messageIn) hm).trans (congrArg _ ih)

/-- The owned events are published. -/
theorem owned_published : c.owned.map Owned.toPrepared = C.published w events s := by
  obtain ⟨-, howned, -⟩ := claims_answer h.claiming
  have hclaims : ∀ p ∈ (C.deduplicated w events).unique.zip (C.batchClaims w events s).2,
      decide (p.2 = Claim.owner) = decide (C.claimOf w.claimClock s p.1.identity = .owner) :=
    fun p hp => by rw [(claim_of_unique hsha hp).1]
  have hunique : ((C.deduplicated w events).unique.zip (C.batchClaims w events s).2).map Prod.fst =
      (C.deduplicated w events).unique :=
    List.map_fst_zip (length_batchClaims C w events s).ge
  unfold published
  rw [howned, List.filter_congr hclaims]
  conv_rhs => rw [← hunique, List.filter_map]
  rfl

omit h hsha in
private theorem nodup_published : ((C.published w events s).map Prepared.index).Nodup := by
  have hsound := C.sound_deduplicated w events
  refine List.Nodup.map_on (fun u hu v hv heq => ?_) ((hsound.nodup.of_map _).filter _)
  exact List.inj_on_of_nodup_map hsound.indices (hsound.mem (List.mem_filter.mp hu).1)
    (hsound.mem (List.mem_filter.mp hv).1) heq

private theorem messages_before {k : ℕ} {o : Owned} (ho : c.owned[k]? = some o) :
    C.messagesBefore w events s o.toPrepared = messages.take k := by
  have hplace : (C.published w events s)[k]? = some o.toPrepared := by
    rw [← owned_published h hsha, List.getElem?_map, ho]
    rfl
  unfold messagesBefore
  rw [takeWhile_ne_of_nodup nodup_published hplace, ← owned_published h hsha, ← List.map_take,
    List.filterMap_map, ← take_messages h k]
  refine List.filterMap_congr fun o' ho' => ?_
  have hown := (owned_facts h hsha (List.mem_of_mem_take ho')).2.2.2
  unfold sending
  dsimp only [Function.comp]
  rw [hown, Option.bind_some, Option.map_map]
  exact Option.map_id'

omit h hsha in
theorem messagesBefore_singleton (e : Dict) {p : Prepared} (hp : p.index = 0) :
    C.messagesBefore w [e] s p = [] := by
  have hplace : ∀ u ∈ C.published w [e] s, u.index = 0 := by
    intro u hu
    obtain ⟨k, e', hk, rfl⟩ :=
      mem_prepared.mp ((C.sound_deduplicated w [e]).mem (List.mem_filter.mp hu).1)
    obtain ⟨hlt, -⟩ := List.getElem?_eq_some_iff.mp hk
    exact Nat.lt_one_iff.mp hlt
  unfold messagesBefore
  cases hall : C.published w [e] s with
  | nil => rfl
  | cons u rest =>
    have hu : u.index = 0 := hplace u (hall ▸ List.mem_cons_self)
    rw [List.takeWhile_cons_of_neg (by simp [hu, hp])]
    rfl

/-- At a producer that publishes them in one call, each message meets what those before it leave. -/
theorem fated_broker {b : Broker} (hbroker : w.broker = b.publication) :
    Fated w c messages fun p m => b.fateAfter (C.messagesBefore w events s p) m := by
  intro k o m ho hm
  show _ = some (b.fateAfter (C.messagesBefore w events s o.toPrepared) m)
  rw [hbroker, messages_before h hsha ho]
  exact Broker.getElem?_outcomes hm

omit h hsha in
/-- A member that is to be remembered belongs to an owned event. -/
theorem owned_of_member {outcomes : List (Option PublishError)} {m : Member}
    (hm : m ∈ C.members ((acknowledged c outcomes).map fun o => o.identity)) :
    ∃ o ∈ c.owned, m.location = C.locate o.eventId ∧ m.fingerprint = o.payloadHash := by
  obtain ⟨p, hp, rfl⟩ := List.mem_map.mp hm
  obtain ⟨o, ho, heq⟩ := List.mem_map.mp (List.fst_mem_of_mem_zipIdx hp)
  obtain ⟨i, howned, -⟩ := mem_acknowledged ho
  refine ⟨o, List.mem_of_getElem? howned, ?_, ?_⟩
  · rw [← heq]
    rfl
  · rw [← heq]
    rfl

private theorem rememberable_acknowledged (outcomes : List (Option PublishError)) :
    C.Rememberable ((acknowledged c outcomes).map fun o => o.identity)
      (C.batchClaims w events s).1 := by
  constructor
  · intro m hm
    obtain ⟨o, ho, hlocation, hfingerprint⟩ := owned_of_member hm
    have htext : ((C.batchClaims w events s).1.slot (C.locate o.eventId)).text =
        some (entryText .pending o.payloadHash) := (owned_facts h hsha ho).2.2.1
    unfold IdentityStore.Matched
    rw [hlocation, hfingerprint, htext]
    simp [transitionMatched, transitionAllowed]
  · intro m hm m' hm' hlocation
    obtain ⟨o, ho, hm, hf⟩ := owned_of_member hm
    obtain ⟨o', ho', hm', hf'⟩ := owned_of_member hm'
    have hunique := (owned_facts h hsha ho).1
    have hunique' := (owned_facts h hsha ho').1
    have hsound := C.sound_deduplicated w events
    have hid : o.eventId = o'.eventId := by
      refine eventId_of_locate hsha (hsound.mem hunique) (hsound.mem hunique') ?_
      rw [← hm, ← hm', hlocation]
    have hsame : o.toPrepared = o'.toPrepared :=
      List.inj_on_of_nodup_map hsound.nodup hunique hunique' hid
    rw [hf, hf', hsame]

theorem remembered_eq {o : Owned} (ho : o ∈ acknowledged c (w.broker messages).outcomes) :
    (C.remembered w c (w.broker messages).outcomes (C.batchClaims w events s).1).2 =
      C.finalizes w := by
  have hne : (acknowledged c (w.broker messages).outcomes).map (fun o => o.identity) ≠ [] :=
    List.ne_nil_of_mem (List.mem_map_of_mem ho)
  have hall := IdentityContext.remembered_of_rememberable w.rememberClock w.rememberReply hne
    C.settings.finalizeRetries 0 _ (rememberable_acknowledged h hsha _)
  simp only [Nat.zero_add] at hall
  exact hall

end Batch

/-! ### The first event with an id -/

/-- No event before the position has its event id. -/
def First (events : List Dict) (j : ℕ) : Prop :=
  ∀ e k e', events[j]? = some e → events[k]? = some e' → eventIdOf e' = eventIdOf e → j ≤ k

theorem getElem?_prepared (C : TokenEventCustody) (w : Surroundings) (events : List Dict) (j : ℕ) :
    (C.prepared w events)[j]? = (events[j]?).map fun e => C.preparedAt w (e, j) := by
  unfold prepared
  rw [List.getElem?_map, List.getElem?_zipIdx, Option.map_map, Nat.zero_add]
  rfl

theorem first_of_unique {u : Prepared} (hu : u ∈ (C.deduplicated w events).unique) :
    ∃ j e, events[j]? = some e ∧ u = C.preparedAt w (e, j) ∧ First events j := by
  have hsound := C.sound_deduplicated w events
  obtain ⟨j, e, hj, rfl⟩ := mem_prepared.mp (hsound.mem hu)
  refine ⟨j, e, hj, rfl, fun e₁ k e' he₁ hk hid => ?_⟩
  obtain rfl : e = e₁ := Option.some.inj (hj.symm.trans he₁)
  obtain ⟨-, i, hi, hget, hbefore⟩ := List.find?_eq_some_iff_getElem.mp (hsound.first _ hu)
  have hplace : i = j := by
    have hgot := getElem?_prepared C w events i
    rw [List.getElem?_eq_getElem hi, hget] at hgot
    obtain ⟨e', -, heq⟩ := Option.map_eq_some_iff.mp hgot.symm
    exact congrArg Prepared.index heq
  subst hplace
  by_contra hlt
  have hgot := getElem?_prepared C w events k
  rw [hk, List.getElem?_eq_getElem (by omega)] at hgot
  have hdiffers := hbefore k (by omega)
  rw [Option.some.inj hgot, eventId_preparedAt, eventId_preparedAt] at hdiffers
  simp [hid] at hdiffers

theorem unique_of_first {j : ℕ} {e : Dict} (hj : events[j]? = some e) (hfirst : First events j) :
    C.preparedAt w (e, j) ∈ (C.deduplicated w events).unique := by
  have hsound := C.sound_deduplicated w events
  have hp : C.preparedAt w (e, j) ∈ C.prepared w events := mem_prepared.mpr ⟨j, e, hj, rfl⟩
  obtain ⟨⟨payloadHash, index⟩, hseen⟩ := Option.ne_none_iff_exists'.mp (hsound.complete _ hp)
  obtain ⟨u, hu, hidentity, -⟩ := hsound.seen _ _ _ hseen
  obtain ⟨k, e', hk, rfl, hfirst'⟩ := first_of_unique hu
  have hid : eventIdOf e' = eventIdOf e := by
    have hids := congrArg Prod.fst hidentity
    exact (eventId_preparedAt (w := w) (e', k)).symm.trans
      (hids.trans (eventId_preparedAt (w := w) (e, j)))
  have hle := hfirst e k e' hj hk hid
  have hge := hfirst' e' j e hk hj hid.symm
  obtain rfl : k = j := by omega
  obtain rfl : e' = e := Option.some.inj (hk.symm.trans hj)
  exact hu

/-! ### The result of an event with an id of its own -/

/-- No other position has the event id of a position. -/
def Unshared (events : List Dict) (j : ℕ) : Prop :=
  ∀ e k e', events[j]? = some e → events[k]? = some e' → eventIdOf e' = eventIdOf e → k = j

section Unshared
variable {j : ℕ} {e : Dict}

theorem unique_of_unshared (hj : events[j]? = some e) (hunshared : Unshared events j) :
    C.preparedAt w (e, j) ∈ (C.deduplicated w events).unique ∧
      ∀ u ∈ (C.deduplicated w events).unique, u.eventId = eventIdOf e →
        u = C.preparedAt w (e, j) := by
  have hsound := C.sound_deduplicated w events
  constructor
  · exact unique_of_first hj fun e₁ k e' he₁ hk hid => (hunshared e₁ k e' he₁ hk hid).ge
  · intro u hu hid
    obtain ⟨k, e', hk, rfl⟩ := mem_prepared.mp (hsound.mem hu)
    rw [eventId_preparedAt] at hid
    obtain rfl := hunshared e k e' hj hk hid
    rw [hj] at hk
    rw [Option.some.inj hk]

/-- What is written at the position is written for the event itself. -/
theorem goodFor_unshared (hj : events[j]? = some e) (hunshared : Unshared events j)
    {v : Result} {u : Prepared} (hu : u ∈ (C.deduplicated w events).unique) {own copied : Result}
    (hown : u = C.preparedAt w (e, j) → own = v) :
    (C.deduplicated w events).GoodFor (fun i r => i = j → r = v) u own copied := by
  have hsound := C.sound_deduplicated w events
  constructor
  · intro hindex
    refine hown ?_
    have hp : C.preparedAt w (e, j) ∈ C.prepared w events := mem_prepared.mpr ⟨j, e, hj, rfl⟩
    exact List.inj_on_of_nodup_map hsound.indices (hsound.mem hu) hp hindex
  · rintro i hi rfl
    obtain ⟨p, hp, hindex, hsame, hne⟩ := hsound.aliases u hu i hi
    obtain ⟨k, e', hk, rfl⟩ := mem_prepared.mp hp
    obtain rfl : k = i := hindex
    rw [hj] at hk
    obtain rfl := Option.some.inj hk
    have hid : u.eventId = eventIdOf e :=
      (congrArg Prod.fst hsame).symm.trans (eventId_preparedAt (w := w) (e, k))
    have hunique := (unique_of_unshared hj hunshared).2 u hu hid
    exact absurd (by rw [hunique]; rfl) hne

theorem verdict_of_owned (h : C.Publishes w events s c messages) (hsha : C.DigestsDiffer events)
    {o : Owned} (ho : o ∈ c.owned) {m : Message} (hm : C.messageIn o = some m) :
    C.verdict w fate s o.toPrepared = some (match fate o.toPrepared m with
      | some error => errorResult o.eventId error
      | none => (finalResult (C.finalizes w) o).1) := by
  obtain ⟨-, howner, -, hown⟩ := owned_facts h hsha ho
  unfold verdict sending
  rw [howner, claimResult_eq_none.mpr rfl, hown, Option.bind_some, hm]
  rfl

private theorem verdict_isSome (fate : Prepared → Message → Option PublishError)
    (h : C.Publishes w events s c messages) (hsha : C.DigestsDiffer events) {p : Prepared}
    (hp : p ∈ (C.deduplicated w events).unique) :
    ∃ v, C.verdict w fate s p = some v := by
  obtain ⟨claim, hzip⟩ := exists_zip (length_batchClaims C w events s) hp
  obtain ⟨hclaim, -⟩ := claim_of_unique hsha hzip
  cases htold : claimResult p.eventId claim with
  | some result =>
    refine ⟨result, ?_⟩
    unfold verdict
    rw [← hclaim, htold]
  | none =>
    obtain rfl := claimResult_eq_none.mp htold
    obtain ⟨o, ho, rfl⟩ := owned_of_owner h hzip
    have hsome : (c.owned.mapM C.messageIn).isSome := Option.isSome_iff_exists.mpr ⟨_, h.messaging⟩
    obtain ⟨m, hm⟩ := Option.isSome_iff_exists.mp (mapM_isSome.mp hsome o ho)
    exact ⟨_, verdict_of_owned h hsha ho hm⟩

/-- An event that shares its id with no other is told its verdict. -/
theorem settled_unshared (h : C.Publishes w events s c messages) (hsha : C.DigestsDiffer events)
    (hfate : Fated w c messages fate) (hj : events[j]? = some e)
    (hunshared : Unshared events j) :
    ∃ v, C.verdict w fate s (C.preparedAt w (e, j)) = some v ∧
      (C.settled w events s c messages).2 j = some v := by
  have hsound := C.sound_deduplicated w events
  have hp : C.preparedAt w (e, j) ∈ C.prepared w events := mem_prepared.mpr ⟨j, e, hj, rfl⟩
  obtain ⟨hunique, hsame⟩ := unique_of_unshared (C := C) (w := w) hj hunshared
  have houtcomes : (w.broker messages).outcomes.length = c.owned.length := by
    rw [(w.broker messages).length_outcomes, (messages_of_owned h).length_eq]
  obtain ⟨v, hv⟩ := verdict_isSome fate h hsha hunique
  have hgood : (C.settled w events s c messages).2.Sound fun i r => i = j → r = v := by
    refine settleBatch_sound (fun i r => i = j → r = v) h ?_ ?_ ?_ ?_
    · rintro i r hr rfl
      obtain ⟨p, hp', hindex, -, u, hu, hid, hne⟩ := hsound.conflicts i r hr
      have heq : p = C.preparedAt w (e, i) :=
        List.inj_on_of_nodup_map hsound.indices hp' hp hindex
      rw [heq] at hid hne
      exact absurd (by rw [hsame u hu (hid.trans (eventId_preparedAt (w := w) (e, i)))]) hne
    · rintro ⟨u, claim⟩ hmem r hr
      refine goodFor_unshared hj hunshared (List.of_mem_zip hmem).1 fun heq => ?_
      dsimp only at hr heq
      rw [(claim_of_unique hsha hmem).1] at hr
      unfold verdict at hv
      rw [← heq, hr] at hv
      exact Option.some.inj hv
    · rintro ⟨o, outcome⟩ hmem error herror
      obtain ⟨ho, m, hm, hfated⟩ := outcome_of_owned h hfate hmem
      refine goodFor_unshared hj hunshared (owned_facts h hsha ho).1 fun heq => ?_
      dsimp only at herror heq
      rw [← heq, verdict_of_owned h hsha ho hm, ← hfated, herror] at hv
      exact Option.some.inj hv
    · intro o ho
      obtain ⟨x, hx, rfl⟩ := List.mem_map.mp ho
      obtain ⟨hmem, hnone⟩ := List.mem_filter.mp hx
      obtain ⟨o, outcome⟩ := x
      have hnone : outcome = none := by simpa using hnone
      obtain ⟨howned, m, hm, hfated⟩ := outcome_of_owned h hfate hmem
      refine goodFor_unshared hj hunshared (owned_facts h hsha howned).1 fun heq => ?_
      rw [remembered_eq h hsha ho]
      rw [← heq, verdict_of_owned h hsha howned hm, ← hfated, hnone] at hv
      exact Option.some.inj hv
  obtain ⟨r, hr⟩ := Option.ne_none_iff_exists'.mp (settleBatch_complete h houtcomes hp)
  exact ⟨v, hv, hr.trans (congrArg some (hgood j r hr rfl))⟩

end Unshared

/-! ### The same event in two calls -/

/-- The places of two calls have the same clocks and trace ids, and the calls the same replies. -/
structure Alike (w w' : Surroundings) (j j' : ℕ) : Prop where
  prepareClock : w.prepareClock j = w'.prepareClock j'
  claimClock : w.claimClock = w'.claimClock
  receivedClock : w.receivedClock j = w'.receivedClock j'
  traceId : w.traceId j = w'.traceId j'
  rememberReply : w.rememberReply = w'.rememberReply

section Alike
variable {w' : Surroundings} {j j' : ℕ} {e : Dict}

theorem identity_preparedAt (C : TokenEventCustody) (w : Surroundings) (e : Dict) (j : ℕ) :
    (C.preparedAt w (e, j)).identity = (eventIdOf e, C.hashOf e) :=
  Prod.ext (eventId_preparedAt (w := w) (e, j)) rfl

theorem prepared_of_sending {p : Prepared} {sent : Owned × Message}
    (h : C.sending w p = some sent) : sent.1.toPrepared = p := by
  obtain ⟨o, ho, hm⟩ := Option.bind_eq_some_iff.mp h
  obtain ⟨m, -, rfl⟩ := Option.map_eq_some_iff.mp hm
  exact toPrepared_of_own ho

theorem sending_alike (h : Alike w w' j j') :
    C.sending w' (C.preparedAt w' (e, j')) = (C.sending w (C.preparedAt w (e, j))).map
      fun sent => ({ sent.1 with toPrepared := C.preparedAt w' (e, j') }, sent.2) := by
  have hpayload : (C.preparedAt w' (e, j')).payload = (C.preparedAt w (e, j)).payload :=
    congrArg (stamped e) h.prepareClock.symm
  have hown : C.withoutReservation.own w' (C.preparedAt w' (e, j')) =
      (C.withoutReservation.own w (C.preparedAt w (e, j))).map
        fun o => { o with toPrepared := C.preparedAt w' (e, j') } := by
    unfold own
    rw [hpayload]
    dsimp only [preparedAt]
    rw [← h.receivedClock, ← h.traceId]
    cases timestampOf C.withoutReservation.py (stamped e (w.prepareClock j)) with
    | none => rfl
    | some timestamp =>
      dsimp only [Option.bind_eq_bind, Option.bind_some]
      generalize trustedEnvelope (stamped e (w.prepareClock j)) _ = envelope
      cases envelope <;> rfl
  unfold sending
  rw [hown]
  cases howned : C.withoutReservation.own w (C.preparedAt w (e, j)) with
  | none => rfl
  | some o =>
    have hprepared : o.toPrepared = C.preparedAt w (e, j) := toPrepared_of_own howned
    have hmessage : C.messageIn { o with toPrepared := C.preparedAt w' (e, j') } = C.messageIn o := by
      unfold messageIn
      rw [hprepared]
      dsimp only
      rw [hpayload]
      rfl
    rw [Option.map_some, Option.bind_some, Option.bind_some, hmessage]
    cases C.messageIn o <;> rfl

/-- The verdict of an event depends on its place by the fate of its message alone. -/
theorem verdict_alike {fate' : Prepared → Message → Option PublishError} (h : Alike w w' j j')
    (hfate : C.claimOf w.claimClock s (eventIdOf e, C.hashOf e) = .owner →
      ∀ sent, C.sending w (C.preparedAt w (e, j)) = some sent →
        fate' (C.preparedAt w' (e, j')) sent.2 = fate (C.preparedAt w (e, j)) sent.2) :
    C.verdict w' fate' s (C.preparedAt w' (e, j')) = C.verdict w fate s (C.preparedAt w (e, j)) := by
  have hid : (C.preparedAt w' (e, j')).eventId = (C.preparedAt w (e, j)).eventId :=
    (eventId_preparedAt (w := w') (e, j')).trans (eventId_preparedAt (w := w) (e, j)).symm
  have hfinalizes : C.finalizes w' = C.finalizes w := by
    unfold finalizes
    rw [h.rememberReply]
  unfold verdict
  rw [identity_preparedAt, identity_preparedAt, sending_alike h, ← h.claimClock, hid, hfinalizes]
  cases htold : claimResult (C.preparedAt w (e, j)).eventId
      (C.claimOf w.claimClock s (eventIdOf e, C.hashOf e)) with
  | some result => rfl
  | none =>
    have howner := claimResult_eq_none.mp htold
    cases hsending : C.sending w (C.preparedAt w (e, j)) with
    | none => rfl
    | some sent =>
      have hevent : sent.1.eventId = (C.preparedAt w (e, j)).eventId := by
        rw [← prepared_of_sending hsending]
      have hfinal : finalResult (C.finalizes w)
            { sent.1 with toPrepared := C.preparedAt w' (e, j') } =
          finalResult (C.finalizes w) sent.1 := by
        have hplace : ({ sent.1 with toPrepared := C.preparedAt w' (e, j') } : Owned).eventId =
            sent.1.eventId := hid.trans hevent.symm
        unfold finalResult
        rw [hplace]
        rfl
      simp only [Option.map_some, hfinal, hfate howner sent hsending]

end Alike

/-! ### Pipelines that raise -/

/-- `accept_many` where the pipelines of the claims and of the releases may raise. -/
def acceptManyReplied (C : TokenEventCustody) (w : Surroundings) (claimsRaise releaseRaises : Bool)
    (events : List Dict) (s : IdentityStore) : CustodyEnding :=
  match C.prepareAll w events with
  | none => .raised
  | some prepared =>
    let d := Deduplicated.ofPrepared prepared
    if claimsRaise && !d.unique.isEmpty then .redisError
    else
      let claimed := C.eventIdentityStatusBatch w.claimClock (d.unique.map Prepared.identity) s
      match (d.unique.zip claimed.2).foldlM (C.claimStep w d) { results := d.results } with
      | none => .raised
      | some c =>
        match C.messagesOf c.owned with
        | none => .raised
        | some messages =>
          let outcomes := (w.broker messages).outcomes
          let sorted := (c.owned.zip outcomes).foldl (sortStep d) { results := c.results }
          if releaseRaises && !sorted.failed.isEmpty then .redisError
          else .ofBatch (endingOf events.length (C.settleBatch w d c outcomes claimed.1).2)

theorem acceptManyReplied_ok (C : TokenEventCustody) (w : Surroundings) (events : List Dict)
    (s : IdentityStore) :
    C.acceptManyReplied w false false events s = .ofBatch (C.acceptMany w events s).ending := by
  unfold acceptManyReplied acceptMany
  cases C.prepareAll w events with
  | none => rfl
  | some prepared =>
    dsimp only
    rw [Bool.false_and, if_neg Bool.false_ne_true]
    cases ((Deduplicated.ofPrepared prepared).unique.zip
        (C.eventIdentityStatusBatch w.claimClock
          ((Deduplicated.ofPrepared prepared).unique.map Prepared.identity) s).2).foldlM
        (C.claimStep w (Deduplicated.ofPrepared prepared))
        { results := (Deduplicated.ofPrepared prepared).results } with
    | none => rfl
    | some c =>
      dsimp only
      cases C.messagesOf c.owned with
      | none => rfl
      | some messages =>
        dsimp only
        rw [Bool.false_and, if_neg Bool.false_ne_true]

/-- The event is claimed, and its message is refused without a doubt, so that its claim is
released. -/
def Refused (C : TokenEventCustody) (w : Surroundings)
    (fate : Prepared → Message → Option PublishError) (s : IdentityStore) (p : Prepared) : Prop :=
  C.claimOf w.claimClock s p.identity = .owner ∧
    ∃ sent, C.sending w p = some sent ∧
      (fate p sent.2 = some .overloaded ∨ fate p sent.2 = some .unavailable)

theorem sorts_failed {d : Deduplicated} (items : List (Owned × Option PublishError)) (b : Sorted) :
    (items.foldl (sortStep d) b).failed ≠ [] ↔
      b.failed ≠ [] ∨ ∃ x ∈ items, x.2 = some .overloaded ∨ x.2 = some .unavailable := by
  induction items generalizing b with
  | nil => simp
  | cons x items ih =>
    rw [List.foldl_cons, ih, List.exists_mem_cons_iff, ← or_assoc]
    refine or_congr_left ?_
    obtain ⟨o, outcome⟩ := x
    unfold sortStep
    cases outcome with
    | none => simp
    | some error => cases error <;> simp

theorem refused_alike {w' : Surroundings} {fate' : Prepared → Message → Option PublishError} {j j' : ℕ}
    {e : Dict} (h : Alike w w' j j')
    (hfate : C.claimOf w.claimClock s (eventIdOf e, C.hashOf e) = .owner →
      ∀ sent, C.sending w (C.preparedAt w (e, j)) = some sent →
        fate' (C.preparedAt w' (e, j')) sent.2 = fate (C.preparedAt w (e, j)) sent.2) :
    C.Refused w' fate' s (C.preparedAt w' (e, j')) ↔ C.Refused w fate s (C.preparedAt w (e, j)) := by
  unfold Refused
  rw [identity_preparedAt, identity_preparedAt, sending_alike h, ← h.claimClock]
  refine and_congr_right fun howner => ?_
  cases hsending : C.sending w (C.preparedAt w (e, j)) with
  | none => simp
  | some sent => simp [hfate howner sent hsending]

/-- The event is told a failure: its entry is uncertain, or it is claimed and its message is not
acknowledged, it is not remembered, or the release of its claim raises. -/
def Failing (C : TokenEventCustody) (w : Surroundings)
    (fate : Prepared → Message → Option PublishError) (releaseRaises : Bool) (s : IdentityStore)
    (p : Prepared) : Prop :=
  C.claimOf w.claimClock s p.identity = .uncertain ∨
    C.claimOf w.claimClock s p.identity = .owner ∧
      ∃ sent, C.sending w p = some sent ∧
        match fate p sent.2 with
        | none => C.finalizes w = false
        | some .overloaded => releaseRaises = true
        | some _ => True

/-- Claims are to be released where the message of an event that is the first with its id is refused. -/
theorem failed_iff (h : C.Publishes w events s c messages) (hsha : C.DigestsDiffer events)
    (hfate : Fated w c messages fate) :
    ((c.owned.zip (w.broker messages).outcomes).foldl (sortStep (C.deduplicated w events))
        { results := c.results }).failed ≠ [] ↔
      ∃ j e, events[j]? = some e ∧ First events j ∧
        C.Refused w fate s (C.preparedAt w (e, j)) := by
  rw [sorts_failed]
  have hlength : (w.broker messages).outcomes.length = c.owned.length := by
    rw [(w.broker messages).length_outcomes, (messages_of_owned h).length_eq]
  constructor
  · rintro (hnil | ⟨⟨o, outcome⟩, hmem, hrefused⟩)
    · exact absurd rfl hnil
    · obtain ⟨ho, m, hm, rfl⟩ := outcome_of_owned h hfate hmem
      obtain ⟨hunique, howner, -, hown⟩ := owned_facts h hsha ho
      obtain ⟨j, e, hj, heq, hfirst⟩ := first_of_unique hunique
      refine ⟨j, e, hj, hfirst, ?_⟩
      rw [← heq]
      refine ⟨howner, (o, m), ?_, hrefused⟩
      unfold sending
      rw [hown, Option.bind_some, hm]
      rfl
  · rintro ⟨j, e, hj, hfirst, howner, ⟨o, m⟩, hsending, hrefused⟩
    right
    have hunique := unique_of_first (C := C) (w := w) hj hfirst
    obtain ⟨claim, hzip⟩ := exists_zip (length_batchClaims C w events s) hunique
    obtain rfl : claim = .owner := (claim_of_unique hsha hzip).1.trans howner
    obtain ⟨o', ho', heq⟩ := owned_of_owner h hzip
    obtain ⟨outcome, houtcome⟩ := exists_zip hlength ho'
    obtain ⟨-, m', hm', hfated⟩ := outcome_of_owned h hfate houtcome
    have hown := (owned_facts h hsha ho').2.2.2
    have hsame : m' = m := by
      unfold sending at hsending
      rw [← heq, hown, Option.bind_some, hm'] at hsending
      exact congrArg Prod.snd (Option.some.inj hsending)
    exact ⟨(o', outcome), houtcome, by rw [hfated, hsame, heq]; exact hrefused⟩

theorem acceptManyReplied_eq (hwell : ∀ e ∈ events, WellFormed e)
    (h : C.Publishes w events s c messages) (claimsRaise releaseRaises : Bool) :
    C.acceptManyReplied w claimsRaise releaseRaises events s =
      if claimsRaise && !(C.deduplicated w events).unique.isEmpty then .redisError
      else if releaseRaises && !((c.owned.zip (w.broker messages).outcomes).foldl
          (sortStep (C.deduplicated w events)) { results := c.results }).failed.isEmpty then .redisError
      else .ofBatch (endingOf events.length (C.settled w events s c messages).2) := by
  have hclaiming := h.claiming
  unfold settled
  unfold batchClaims deduplicated prepared at hclaiming ⊢
  unfold acceptManyReplied
  rw [prepareAll_wellFormed hwell]
  dsimp only
  rw [hclaiming]
  dsimp only
  rw [h.messaging]

end TokenEventCustody

end FluxMeter.Custody
