import FluxMeter.Custody.SerialCustody

/-! `accept_many` on the ledger, while Kafka and Redis answer. -/
namespace FluxMeter.Custody
open Collections FluxMeter.Wire Transition

namespace TokenEventCustody
open IdentityContext IdentityStore
variable {C : TokenEventCustody} {w : Surroundings} {s : IdentityStore} {first last : ℤ}
  {events named : List Dict} {c : Claimed} {messages : List Message}

/-! ### The calls that raise -/

theorem acceptMany_of_publishes (hall : C.prepareAll w events = some (C.prepared w named))
    (hlength : named.length = events.length) (h : C.Publishes w named s c messages) :
    C.acceptMany w events s =
      { store := (C.settled w named s c messages).1
        produced := (w.broker messages).produced
        acked := (w.broker messages).acked
        ending := endingOf named.length (C.settled w named s c messages).2 } := by
  have hclaiming := h.claiming
  unfold settled
  unfold batchClaims deduplicated at hclaiming ⊢
  unfold acceptMany
  rw [hall, hlength]
  dsimp only
  rw [hclaiming]
  dsimp only
  rw [h.messaging]

theorem acceptMany_of_not_publishes (hall : C.prepareAll w events = some (C.prepared w named))
    (h : ¬ ∃ c messages, C.Publishes w named s c messages) :
    C.acceptMany w events s = { store := (C.batchClaims w named s).1, ending := .raised } := by
  unfold acceptMany
  rw [hall]
  dsimp only
  cases hclaiming : ((C.deduplicated w named).unique.zip (C.batchClaims w named s).2).foldlM
      (C.claimStep w (C.deduplicated w named)) { results := (C.deduplicated w named).results } with
  | none =>
    unfold batchClaims deduplicated at hclaiming ⊢
    rw [hclaiming]
  | some c =>
    cases hmessaging : C.messagesOf c.owned with
    | none =>
      unfold batchClaims deduplicated at hclaiming ⊢
      rw [hclaiming]
      dsimp only
      rw [hmessaging]
    | some messages => exact absurd ⟨c, messages, hclaiming, hmessaging⟩ h

/-- A batch comes to its publication where every event that it claims can be sent. -/
theorem publishes_iff (hsha : C.DigestsDiffer named) :
    (∃ c messages, C.Publishes w named s c messages) ↔
      ∀ u ∈ (C.deduplicated w named).unique, C.claimOf w.claimClock s u.identity = .owner →
        (C.sending w u).isSome := by
  constructor
  · rintro ⟨c, messages, h⟩ u hu howner
    obtain ⟨claim, hzip⟩ := exists_zip (length_batchClaims C w named s) hu
    obtain rfl : claim = .owner := (claim_of_unique hsha hzip).1.trans howner
    obtain ⟨o, ho, rfl⟩ := owned_of_owner h hzip
    have hsome : (c.owned.mapM C.messageIn).isSome := Option.isSome_iff_exists.mpr ⟨_, h.messaging⟩
    obtain ⟨m, hm⟩ := Option.isSome_iff_exists.mp (mapM_isSome.mp hsome o ho)
    unfold sending
    rw [(owned_facts h hsha ho).2.2.2, Option.bind_some, hm]
    rfl
  · intro hsends
    have hzipped : ∀ p ∈ (C.deduplicated w named).unique.zip (C.batchClaims w named s).2,
        p.2 = .owner → (C.sending w p.1).isSome := by
      rintro ⟨u, claim⟩ hp rfl
      exact hsends u (List.of_mem_zip hp).1 (claim_of_unique hsha hp).1.symm
    have hfold : (((C.deduplicated w named).unique.zip (C.batchClaims w named s).2).foldlM
        (C.claimStep w (C.deduplicated w named))
        { results := (C.deduplicated w named).results }).isSome := by
      apply foldlM_isSome
      intro b p hp
      unfold claimStep
      cases hresult : claimResult p.1.eventId p.2 with
      | some result => rfl
      | none =>
        obtain ⟨x, hx⟩ :=
          Option.isSome_iff_exists.mp (hzipped p hp (claimResult_eq_none.mp hresult))
        obtain ⟨o, ho, -⟩ := Option.bind_eq_some_iff.mp hx
        dsimp only
        rw [ho]
        rfl
    obtain ⟨c, hc⟩ := Option.isSome_iff_exists.mp hfold
    obtain ⟨-, howned, howns⟩ := claims_answer hc
    have hmessages : (c.owned.mapM C.messageIn).isSome := by
      rw [mapM_isSome]
      intro o ho
      have hmem : o.toPrepared ∈ c.owned.map Owned.toPrepared := List.mem_map.mpr ⟨o, ho, rfl⟩
      rw [howned] at hmem
      obtain ⟨p, hp, heq⟩ := List.mem_map.mp hmem
      obtain ⟨hzip, howner⟩ := List.mem_filter.mp hp
      obtain ⟨x, hx⟩ := Option.isSome_iff_exists.mp (hzipped p hzip (by simpa using howner))
      obtain ⟨o', ho', hm⟩ := Option.bind_eq_some_iff.mp hx
      have hsame : o' = o := by
        rcases howns o ho with hold | hown
        · cases hold
        · rw [heq, hown] at ho'
          exact (Option.some.inj ho').symm
      obtain ⟨m, hm, -⟩ := Option.map_eq_some_iff.mp hm
      rw [← hsame, hm]
      rfl
    obtain ⟨messages, hm⟩ := Option.isSome_iff_exists.mp hmessages
    exact ⟨c, messages, hc, hm⟩

/-! ### The messages -/

/-- What the batch sends for an event is what `accept` sends for it. -/
theorem sent_of_sending (hres : C.reservationId = none) {u : Prepared} {x : Owned × Message}
    (h : C.sending w u = some x) : C.sent w u = some x := by
  obtain ⟨o, ho, hm⟩ := Option.bind_eq_some_iff.mp h
  obtain ⟨m, hm, rfl⟩ := Option.map_eq_some_iff.mp hm
  rw [withoutReservation_eq hres] at ho
  unfold sent
  rw [ho, Option.bind_some]
  unfold messageIn at hm
  split at hm
  next customerId hcustomer =>
    unfold messageOf
    rw [hcustomer, Option.map_some, C.py.str_str]
    exact hm
  next => cases hm

/-- The claim of an event is answered from its entry in the ledger. -/
theorem claimOf_ledger (h : s.Steady first last) (hwithin : w.Within first last)
    (identity : String × String) :
    C.claimOf w.claimClock s identity =
      claimAnswer (s.ledger first (C.locate identity.1)) identity.2 := by
  rw [← ledger_steady h hwithin.claim.1 hwithin.claim.2]
  rfl

section Publishes
variable (h : C.Publishes w named s c messages) (hsha : C.DigestsDiffer named)
include h hsha

theorem owned_filter : c.owned.map Owned.toPrepared =
    (C.deduplicated w named).unique.filter
      fun u => C.claimOf w.claimClock s u.identity = .owner := by
  obtain ⟨-, howned, -⟩ := claims_answer h.claiming
  have hfilter : ((C.deduplicated w named).unique.zip (C.batchClaims w named s).2).filter
        (fun p => p.2 = .owner) =
      ((C.deduplicated w named).unique.zip (C.batchClaims w named s).2).filter
        ((fun u : Prepared => decide (C.claimOf w.claimClock s u.identity = .owner)) ∘ Prod.fst) := by
    apply List.filter_congr
    rintro ⟨u, claim⟩ hp
    rw [(claim_of_unique hsha hp).1]
    rfl
  rw [howned, hfilter, ← List.filter_map, List.map_fst_zip (length_batchClaims C w named s).ge]
  rfl

/-- The messages of the batch are those of the events that it claims, in their order. -/
theorem messages_filterMap (hres : C.reservationId = none) (hsteady : s.Steady first last)
    (hwithin : w.Within first last) :
    messages = (C.deduplicated w named).unique.filterMap
      fun u => (C.acceptEntry w u (s.ledger first (C.locate u.eventId))).2.1 := by
  have hsplit : ((C.deduplicated w named).unique.filterMap
        fun u => (C.acceptEntry w u (s.ledger first (C.locate u.eventId))).2.1) =
      (c.owned.map Owned.toPrepared).filterMap fun u => (C.sent w u).map Prod.snd := by
    rw [owned_filter h hsha, List.filterMap_filter]
    apply List.filterMap_congr
    intro u hu
    have hclaim := claimOf_ledger (C := C) hsteady hwithin u.identity
    cases hentry : s.ledger first (C.locate u.eventId) with
    | none =>
      have hone : C.claimOf w.claimClock s u.identity = .owner :=
        hclaim.trans (claimAnswer_eq_owner.mpr hentry)
      rw [if_pos (by simpa using hone), acceptEntry_none]
      cases C.sent w u <;> rfl
    | some value =>
      have hother : C.claimOf w.claimClock s u.identity ≠ .owner := by
        intro howner
        have hnone := claimAnswer_eq_owner.mp (hclaim.symm.trans howner)
        rw [show C.locate u.identity.1 = C.locate u.eventId from rfl, hentry] at hnone
        cases hnone
      obtain ⟨result, -, haccept⟩ := acceptEntry_some (C := C) (w := w) (p := u) value
      rw [if_neg (by simpa using hother), haccept]
  rw [hsplit, List.filterMap_map]
  have hforall := mapM_eq_some_iff.mp h.messaging
  have hsent : List.Forall₂ (fun o m => ((C.sent w o.toPrepared).map Prod.snd) = some m) c.owned
      messages := by
    rw [List.forall₂_iff_get] at hforall ⊢
    refine ⟨hforall.1, fun i hi hi' => ?_⟩
    have hm := hforall.2 i hi hi'
    have ho : c.owned.get ⟨i, hi⟩ ∈ c.owned := List.get_mem ..
    have hsending : C.sending w (c.owned.get ⟨i, hi⟩).toPrepared =
        some (c.owned.get ⟨i, hi⟩, messages.get ⟨i, hi'⟩) := by
      unfold sending
      rw [(owned_facts h hsha ho).2.2.2, Option.bind_some]
      exact congrArg (Option.map _) hm
    rw [sent_of_sending hres hsending]
    rfl
  exact (filterMap_of_forall₂ hsent).symm

/-! ### The store -/

omit hsha in
private theorem settled_store (hw : w.Answering) : (C.settled w named s c messages).1 =
    (C.settle w (c.owned.map fun o => o.identity) (C.batchClaims w named s).1).1 := by
  have hsorts : ∀ (d : Deduplicated) (owned : List Owned) (messages : List Message) (b : Sorted),
      owned.length = messages.length →
      (owned.zip (messages.map fun _ => none)).foldl (sortStep d) b =
        { b with accepted := b.accepted ++ owned } := by
    intro d owned
    induction owned with
    | nil =>
      intro messages b _
      simp
    | cons o owned ih =>
      intro messages b hlength
      cases messages with
      | nil => cases hlength
      | cons m messages =>
        rw [List.map_cons, List.zip_cons_cons, List.foldl_cons, ih messages _ (by simpa using hlength)]
        simp [sortStep]
  have hlength := (messages_of_owned h).length_eq
  unfold settled settleBatch
  rw [hw.outcomes, hsorts _ _ _ _ hlength]
  dsimp only
  rw [List.nil_append]
  unfold settle
  dsimp only
  cases (C.remember w (c.owned.map fun o => o.identity) (C.batchClaims w named s).1).2 with
  | true => rfl
  | false => rfl

end Publishes

/-! ### The ledger after a batch -/

section Ledger
variable (hwithin : w.Within first last) (hS : Outlasts C.settings first last)
  (hsteady : s.Steady first last) (hsha : C.DigestsDiffer named)
include hwithin hS hsteady hsha

/-- The ledger after the claims: the entries that were free are pending. -/
theorem ledger_batchClaims : (C.batchClaims w named s).1.Steady first last ∧ ∀ l,
    (∀ u ∈ (C.deduplicated w named).unique, C.locate u.eventId = l →
      (C.batchClaims w named s).1.ledger first l = claimed (s.ledger first l) u.payloadHash) ∧
    (l ∉ (C.deduplicated w named).unique.map (fun u => C.locate u.eventId) →
      (C.batchClaims w named s).1.ledger first l = s.ledger first l) := by
  have hsteady' : (C.batchClaims w named s).1.Steady first last :=
    steady_claims _ hsteady hS hwithin.claim.1
  refine ⟨hsteady', fun l => ?_⟩
  obtain ⟨hown, hother⟩ := ledger_claims w.claimClock (s := s)
    (nodup_locations (w := w) hsha) l
  rw [← ledger_steady hsteady' hwithin.claim.1 hwithin.claim.2,
    ← ledger_steady hsteady hwithin.claim.1 hwithin.claim.2]
  refine ⟨fun u hu hl => hown u.identity (List.mem_map_of_mem hu) hl, fun hl => hother ?_⟩
  rw [List.map_map]
  exact hl

/-- The ledger after a batch that comes to its publication: every event that stands for its id has
acted on its entry. -/
theorem ledger_settled (hw : w.Answering) (hres : C.reservationId = none)
    (h : C.Publishes w named s c messages) :
    (C.settled w named s c messages).1.Steady first last ∧ ∀ l,
    (∀ u ∈ (C.deduplicated w named).unique, C.locate u.eventId = l →
      (C.settled w named s c messages).1.ledger first l =
        (C.acceptEntry w u (s.ledger first l)).1) ∧
    (l ∉ (C.deduplicated w named).unique.map (fun u => C.locate u.eventId) →
      (C.settled w named s c messages).1.ledger first l = s.ledger first l) := by
  obtain ⟨hsteady', hclaims⟩ := ledger_batchClaims hwithin hS hsteady hsha
  have hsub : ∀ o ∈ c.owned, o.toPrepared ∈ (C.deduplicated w named).unique :=
    fun o ho => (owned_facts h hsha ho).1
  have hnodup : ((c.owned.map fun o => o.identity).map fun p => C.locate p.1).Nodup := by
    have hlocations := nodup_locations (C := C) (w := w) hsha
    rw [List.map_map] at hlocations ⊢
    have hmap : c.owned.map ((fun p : String × String => C.locate p.1) ∘ fun o => o.identity) =
        (c.owned.map Owned.toPrepared).map
          ((fun p : String × String => C.locate p.1) ∘ Prepared.identity) := by
      rw [List.map_map]
      rfl
    rw [hmap]
    exact hlocations.sublist ((owned_sublist h).map _)
  have hpending : ∀ p ∈ c.owned.map (fun o => o.identity),
      (C.batchClaims w named s).1.current (C.locate p.1) = some (entryText .pending p.2) := by
    intro p hp
    obtain ⟨o, ho, rfl⟩ := List.mem_map.mp hp
    exact (owned_facts h hsha ho).2.2.1
  obtain ⟨hsettles, hsettled⟩ := ledger_settle hw hwithin hS hnodup hpending hsteady'
  rw [settled_store h hw]
  refine ⟨hsettles, fun l => ?_⟩
  obtain ⟨hown, hother⟩ := hsettled l
  constructor
  · rintro u hu rfl
    have hclaim := claimOf_ledger (C := C) hsteady hwithin u.identity
    cases hentry : s.ledger first (C.locate u.eventId) with
    | none =>
      have howner : C.claimOf w.claimClock s u.identity = .owner :=
        hclaim.trans (claimAnswer_eq_owner.mpr hentry)
      have hmem : u ∈ c.owned.map Owned.toPrepared := by
        rw [owned_filter h hsha]
        exact List.mem_filter.mpr ⟨hu, by simpa using howner⟩
      obtain ⟨o, ho, rfl⟩ := List.mem_map.mp hmem
      obtain ⟨x, hx⟩ := Option.isSome_iff_exists.mp ((publishes_iff hsha).mp ⟨c, messages, h⟩ _ hu howner)
      rw [hown o.identity (List.mem_map_of_mem ho) rfl, acceptEntry_none,
        sent_of_sending hres hx]
      rfl
    | some value =>
      have hfree : C.locate u.eventId ∉
          (c.owned.map fun o => o.identity).map (fun p => C.locate p.1) := by
        intro hmem
        obtain ⟨p, hp, hlocate⟩ := List.mem_map.mp hmem
        obtain ⟨o, ho, rfl⟩ := List.mem_map.mp hp
        have howner := (claimOf_ledger (C := C) hsteady hwithin o.identity).symm.trans
          (owned_facts h hsha ho).2.1
        have hnone := claimAnswer_eq_owner.mp howner
        rw [hlocate, hentry] at hnone
        cases hnone
      obtain ⟨result, -, haccept⟩ := acceptEntry_some (C := C) (w := w) (p := u) value
      rw [hother hfree, (hclaims _).1 u hu rfl, hentry, haccept]
      rfl
  · intro hl
    rw [hother fun hmem => ?_, (hclaims l).2 hl]
    obtain ⟨p, hp, rfl⟩ := List.mem_map.mp hmem
    obtain ⟨o, ho, rfl⟩ := List.mem_map.mp hp
    exact hl (List.mem_map.mpr ⟨o.toPrepared, hsub o ho, rfl⟩)

end Ledger

/-! ### The results -/

/-- What a batch tells an event whose id an event stands for. -/
def toldInBatch (C : TokenEventCustody) (w : Surroundings) (entry : Option String) (u p : Prepared) :
    Option Result :=
  if u.payloadHash = p.payloadHash then
    match claimResult u.eventId (claimAnswer entry u.payloadHash) with
    | some result => some result
    | none =>
      (C.sent w u).map fun sent =>
        let r := finalResult (decide (0 < C.settings.finalizeRetries)) sent.1
        if p.index = u.index then r.1 else r.2
  else some (Deduplicated.conflictResult p.eventId)

section Told
variable (hwithin : w.Within first last) (hsteady : s.Steady first last)
  (hsha : C.DigestsDiffer named)
include hwithin hsteady hsha

theorem told_of_claim {u p : Prepared} {claim : Claim} {r : Result}
    (hmem : (u, claim) ∈ (C.deduplicated w named).unique.zip (C.batchClaims w named s).2)
    (hr : claimResult u.eventId claim = some r) (hhash : u.payloadHash = p.payloadHash) :
    C.toldInBatch w (s.ledger first (C.locate u.eventId)) u p = some r := by
  have hclaim : claim = claimAnswer (s.ledger first (C.locate u.eventId)) u.payloadHash :=
    (claim_of_unique hsha hmem).1.trans (claimOf_ledger hsteady hwithin u.identity)
  rw [hclaim] at hr
  unfold toldInBatch
  rw [if_pos hhash, hr]

theorem told_of_owned (hres : C.reservationId = none) (h : C.Publishes w named s c messages)
    {o : Owned} {p : Prepared} (ho : o ∈ c.owned) (hhash : o.payloadHash = p.payloadHash) :
    C.toldInBatch w (s.ledger first (C.locate o.eventId)) o.toPrepared p =
      some (if p.index = o.index then (finalResult (decide (0 < C.settings.finalizeRetries)) o).1
        else (finalResult (decide (0 < C.settings.finalizeRetries)) o).2) := by
  obtain ⟨hunique, howner, -, hown⟩ := owned_facts h hsha ho
  have hentry : claimAnswer (s.ledger first (C.locate o.eventId)) o.payloadHash = .owner :=
    (claimOf_ledger hsteady hwithin o.identity).symm.trans howner
  obtain ⟨⟨o', m⟩, hx⟩ := Option.isSome_iff_exists.mp
    ((publishes_iff hsha).mp ⟨c, messages, h⟩ _ hunique howner)
  have hsame : o' = o := by
    obtain ⟨o', ho', hm⟩ := Option.bind_eq_some_iff.mp hx
    obtain ⟨m, -, heq⟩ := Option.map_eq_some_iff.mp hm
    obtain ⟨rfl, -⟩ := Prod.mk.inj heq
    rw [hown] at ho'
    exact (Option.some.inj ho').symm
  have hsent := sent_of_sending hres hx
  rw [hsame] at hsent
  unfold toldInBatch
  rw [if_pos hhash, claimResult_eq_none.mpr hentry, hsent]
  rfl

end Told

private theorem finalizes_answering (hw : w.Answering) :
    C.finalizes w = decide (0 < C.settings.finalizeRetries) := by
  unfold finalizes
  cases C.settings.finalizeRetries with
  | zero => rfl
  | succ tries =>
    rw [List.range_succ_eq_map, List.any_cons, hw.remember]
    simp [Reply.isOk]

/-- A result that is written for an event is what the event and its aliases are told. -/
theorem goodFor_told {p u v : Prepared} {own copied : Result} {entry : Option String}
    (hp : p ∈ C.prepared w named) (hu : u ∈ (C.deduplicated w named).unique)
    (hid : u.eventId = p.eventId) (hv : v ∈ (C.deduplicated w named).unique)
    (htold : v = u → u.payloadHash = p.payloadHash →
      C.toldInBatch w entry u p = some (if p.index = u.index then own else copied)) :
    (C.deduplicated w named).GoodFor
      (fun i r => i = p.index → C.toldInBatch w entry u p = some r) v own copied := by
  have hsound := C.sound_deduplicated w named
  constructor
  · intro hindex
    obtain rfl := List.inj_on_of_nodup_map hsound.indices (hsound.mem hv) hp hindex
    obtain rfl := List.inj_on_of_nodup_map hsound.nodup hu hv hid
    rw [htold rfl rfl, if_pos rfl]
  · intro i hi hindex
    obtain ⟨q, hq, hqi, hsame, hne⟩ := hsound.aliases v hv i hi
    obtain rfl := List.inj_on_of_nodup_map hsound.indices hq hp (hqi.trans hindex)
    have hqv : q.eventId = v.eventId := congrArg Prod.fst hsame
    obtain rfl := List.inj_on_of_nodup_map hsound.nodup hu hv (hid.trans hqv)
    rw [htold rfl (congrArg Prod.snd hsame).symm, if_neg (by omega)]

/-- Every position is told so. -/
theorem settled_told (hw : w.Answering) (hwithin : w.Within first last)
    (hsteady : s.Steady first last) (hsha : C.DigestsDiffer named)
    (hres : C.reservationId = none) (h : C.Publishes w named s c messages) {p u : Prepared}
    (hp : p ∈ C.prepared w named) (hu : u ∈ (C.deduplicated w named).unique)
    (hid : u.eventId = p.eventId) :
    C.toldInBatch w (s.ledger first (C.locate u.eventId)) u p =
      (C.settled w named s c messages).2 p.index := by
  have hsound := C.sound_deduplicated w named
  have houtcomes : (w.broker messages).outcomes.length = c.owned.length := by
    rw [(w.broker messages).length_outcomes, (messages_of_owned h).length_eq]
  have hgood : (C.settled w named s c messages).2.Sound fun i r => i = p.index →
      C.toldInBatch w (s.ledger first (C.locate u.eventId)) u p = some r := by
    refine settleBatch_sound _ h ?_ ?_ ?_ ?_
    · intro i r hr hindex
      obtain ⟨q, hq, hqi, rfl, v, hv, hqv, hne⟩ := hsound.conflicts i r hr
      obtain rfl := List.inj_on_of_nodup_map hsound.indices hq hp (hqi.trans hindex)
      obtain rfl := List.inj_on_of_nodup_map hsound.nodup hu hv (hid.trans hqv.symm)
      unfold toldInBatch
      rw [if_neg hne]
    · rintro ⟨v, claim⟩ hmem r hr
      refine goodFor_told hp hu hid (List.of_mem_zip hmem).1 fun heq hhash => ?_
      subst heq
      rw [told_of_claim hwithin hsteady hsha hmem hr hhash, ite_self]
    · rintro ⟨o, outcome⟩ hmem error herror
      have hnone := (List.of_mem_zip hmem).2
      rw [hw.outcomes] at hnone
      obtain ⟨m, -, hm⟩ := List.mem_map.mp hnone
      dsimp only at herror
      rw [← hm] at herror
      cases herror
    · intro o ho
      obtain ⟨i, howned, -⟩ := mem_acknowledged ho
      have howned := List.mem_of_getElem? howned
      refine goodFor_told hp hu hid (owned_facts h hsha howned).1 fun heq hhash => ?_
      subst heq
      rw [remembered_eq h hsha ho, finalizes_answering hw]
      exact told_of_owned hwithin hsteady hsha hres h howned hhash
  obtain ⟨r, hr⟩ := Option.ne_none_iff_exists'.mp (settleBatch_complete h houtcomes hp)
  exact (hgood p.index r hr rfl).trans hr.symm

end TokenEventCustody

end FluxMeter.Custody
