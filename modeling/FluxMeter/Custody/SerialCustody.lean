import FluxMeter.Custody.Ledger
import FluxMeter.Transition.Decided

/-! `accept` for one event after the other, as actions on the entries of the ledger. -/
namespace FluxMeter.Custody
open Collections FluxMeter.Wire Transition

/-- A call of `accept`, at a place of its clocks. -/
structure SerialCall where
  custody : TokenEventCustody
  surroundings : Surroundings
  index : ℕ
  event : Dict

/-- What a run of `accept` leaves, and how its calls end. -/
structure SerialRun where
  store : IdentityStore
  produced : List Message := []
  endings : List (Ending Result) := []

/-- `accept` for one event after the other. -/
def acceptSerially : List SerialCall → IdentityStore → SerialRun
  | [], s => { store := s }
  | c :: calls, s =>
    let r := c.custody.accept c.surroundings c.index c.event s
    let rest := acceptSerially calls r.store
    { store := rest.store
      produced := r.produced ++ rest.produced
      endings := r.ending :: rest.endings }

namespace TokenEventCustody
open IdentityContext IdentityStore

/-- The envelope and the message of `accept`. -/
def sent (C : TokenEventCustody) (w : Surroundings) (p : Prepared) : Option (Owned × Message) :=
  (C.own w p).bind fun o => (C.messageOf o).map fun m => (o, m)

def settledResult (C : TokenEventCustody) (o : Owned) : Result :=
  (finalResult (decide (0 < C.settings.finalizeRetries)) o).1

/-- `accept` of a prepared event on its entry in the ledger: the entry after it, the message, and the
ending. -/
def acceptEntry (C : TokenEventCustody) (w : Surroundings) (p : Prepared) (entry : Option String) :
    Option String × (Option Message × Ending Result) :=
  match claimResult p.eventId (claimAnswer entry p.payloadHash) with
  | some result => (entry, none, .returned result)
  | none =>
    match C.sent w p with
    | none => (some (entryText .pending p.payloadHash), none, .raised)
    | some (o, m) =>
      (some (entryText C.settledPhase p.payloadHash), some m, .returned (C.settledResult o))

variable {C : TokenEventCustody} {w : Surroundings} {s : IdentityStore} {first last : ℤ}
  {event : Dict} {i : ℕ} {p : Prepared}

theorem acceptEntry_some (value : String) :
    ∃ result, claimResult p.eventId (claimAnswer (some value) p.payloadHash) = some result ∧
      C.acceptEntry w p (some value) = (some value, none, .returned result) := by
  cases hresult : claimResult p.eventId (claimAnswer (some value) p.payloadHash) with
  | none =>
    have hnone := claimAnswer_eq_owner.mp (claimResult_eq_none.mp hresult)
    cases hnone
  | some result =>
    refine ⟨result, rfl, ?_⟩
    unfold acceptEntry
    rw [hresult]

theorem acceptEntry_none :
    C.acceptEntry w p none =
      match C.sent w p with
      | none => (some (entryText .pending p.payloadHash), none, .raised)
      | some (o, m) =>
        (some (entryText C.settledPhase p.payloadHash), some m, .returned (C.settledResult o)) := rfl

theorem acceptEntry_isSome (p : Prepared) (entry : Option String) :
    ∃ value, (C.acceptEntry w p entry).1 = some value := by
  cases entry with
  | some value =>
    obtain ⟨result, -, haccept⟩ := acceptEntry_some (C := C) (w := w) (p := p) value
    exact ⟨value, by rw [haccept]⟩
  | none =>
    rw [acceptEntry_none]
    cases C.sent w p with
    | none => exact ⟨_, rfl⟩
    | some sent => exact ⟨_, rfl⟩

private theorem afterPublish_none (o : Owned) :
    C.afterPublish w o none s =
      ((C.settle w [o.identity] s).1, (finalResult (C.settle w [o.identity] s).2 o).1) := by
  unfold afterPublish settle finalResult
  dsimp only
  cases (C.remember w [o.identity] s).2 <;> rfl

private theorem toPrepared_of_sent {o : Owned} {m : Message} (h : C.sent w p = some (o, m)) :
    o.toPrepared = p := by
  obtain ⟨o', ho, hm⟩ := Option.bind_eq_some_iff.mp h
  obtain ⟨m', -, heq⟩ := Option.map_eq_some_iff.mp hm
  obtain ⟨rfl, -⟩ := Prod.mk.inj heq
  exact toPrepared_of_own ho

theorem accept_prepared (hw : w.Answering) (hwithin : w.Within first last)
    (hS : Outlasts C.settings first last) (h : s.Steady first last)
    (hprepare : C.prepare w i event = some p) :
    (C.accept w i event s).store.Steady first last ∧
      (C.accept w i event s).store.ledger first =
        Function.update (s.ledger first) (C.locate p.eventId)
          (C.acceptEntry w p (s.ledger first (C.locate p.eventId))).1 ∧
      (C.accept w i event s).produced =
        (C.acceptEntry w p (s.ledger first (C.locate p.eventId))).2.1.toList ∧
      (C.accept w i event s).ending =
        (C.acceptEntry w p (s.ledger first (C.locate p.eventId))).2.2 := by
  have hnodup : ([p.identity].map fun q => C.locate q.1).Nodup := List.nodup_singleton _
  obtain ⟨hanswer, hpending⟩ :=
    IdentityContext.claim_of_nodup w.claimClock s hnodup (i := 0) (p := p.identity) rfl
  have hsteady := steady_claims [p.identity] h hS hwithin.claim.1
  have hbefore := ledger_steady h hwithin.claim.1 hwithin.claim.2
  have hafter := ledger_steady hsteady hwithin.claim.1 hwithin.claim.2
  have hclaimed : ∀ l, (C.eventIdentityStatusBatch w.claimClock [p.identity] s).1.ledger first l =
      if l = C.locate p.eventId then
        claimed (s.ledger first (C.locate p.eventId)) p.payloadHash
      else s.ledger first l := by
    intro l
    obtain ⟨hown, hother⟩ := ledger_claims w.claimClock (s := s) hnodup l
    rw [← hafter, ← hbefore]
    split_ifs with hl
    · rw [hown p.identity (List.mem_singleton.mpr rfl) hl.symm, hl]
      rfl
    · exact hother fun hmem => hl (List.mem_singleton.mp hmem)
  have hclaim : C.claimOf w.claimClock s p.identity =
      claimAnswer (s.ledger first (C.locate p.eventId)) p.payloadHash := by
    rw [← hbefore]
    rfl
  have hhead : (C.eventIdentityStatusBatch w.claimClock [p.identity] s).2.head? =
      some (claimAnswer (s.ledger first (C.locate p.eventId)) p.payloadHash) := by
    rw [List.head?_eq_getElem?, hanswer, hclaim]
  unfold accept
  rw [hprepare]
  dsimp only
  rw [hhead, Option.bind_some]
  cases hentry : s.ledger first (C.locate p.eventId) with
  | some value =>
    obtain ⟨result, hresult, haccept⟩ := acceptEntry_some (C := C) (w := w) (p := p) value
    rw [hresult, haccept]
    refine ⟨hsteady, ?_, rfl, rfl⟩
    funext l
    rw [hclaimed, Function.update_apply, hentry]
    rfl
  | none =>
    rw [hentry] at hclaim hclaimed
    rw [acceptEntry_none]
    have hresult : claimResult p.eventId (claimAnswer none p.payloadHash) = none := rfl
    rw [hresult]
    dsimp only
    cases hcase : C.sent w p with
    | none =>
      unfold sent at hcase
      rw [hcase]
      refine ⟨hsteady, ?_, rfl, rfl⟩
      funext l
      rw [hclaimed, Function.update_apply]
      rfl
    | some sent =>
      obtain ⟨o, m⟩ := sent
      have hprepared := toPrepared_of_sent hcase
      unfold TokenEventCustody.sent at hcase
      rw [hcase]
      dsimp only
      have hidentity : o.identity = p.identity := by rw [hprepared]
      rw [hw.outcomes, hw.produced, List.map_singleton, List.headD_cons, afterPublish_none, hidentity]
      have hcurrent : ∀ q ∈ [p.identity],
          (C.eventIdentityStatusBatch w.claimClock [p.identity] s).1.current (C.locate q.1) =
            some (entryText .pending q.2) := by
        intro q hq
        rw [List.mem_singleton.mp hq]
        exact hpending hclaim
      obtain ⟨hsettled, hledger⟩ := ledger_settle hw hwithin hS hnodup hcurrent hsteady
      refine ⟨hsettled, ?_, rfl, ?_⟩
      · funext l
        obtain ⟨hown, hother⟩ := hledger l
        rw [Function.update_apply]
        split_ifs with hl
        · exact hown p.identity (List.mem_singleton.mpr rfl) hl.symm
        · rw [hother fun hmem => hl (List.mem_singleton.mp hmem), hclaimed, if_neg hl]
      · rw [settle_eq hw hnodup hcurrent]
        rfl

end TokenEventCustody

/-! ### A run of single calls -/

namespace IdentityStore

/-- The entries of the ledger; the calls whose events cannot be prepared act on an entry of no event. -/
def entries (first : ℤ) (s : IdentityStore) : Option Location → Option String
  | some l => s.ledger first l
  | none => none

theorem entries_update {s s' : IdentityStore} {first : ℤ} {l : Location} {entry : Option String}
    (h : s'.ledger first = Function.update (s.ledger first) l entry) :
    s'.entries first = Function.update (s.entries first) (some l) entry := by
  funext k
  rw [Function.update_apply]
  cases k with
  | none => rfl
  | some l' =>
    show s'.ledger first l' = _
    rw [h, Function.update_apply]
    simp [entries]

end IdentityStore

namespace SerialCall
open IdentityContext TokenEventCustody
variable {first last : ℤ} {s : IdentityStore} {calls : List SerialCall}

def prepared (c : SerialCall) : Option Prepared :=
  c.custody.prepare c.surroundings c.index c.event

def location (c : SerialCall) : Option Location :=
  c.prepared.map fun p => c.custody.locate p.eventId

def act (c : SerialCall) (entry : Option String) :
    Option String × (Option Message × Ending Result) :=
  match c.prepared with
  | none => (entry, none, .raised)
  | some p => c.custody.acceptEntry c.surroundings p entry

/-- Kafka and Redis answer the call, between `first` and `last`, and no entry that it writes expires
until then. -/
structure Answered (first last : ℤ) (c : SerialCall) : Prop where
  answering : c.surroundings.Answering
  within : c.surroundings.Within first last
  outlasts : Outlasts c.custody.settings first last

/-- The first call under an entry decides it. -/
theorem act_some (c : SerialCall) (value : String) : (c.act (some value)).1 = some value := by
  unfold act
  cases c.prepared with
  | none => rfl
  | some p =>
    obtain ⟨result, -, haccept⟩ :=
      acceptEntry_some (C := c.custody) (w := c.surroundings) (p := p) value
    dsimp only
    rw [haccept]

def placed (calls : List SerialCall) : List (Option Location × SerialCall) :=
  calls.map fun c => (c.location, c)

def run (entries : Option Location → Option String) (calls : List SerialCall) :
    (Option Location → Option String) × List (Option Location × (Option Message × Ending Result)) :=
  runKeyed act entries (placed calls)

private theorem accept_act {c : SerialCall} (hc : c.Answered first last) (h : s.Steady first last) :
    (c.custody.accept c.surroundings c.index c.event s).store.Steady first last ∧
      (c.custody.accept c.surroundings c.index c.event s).store.entries first =
        Function.update (s.entries first) c.location (c.act (s.entries first c.location)).1 ∧
      (c.custody.accept c.surroundings c.index c.event s).produced =
        (c.act (s.entries first c.location)).2.1.toList ∧
      (c.custody.accept c.surroundings c.index c.event s).ending =
        (c.act (s.entries first c.location)).2.2 := by
  unfold act location
  cases hprepare : c.prepared with
  | none =>
    have hcall : c.custody.accept c.surroundings c.index c.event s =
        { store := s, ending := .raised } := by
      unfold accept
      unfold prepared at hprepare
      rw [hprepare]
    rw [hcall]
    refine ⟨h, ?_, rfl, rfl⟩
    exact (Function.update_eq_self none (s.entries first)).symm
  | some p =>
    obtain ⟨hsteady, hledger, hproduced, hending⟩ :=
      accept_prepared hc.answering hc.within hc.outlasts h hprepare
    exact ⟨hsteady, IdentityStore.entries_update hledger, hproduced, hending⟩

/-- A run of single calls acts on the entries. -/
theorem acceptSerially_run (hcalls : ∀ c ∈ calls, c.Answered first last)
    (h : s.Steady first last) :
    (acceptSerially calls s).store.Steady first last ∧
      (acceptSerially calls s).store.entries first = (run (s.entries first) calls).1 ∧
      (acceptSerially calls s).produced =
        (run (s.entries first) calls).2.flatMap (fun x => x.2.1.toList) ∧
      (acceptSerially calls s).endings = (run (s.entries first) calls).2.map fun x => x.2.2 := by
  induction calls generalizing s with
  | nil => exact ⟨h, rfl, rfl, rfl⟩
  | cons c calls ih =>
    obtain ⟨hc, hrest⟩ := List.forall_mem_cons.mp hcalls
    obtain ⟨hsteady, hentries, hproduced, hending⟩ := accept_act hc h
    obtain ⟨hsteady', hentries', hproduced', hendings'⟩ := ih hrest hsteady
    unfold run placed at hentries' hproduced' hendings' ⊢
    unfold acceptSerially
    simp only [List.map_cons, runKeyed]
    rw [← hentries]
    refine ⟨hsteady', hentries', ?_, ?_⟩
    · rw [hproduced, hproduced']
      rfl
    · rw [hending, hendings']

end SerialCall

/-- The surroundings of a single call: those of the batch for the event at the place, with clocks of
its own for the scripts. -/
structure Surroundings.Beside (w : Surroundings) (i : ℕ) (w' : Surroundings) : Prop where
  prepareClock : w'.prepareClock i = w.prepareClock i
  receivedClock : w'.receivedClock i = w.receivedClock i
  traceId : w'.traceId i = w.traceId i

/-- Single calls with the clocks of the batch for their events, which Kafka and Redis answer. -/
structure Alongside (first last : ℤ) (w : Surroundings) (ws : ℕ → Surroundings) : Prop where
  beside : ∀ i, w.Beside i (ws i)
  answering : ∀ i, (ws i).Answering
  within : ∀ i, (ws i).Within first last

namespace TokenEventCustody
open IdentityContext IdentityStore

/-! ### The calls of a batch -/

def callsOf (C : TokenEventCustody) (ws : ℕ → Surroundings) (events : List Dict) :
    List SerialCall :=
  events.zipIdx.map fun p =>
    { custody := C, surroundings := ws p.2, index := p.2, event := p.1 }

variable {C : TokenEventCustody} {w w' : Surroundings} {ws : ℕ → Surroundings}
  {first last : ℤ} {events : List Dict} {p : Prepared}

theorem prepare_beside {i : ℕ} (h : w.Beside i w') (event : Dict) :
    C.prepare w' i event = C.prepare w i event := by
  unfold prepare
  rw [h.prepareClock]

private theorem sent_beside (h : w.Beside p.index w') : C.sent w' p = C.sent w p := by
  unfold sent own
  rw [h.receivedClock, h.traceId]

theorem acceptEntry_beside (h : w.Beside p.index w') (entry : Option String) :
    C.acceptEntry w' p entry = C.acceptEntry w p entry := by
  unfold acceptEntry
  rw [sent_beside h]

theorem answered_callsOf (hws : Alongside first last w ws)
    (hS : Outlasts C.settings first last) :
    ∀ c ∈ C.callsOf ws events, c.Answered first last := by
  intro c hc
  obtain ⟨p, -, rfl⟩ := List.mem_map.mp hc
  exact ⟨hws.answering p.2, hws.within p.2, hS⟩

theorem length_callsOf : (C.callsOf ws events).length = events.length := by
  unfold callsOf
  rw [List.length_map, List.length_zipIdx]

theorem getElem?_callsOf (i : ℕ) : (C.callsOf ws events)[i]? =
    (events[i]?).map fun event =>
      { custody := C, surroundings := ws i, index := i, event } := by
  unfold callsOf
  rw [List.getElem?_map, List.getElem?_zipIdx, Option.map_map, Nat.zero_add]
  rfl

theorem prepared_callsOf (hws : Alongside first last w ws) :
    (C.callsOf ws events).map SerialCall.prepared =
      events.zipIdx.map fun p => C.prepare w p.2 p.1 := by
  unfold callsOf
  rw [List.map_map]
  apply List.map_congr_left
  intro p _
  exact prepare_beside (hws.beside p.2) p.1

/-! ### The prepared events of a batch -/

theorem withoutReservation_eq (h : C.reservationId = none) : C.withoutReservation = C := by
  cases C
  cases h
  rfl

theorem prepareAll_eq_some (hres : C.reservationId = none) {ps : List Prepared} :
    C.prepareAll w events = some ps ↔
      (events.zipIdx.map fun p => C.prepare w p.2 p.1) = ps.map some := by
  unfold prepareAll
  rw [withoutReservation_eq hres, mapM_eq_some_iff, ← List.forall₂_eq_eq_eq,
    List.forall₂_map_left_iff, List.forall₂_map_right_iff]

/-- Events that can be prepared have the prepared events of others, whose ids are texts. -/
theorem exists_prepared (hres : C.reservationId = none) {ps : List Prepared}
    (h : C.prepareAll w events = some ps) :
    ∃ named : List Dict, named.length = events.length ∧ C.prepared w named = ps := by
  let name (event : Dict) : Dict :=
    Dict.set event "eventId" (.str ((resolveCustodyEventId C.py event none).getD ""))
  refine ⟨events.map name, List.length_map _, ?_⟩
  have hforall := mapM_eq_some_iff.mp h
  unfold prepared
  rw [List.zipIdx_map, List.map_map]
  rw [withoutReservation_eq hres] at hforall
  have hmap : List.Forall₂ (fun (p : Dict × ℕ) q => (C.preparedAt w ∘ Prod.map name id) p = q)
      events.zipIdx ps := by
    refine hforall.imp fun p q hq => ?_
    unfold prepare preparePayload at hq
    rw [hres] at hq
    obtain ⟨r, hr, rfl⟩ := Option.map_eq_some_iff.mp hq
    obtain ⟨eventId, hid, rfl⟩ := Option.map_eq_some_iff.mp hr
    have hname : name p.1 = Dict.set p.1 "eventId" (.str eventId) := by
      show Dict.set p.1 "eventId" (.str ((resolveCustodyEventId C.py p.1 none).getD "")) = _
      rw [hid]
      rfl
    show C.preparedAt w (name p.1, p.2) = _
    rw [hname]
    rfl
  have heq := List.forall₂_map_left_iff.mpr hmap
  rw [List.forall₂_eq_eq_eq] at heq
  exact heq

end TokenEventCustody

end FluxMeter.Custody
