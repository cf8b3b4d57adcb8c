import FluxMeter.Custody.BatchEntries

/-! Batching changes the execution shape only: where `accept_many` gives its events what `accept` gives
them one after the other. -/
namespace FluxMeter.Custody
open Collections FluxMeter.Wire Transition

def Ending.status : Ending Result → Option Status
  | .returned r => some r.status
  | .raised => none

/-- The statuses of the positions; a batch that raises gives none. -/
def BatchEnding.statuses (n : ℕ) : BatchEnding → List (Option Status)
  | .returned results => results.map fun r => some r.status
  | .raised => List.replicate n none
  | .unresolved => List.replicate n none

/-- A batch leaves the same statuses, entries and messages as a run of single calls. -/
structure ShapeOnly (first last : ℤ) (n : ℕ) (batch : BatchCall) (serial : SerialRun) : Prop where
  statuses : batch.ending.statuses n = serial.endings.map Ending.status
  store : ∀ now, first ≤ now → now ≤ last → batch.store.ledger now = serial.store.ledger now
  messages : batch.produced.Perm serial.produced

/-- The first event of a batch with its id. -/
structure Prepared.Leads (ps : List Prepared) (u : Prepared) : Prop where
  mem : u ∈ ps
  le : ∀ q ∈ ps, q.eventId = u.eventId → u.index ≤ q.index

namespace SerialCall
variable {f : Option Location → Option String} {calls : List SerialCall} {k : Option Location}

theorem run_some {value : String} (h : f k = some value) : (run f calls).1 k = some value := by
  have hfixed : ∀ c : SerialCall, (c.act (f k)).1 = f k := by
    intro c
    rw [h, act_some]
  exact (runKeyed_of_fixed hfixed).1.trans h

theorem length_run : (run f calls).2.length = calls.length := by
  unfold run placed
  rw [length_runKeyed, List.length_map]

theorem run_unprepared (h : ∀ c ∈ calls, c.prepared = none) :
    (run f calls).1 = f ∧ ∀ x ∈ (run f calls).2, x.2 = (none, .raised) := by
  induction calls with
  | nil => exact ⟨rfl, fun x hx => by cases hx⟩
  | cons c calls ih =>
    obtain ⟨hc, hrest⟩ := List.forall_mem_cons.mp h
    obtain ⟨hstate, houtcomes⟩ := ih hrest
    have hact : c.act (f c.location) = (f c.location, none, .raised) := by
      unfold act
      rw [hc]
    unfold run placed at hstate houtcomes ⊢
    simp only [List.map_cons, runKeyed]
    rw [hact, Function.update_eq_self]
    exact ⟨hstate, List.forall_mem_cons.mpr ⟨rfl, houtcomes⟩⟩

/-- A prepared call that raises has found its entry free, and leaves it pending. -/
theorem act_raised {c : SerialCall} {p : Prepared} (hp : c.prepared = some p) {entry : Option String}
    (h : (c.act entry).2.2 = .raised) :
    entry = none ∧ (c.act entry).1 = some (entryText .pending p.payloadHash) := by
  unfold act at h ⊢
  rw [hp] at h ⊢
  dsimp only at h ⊢
  cases entry with
  | some value =>
    obtain ⟨result, -, haccept⟩ := TokenEventCustody.acceptEntry_some
      (C := c.custody) (w := c.surroundings) (p := p) value
    rw [haccept] at h
    cases h
  | none =>
    rw [TokenEventCustody.acceptEntry_none] at h ⊢
    cases hsent : c.custody.sent c.surroundings p with
    | none => exact ⟨rfl, rfl⟩
    | some sent =>
      rw [hsent] at h
      cases h

theorem act_returns {c : SerialCall} {p : Prepared} (hp : c.prepared = some p) (value : String) :
    ∃ result, (c.act (some value)).2 = (none, .returned result) := by
  obtain ⟨result, -, haccept⟩ := TokenEventCustody.acceptEntry_some
    (C := c.custody) (w := c.surroundings) (p := p) value
  refine ⟨result, ?_⟩
  unfold act
  rw [hp]
  dsimp only
  rw [haccept]

/-- Where every call raises, the entries of those that were prepared have been free and are pending. -/
theorem free_of_raised (h : ∀ x ∈ (run f calls).2, x.2.2 = .raised) {c : SerialCall} (hc : c ∈ calls)
    {p : Prepared} (hp : c.prepared = some p) :
    f c.location = none ∧
      ∃ fingerprint, (run f calls).1 c.location = some (entryText .pending fingerprint) := by
  induction calls generalizing f with
  | nil => cases hc
  | cons d calls ih =>
    have hcons : run f (d :: calls) =
        ((run (Function.update f d.location (d.act (f d.location)).1) calls).1,
          (d.location, (d.act (f d.location)).2) ::
            (run (Function.update f d.location (d.act (f d.location)).1) calls).2) := rfl
    rw [hcons] at h ⊢
    obtain ⟨hfirst, hrest⟩ := List.forall_mem_cons.mp h
    rcases List.mem_cons.mp hc with rfl | hmem
    · obtain ⟨hfree, hwrites⟩ := act_raised hp hfirst
      exact ⟨hfree, p.payloadHash, run_some (by rw [Function.update_self, hwrites])⟩
    · obtain ⟨hfree, hafter⟩ := ih hrest hmem
      refine ⟨?_, hafter⟩
      rw [Function.update_apply] at hfree
      split_ifs at hfree with hlocation
      · have hlocated : d.location = some (c.custody.locate p.eventId) := by
          rw [← hlocation]
          unfold location
          rw [hp]
          rfl
        obtain ⟨q, hq, -⟩ := Option.map_eq_some_iff.mp hlocated
        rw [(act_raised hq hfirst).2] at hfree
        cases hfree
      · exact hfree

end SerialCall

namespace TokenEventCustody
open IdentityContext IdentityStore
variable {C : TokenEventCustody} {w : Surroundings} {ws : ℕ → Surroundings} {s : IdentityStore}
  {first last : ℤ} {events named : List Dict} {f : Option Location → Option String} {p u : Prepared}

/-- The ids of the prepared events have digests of their own. -/
def IdsApart (C : TokenEventCustody) (w : Surroundings) (events : List Dict) : Prop :=
  ∀ a ∈ events.zipIdx, ∀ b ∈ events.zipIdx, ∀ p q : Prepared,
    C.prepare w a.2 a.1 = some p → C.prepare w b.2 b.1 = some q →
      C.py.sha256 p.eventId = C.py.sha256 q.eventId → p.eventId = q.eventId

/-- Every event of the batch raises in a call of its own: it leads, its entry is free, and it cannot be
sent. -/
def AllRaise (C : TokenEventCustody) (w : Surroundings) (ledger : Location → Option String)
    (ps : List Prepared) : Prop :=
  ∀ p ∈ ps, p.Leads ps ∧ ledger (C.locate p.eventId) = none ∧ C.sent w p = none

/-- An event that repeats the id of another is told alike in a batch and on its own: where the batch
claims the id and remembers it, a repetition is not of a suspicious event; where the id has an entry, an
event with another payload than the first is in conflict with the entry. -/
def ToldAlike (C : TokenEventCustody) (w : Surroundings) (entry : Option String) (u p : Prepared) :
    Prop :=
  match entry with
  | none => u.payloadHash = p.payloadHash → 0 < C.settings.finalizeRetries →
      ∀ sent, C.sent w u = some sent → sent.1.suspicious = false
  | some value => u.payloadHash ≠ p.payloadHash →
      claimAnswer (some value) p.payloadHash = .conflict

/-- Every event that the batch claims can be sent, and every repetition is told alike. -/
structure Regular (C : TokenEventCustody) (w : Surroundings) (ledger : Location → Option String)
    (ps : List Prepared) : Prop where
  sendable : ∀ u, u.Leads ps → ledger (C.locate u.eventId) = none → (C.sending w u).isSome
  alike : ∀ u p, u.Leads ps → p ∈ ps → p.eventId = u.eventId → p ≠ u →
    C.ToldAlike w (ledger (C.locate u.eventId)) u p

/-- No event of a batch can be prepared, or all can, and then every one raises in a call of its own or
the batch is regular. -/
def KeepsShape (C : TokenEventCustody) (w : Surroundings) (ledger : Location → Option String)
    (events : List Dict) : Prop :=
  (∀ p ∈ events.zipIdx, C.prepare w p.2 p.1 = none) ∨
    ∃ ps, C.prepareAll w events = some ps ∧ (C.AllRaise w ledger ps ∨ C.Regular w ledger ps)

/-! ### Leading events -/

theorem leads_iff : u ∈ (C.deduplicated w named).unique ↔ u.Leads (C.prepared w named) := by
  constructor
  · intro hu
    refine ⟨(C.sound_deduplicated w named).mem hu, fun q hq hid => ?_⟩
    obtain ⟨j, e, hj, rfl, hfirst⟩ := first_of_unique hu
    obtain ⟨k, e', hk, rfl⟩ := mem_prepared.mp hq
    rw [eventId_preparedAt, eventId_preparedAt] at hid
    exact hfirst e k e' hj hk hid
  · rintro ⟨hmem, hle⟩
    obtain ⟨j, e, hj, rfl⟩ := mem_prepared.mp hmem
    refine unique_of_first hj fun e₁ k e' he₁ hk hid => ?_
    obtain rfl : e = e₁ := Option.some.inj (hj.symm.trans he₁)
    refine hle _ (mem_prepared.mpr ⟨k, e', hk, rfl⟩) ?_
    rw [eventId_preparedAt, eventId_preparedAt]
    exact hid

/-- Every event has one that leads its id. -/
theorem exists_leads (hp : p ∈ C.prepared w named) :
    ∃ u : Prepared, u.Leads (C.prepared w named) ∧ u.eventId = p.eventId := by
  have hsound := C.sound_deduplicated w named
  obtain ⟨⟨payloadHash, index⟩, hseen⟩ := Option.ne_none_iff_exists'.mp (hsound.complete p hp)
  obtain ⟨u, hu, hidentity, -⟩ := hsound.seen _ _ _ hseen
  exact ⟨u, leads_iff.mp hu, congrArg Prod.fst hidentity⟩

theorem notMem_of_leads {l : Location}
    (h : ∀ u : Prepared, u.Leads (C.prepared w named) → C.locate u.eventId ≠ l) :
    l ∉ (C.deduplicated w named).unique.map fun u => C.locate u.eventId := by
  intro hmem
  obtain ⟨u, hu, hl⟩ := List.mem_map.mp hmem
  exact h u (leads_iff.mp hu) hl

theorem getElem?_index (hp : p ∈ C.prepared w named) :
    (C.prepared w named)[p.index]? = some p := by
  obtain ⟨j, e, hj, rfl⟩ := mem_prepared.mp hp
  exact (getElem?_prepared C w named j).trans (by rw [hj]; rfl)

theorem index_of_getElem? {i : ℕ} (hp : (C.prepared w named)[i]? = some p) : p.index = i := by
  rw [getElem?_prepared] at hp
  obtain ⟨e, -, rfl⟩ := Option.map_eq_some_iff.mp hp
  rfl

/-! ### The entries of single calls -/

theorem raised_iff {entry : Option String} :
    (C.acceptEntry w p entry).2.2 = .raised ↔ entry = none ∧ C.sent w p = none := by
  cases entry with
  | some value =>
    obtain ⟨result, -, haccept⟩ := acceptEntry_some (C := C) (w := w) (p := p) value
    rw [haccept]
    simp
  | none =>
    rw [acceptEntry_none]
    cases C.sent w p with
    | none => simp
    | some sent => simp

theorem message_of_some {entry : Option String} (h : entry ≠ none) :
    (C.acceptEntry w p entry).2.1 = none := by
  obtain ⟨value, rfl⟩ := Option.ne_none_iff_exists'.mp h
  obtain ⟨result, -, haccept⟩ := acceptEntry_some (C := C) (w := w) (p := p) value
  rw [haccept]

/-- The calls for prepared events, each under the entry of its event. -/
structure Calls (C : TokenEventCustody) (w : Surroundings) (calls : List SerialCall)
    (ps : List Prepared) : Prop where
  call : ∀ p ∈ ps, ∃ c : SerialCall,
    (SerialCall.placed calls)[p.index]? = some (some (C.locate p.eventId), c) ∧
      c.act = C.acceptEntry w p
  event : ∀ (i : ℕ) x, (SerialCall.placed calls)[i]? = some x →
    ∃ p ∈ ps, p.index = i ∧ x.1 = some (C.locate p.eventId)

theorem calls_callsOf (hws : Alongside first last w ws) (hres : C.reservationId = none)
    (hall : C.prepareAll w events = some (C.prepared w named)) :
    C.Calls w (C.callsOf ws events) (C.prepared w named) := by
  have hprepared := (prepared_callsOf (C := C) hws).trans ((prepareAll_eq_some hres).mp hall)
  have hat : ∀ i : ℕ, ((C.callsOf ws events)[i]?).map SerialCall.prepared =
      ((C.prepared w named)[i]?).map some := by
    intro i
    rw [← List.getElem?_map, hprepared, List.getElem?_map]
  have hplaced : ∀ (i : ℕ) (c : SerialCall) (p : Prepared), (C.callsOf ws events)[i]? = some c →
      c.prepared = some p → c.location = some (C.locate p.eventId) := by
    intro i c p hc hp
    rw [getElem?_callsOf] at hc
    obtain ⟨event, -, rfl⟩ := Option.map_eq_some_iff.mp hc
    unfold SerialCall.location
    rw [hp]
    rfl
  constructor
  · intro p hp
    have hcall := hat p.index
    rw [getElem?_index hp] at hcall
    obtain ⟨c, hc, hprepare⟩ := Option.map_eq_some_iff.mp hcall
    refine ⟨c, ?_, ?_⟩
    · unfold SerialCall.placed
      rw [List.getElem?_map, hc, ← hplaced p.index c p hc hprepare]
      rfl
    · funext entry
      unfold SerialCall.act
      rw [hprepare]
      rw [getElem?_callsOf] at hc
      obtain ⟨event, -, rfl⟩ := Option.map_eq_some_iff.mp hc
      exact acceptEntry_beside (hws.beside p.index) entry
  · intro i x hx
    unfold SerialCall.placed at hx
    rw [List.getElem?_map] at hx
    obtain ⟨c, hc, rfl⟩ := Option.map_eq_some_iff.mp hx
    have hcall := hat i
    rw [hc] at hcall
    obtain ⟨p, hp, hprepare⟩ := Option.map_eq_some_iff.mp hcall.symm
    exact ⟨p, List.mem_of_getElem? hp, index_of_getElem? hp, hplaced i c p hc hprepare.symm⟩

section Serial
variable {calls : List SerialCall} (hcalls : C.Calls w calls (C.prepared w named))
  (hsha : C.DigestsDiffer named)
include hcalls hsha

/-- What the calls leave in the entry of a leading event, and tell it and its repetitions. -/
theorem serial_of_leads (hu : u.Leads (C.prepared w named)) :
    (SerialCall.run f calls).1 (some (C.locate u.eventId)) =
        (C.acceptEntry w u (f (some (C.locate u.eventId)))).1 ∧
      (SerialCall.run f calls).2[u.index]? = some (some (C.locate u.eventId),
        (C.acceptEntry w u (f (some (C.locate u.eventId)))).2) ∧
      ∀ p ∈ C.prepared w named, p.eventId = u.eventId → p ≠ u →
        (SerialCall.run f calls).2[p.index]? = some (some (C.locate u.eventId),
          (C.acceptEntry w p (C.acceptEntry w u (f (some (C.locate u.eventId)))).1).2) := by
  obtain ⟨c, hat, hact⟩ := hcalls.call u hu.mem
  have hfirst : ∀ i < u.index, ∀ x, (SerialCall.placed calls)[i]? = some x →
      x.1 ≠ some (C.locate u.eventId) := by
    rintro i hi x hx heq
    obtain ⟨q, hq, rfl, hlocation⟩ := hcalls.event i x hx
    have hlocate := Option.some.inj (hlocation.symm.trans heq)
    have hle := hu.le q hq (eventId_of_locate hsha hq hu.mem hlocate)
    omega
  obtain ⟨value, hvalue⟩ :=
    acceptEntry_isSome (C := C) (w := w) u (f (some (C.locate u.eventId)))
  have hdecided : ∀ b : SerialCall, (b.act (c.act (f (some (C.locate u.eventId)))).1).1 =
      (c.act (f (some (C.locate u.eventId)))).1 := by
    intro b
    rw [hact, hvalue, SerialCall.act_some]
  obtain ⟨hstate, hown, hlater⟩ := runKeyed_of_decided SerialCall.act f hat hfirst hdecided
  rw [hact] at hstate hown hlater
  refine ⟨hstate, hown, fun p hp hid hne => ?_⟩
  have hlt : u.index < p.index := by
    refine lt_of_le_of_ne (hu.le p hp hid) fun heq => hne ?_
    exact List.inj_on_of_nodup_map (C.sound_deduplicated w named).indices hp hu.mem heq.symm
  obtain ⟨d, hd, hact'⟩ := hcalls.call p hp
  rw [hid] at hd
  have hpoint := hlater p.index d hlt hd
  rw [hact'] at hpoint
  exact hpoint

omit hsha in
theorem serial_of_notMem {k : Option Location}
    (hk : ∀ u : Prepared, u.Leads (C.prepared w named) → some (C.locate u.eventId) ≠ k) :
    (SerialCall.run f calls).1 k = f k := by
  refine runKeyed_of_notMem fun hmem => ?_
  obtain ⟨x, hx, hkey⟩ := List.mem_map.mp hmem
  obtain ⟨i, hi⟩ := List.mem_iff_getElem?.mp hx
  obtain ⟨q, hq, -, hlocation⟩ := hcalls.event i x hi
  obtain ⟨u, hu, hid⟩ := exists_leads hq
  exact hk u hu (by rw [hid]; exact hlocation.symm.trans hkey)

end Serial

/-! ### What a batch tells -/

private theorem status_conflict_iff {eventId : String} {claim : Claim} {r : Result}
    (h : claimResult eventId claim = some r) : r.status = .conflict ↔ claim = .conflict := by
  cases claim with
  | owner => cases h
  | same => simp [← Option.some.inj h]
  | pending => simp [← Option.some.inj h]
  | uncertain => simp [← Option.some.inj h]
  | conflict => simp [← Option.some.inj h]

theorem told_own {entry : Option String} (h : entry = none → (C.sent w u).isSome) :
    (C.toldInBatch w entry u u).map (fun r => some r.status) =
      some (C.acceptEntry w u entry).2.2.status := by
  unfold toldInBatch
  rw [if_pos rfl]
  cases entry with
  | some value =>
    obtain ⟨result, hresult, haccept⟩ := acceptEntry_some (C := C) (w := w) (p := u) value
    rw [hresult, haccept]
    rfl
  | none =>
    obtain ⟨⟨o, m⟩, hsent⟩ := Option.isSome_iff_exists.mp (h rfl)
    rw [acceptEntry_none, hsent]
    have hresult : claimResult u.eventId (claimAnswer none u.payloadHash) = none := rfl
    rw [hresult]
    simp [Ending.status, settledResult]

/-- A repetition is told the same by both where it is told alike. -/
theorem told_repeated_iff {entry : Option String} (hid : p.eventId = u.eventId)
    (hindex : p.index ≠ u.index) (h : entry = none → (C.sent w u).isSome) :
    (C.toldInBatch w entry u p).map (fun r => some r.status) =
        some (C.acceptEntry w p (C.acceptEntry w u entry).1).2.2.status ↔
      C.ToldAlike w entry u p := by
  unfold toldInBatch ToldAlike
  cases entry with
  | some value =>
    obtain ⟨result, hresult, haccept⟩ := acceptEntry_some (C := C) (w := w) (p := u) value
    obtain ⟨result', hresult', haccept'⟩ := acceptEntry_some (C := C) (w := w) (p := p) value
    rw [haccept, haccept', hresult]
    dsimp only [Ending.status]
    by_cases hhash : u.payloadHash = p.payloadHash
    · rw [hhash, ← hid, hresult'] at hresult
      rw [if_pos hhash, Option.some.inj hresult]
      simp [hhash]
    · rw [if_neg hhash]
      simp [Deduplicated.conflictResult, hhash, ← status_conflict_iff hresult', eq_comm]
  | none =>
    obtain ⟨⟨o, m⟩, hsent⟩ := Option.isSome_iff_exists.mp (h rfl)
    rw [acceptEntry_none, hsent]
    dsimp only
    obtain ⟨result, hresult, haccept⟩ := acceptEntry_some (C := C) (w := w) (p := p)
      (entryText C.settledPhase u.payloadHash)
    rw [haccept, claimAnswer_entry] at *
    have howner : claimResult u.eventId (claimAnswer none u.payloadHash) = none := rfl
    rw [howner]
    by_cases hhash : u.payloadHash = p.payloadHash
    · rw [if_pos hhash] at hresult
      rw [if_pos hhash]
      unfold settledPhase at hresult
      by_cases hretries : 0 < C.settings.finalizeRetries
      · rw [if_pos hretries] at hresult
        rw [← Option.some.inj hresult]
        cases hsuspicious : o.suspicious <;>
          simp [Ending.status, finalResult, statusOf, hindex, hretries, hhash, hsuspicious]
      · rw [if_neg hretries] at hresult
        rw [← Option.some.inj hresult]
        simp [Ending.status, finalResult, errorResult, hindex, hretries]
    · rw [if_neg hhash] at hresult
      rw [← Option.some.inj hresult]
      simp [Ending.status, Deduplicated.conflictResult, hhash]

/-! ### A batch that comes to its publication -/

private theorem claimOf_free (hsteady : s.Steady first last) (hwithin : w.Within first last)
    (h : s.ledger first (C.locate u.eventId) = none) :
    C.claimOf w.claimClock s u.identity = .owner :=
  (claimOf_ledger hsteady hwithin u.identity).trans (claimAnswer_eq_owner.mpr h)

/-- A batch comes to its publication where its leading events can be sent if their entries are free. -/
theorem publishes_iff_leads (hsteady : s.Steady first last) (hwithin : w.Within first last)
    (hsha : C.DigestsDiffer named) :
    (∃ c messages, C.Publishes w named s c messages) ↔
      ∀ u : Prepared, u.Leads (C.prepared w named) → s.ledger first (C.locate u.eventId) = none →
        (C.sending w u).isSome := by
  rw [publishes_iff hsha]
  constructor
  · intro h u hu hfree
    exact h u (leads_iff.mpr hu) (claimOf_free hsteady hwithin hfree)
  · intro h u hu howner
    exact h u (leads_iff.mp hu)
      (claimAnswer_eq_owner.mp ((claimOf_ledger hsteady hwithin u.identity).symm.trans howner))

section Publishes
variable {c : Claimed} {messages : List Message} {calls : List SerialCall}
  (hwithin : w.Within first last) (hsteady : s.Steady first last) (hsha : C.DigestsDiffer named)
  (hres : C.reservationId = none) (hcalls : C.Calls w calls (C.prepared w named))
  (h : C.Publishes w named s c messages)
include hwithin hsteady hsha hres hcalls h

omit hcalls in
theorem sent_of_leads (hu : u.Leads (C.prepared w named))
    (hfree : s.ledger first (C.locate u.eventId) = none) : (C.sent w u).isSome := by
  obtain ⟨x, hx⟩ := Option.isSome_iff_exists.mp
    ((publishes_iff_leads hsteady hwithin hsha).mp ⟨c, messages, h⟩ u hu hfree)
  rw [sent_of_sending hres hx]
  rfl

theorem messages_run (hlength : calls.length = named.length) :
    messages.Perm ((SerialCall.run (s.entries first) calls).2.flatMap fun x => x.2.1.toList) := by
  classical
  let message (p : Prepared) : Option Message :=
    (C.acceptEntry w p (s.ledger first (C.locate p.eventId))).2.1
  have houtcomes : (SerialCall.run (s.entries first) calls).2.map (fun x => x.2.1) =
      (C.prepared w named).map fun p =>
        if p.Leads (C.prepared w named) then message p else none := by
    apply List.ext_getElem?
    intro i
    rw [List.getElem?_map, List.getElem?_map]
    cases hp : (C.prepared w named)[i]? with
    | none =>
      have hshort : (SerialCall.run (s.entries first) calls).2[i]? = none := by
        have hlong := List.getElem?_eq_none_iff.mp hp
        unfold prepared at hlong
        rw [List.length_map, List.length_zipIdx] at hlong
        rw [List.getElem?_eq_none_iff, SerialCall.length_run, hlength]
        exact hlong
      rw [hshort]
      rfl
    | some p =>
      have hmem := List.mem_of_getElem? hp
      obtain rfl := index_of_getElem? hp
      rw [Option.map_some]
      split_ifs with hleads
      · rw [(serial_of_leads hcalls hsha hleads).2.1]
        rfl
      · obtain ⟨u, hu, hid⟩ := exists_leads hmem
        have hne : p ≠ u := fun heq => hleads (heq ▸ hu)
        obtain ⟨value, hvalue⟩ := acceptEntry_isSome (C := C) (w := w) u
          (s.entries first (some (C.locate u.eventId)))
        rw [(serial_of_leads hcalls hsha hu).2.2 p hmem hid.symm hne, Option.map_some]
        dsimp only
        rw [message_of_some (by rw [hvalue]; exact Option.some_ne_none value)]
  have hunique : (C.deduplicated w named).unique.Perm
      ((C.prepared w named).filter fun p => p.Leads (C.prepared w named)) := by
    rw [List.perm_ext_iff_of_nodup]
    · intro u
      rw [leads_iff, List.mem_filter]
      exact ⟨fun hu => ⟨hu.mem, by simpa using hu⟩, fun hu => by simpa using hu.2⟩
    · exact (C.sound_deduplicated w named).nodup.of_map _
    · exact ((C.sound_deduplicated w named).indices.of_map _).filter _
  have hserial : (SerialCall.run (s.entries first) calls).2.flatMap (fun x => x.2.1.toList) =
      ((C.prepared w named).filter fun p => p.Leads (C.prepared w named)).filterMap message := by
    have hmap : (SerialCall.run (s.entries first) calls).2.filterMap (fun x => x.2.1) =
        ((SerialCall.run (s.entries first) calls).2.map fun x => x.2.1).filterMap id := by
      rw [List.filterMap_map]
      rfl
    rw [← List.filterMap_eq_flatMap_toList, hmap, houtcomes, List.filterMap_map,
      List.filterMap_filter]
    apply List.filterMap_congr
    intro p _
    by_cases hleads : p.Leads (C.prepared w named) <;> simp [hleads]
  rw [hserial, messages_filterMap h hsha hres hsteady hwithin]
  exact hunique.filterMap message

/-- The positions are told the same where the repetitions are told alike. -/
theorem statuses_iff (hw : w.Answering) (hlength : calls.length = named.length) :
    (endingOf named.length (C.settled w named s c messages).2).statuses named.length =
        (SerialCall.run (s.entries first) calls).2.map (fun x => x.2.2.status) ↔
      ∀ u p : Prepared, u.Leads (C.prepared w named) → p ∈ C.prepared w named →
        p.eventId = u.eventId → p ≠ u → C.ToldAlike w (s.ledger first (C.locate u.eventId)) u p := by
  have houtcomes : (w.broker messages).outcomes.length = c.owned.length := by
    rw [(w.broker messages).length_outcomes, (messages_of_owned h).length_eq]
  have hplace : ∀ i < named.length, ∃ p ∈ C.prepared w named, p.index = i := by
    intro i hi
    exact ⟨_, mem_prepared.mpr ⟨i, named[i], List.getElem?_eq_getElem hi, rfl⟩, rfl⟩
  have hcomplete : ∀ i < named.length, (C.settled w named s c messages).2 i ≠ none := by
    intro i hi
    obtain ⟨p, hp, rfl⟩ := hplace i hi
    exact settleBatch_complete h houtcomes hp
  obtain ⟨list, hending, hlist, hresults⟩ := endingOf_complete hcomplete
  have hindex : ∀ p ∈ C.prepared w named, p.index < named.length := by
    intro p hp
    obtain ⟨i, e, he, rfl⟩ := mem_prepared.mp hp
    exact (List.getElem?_eq_some_iff.mp he).1
  have hpoints : (endingOf named.length (C.settled w named s c messages).2).statuses named.length =
        (SerialCall.run (s.entries first) calls).2.map (fun x => x.2.2.status) ↔
      ∀ p ∈ C.prepared w named,
        ((C.settled w named s c messages).2 p.index).map (fun r => some r.status) =
          ((SerialCall.run (s.entries first) calls).2[p.index]?).map fun x => x.2.2.status := by
    rw [hending]
    constructor
    · intro heq p hp
      rw [← hresults p.index (hindex p hp), ← List.getElem?_map, ← List.getElem?_map, ← heq]
      rfl
    · intro hall
      apply List.ext_getElem?
      intro i
      show (list.map fun r => some r.status)[i]? = _
      rw [List.getElem?_map, List.getElem?_map]
      by_cases hi : i < named.length
      · obtain ⟨p, hp, rfl⟩ := hplace i hi
        rw [hresults _ hi]
        exact hall p hp
      · rw [List.getElem?_eq_none (by omega), List.getElem?_eq_none]
        · rfl
        · rw [SerialCall.length_run]
          omega
  have htold : ∀ u p : Prepared, u.Leads (C.prepared w named) → p ∈ C.prepared w named →
      p.eventId = u.eventId →
      (C.settled w named s c messages).2 p.index =
        C.toldInBatch w (s.ledger first (C.locate u.eventId)) u p := by
    intro u p hu hp hid
    exact (settled_told hw hwithin hsteady hsha hres h hp (leads_iff.mpr hu) hid.symm).symm
  rw [hpoints]
  constructor
  · intro hall u p hu hp hid hne
    have hpoint := hall p hp
    rw [htold u p hu hp hid, (serial_of_leads hcalls hsha hu).2.2 p hp hid hne] at hpoint
    refine (told_repeated_iff hid ?_ (sent_of_leads hwithin hsteady hsha hres h hu)).mp hpoint
    intro heq
    exact hne (List.inj_on_of_nodup_map (C.sound_deduplicated w named).indices hp hu.mem heq)
  · intro halike p hp
    obtain ⟨u, hu, hid⟩ := exists_leads hp
    rw [htold u p hu hp hid.symm]
    by_cases hne : p = u
    · subst hne
      rw [(serial_of_leads hcalls hsha hu).2.1]
      exact told_own (sent_of_leads hwithin hsteady hsha hres h hu)
    · rw [(serial_of_leads hcalls hsha hu).2.2 p hp hid.symm hne]
      refine (told_repeated_iff hid.symm ?_ (sent_of_leads hwithin hsteady hsha hres h hu)).mpr
        (halike u p hu hp hid.symm hne)
      intro heq
      exact hne (List.inj_on_of_nodup_map (C.sound_deduplicated w named).indices hp hu.mem heq)

end Publishes

/-! ### The theorem about a batch -/

theorem status_eq_none {e : Ending Result} : e.status = none ↔ e = .raised := by
  cases e with
  | returned r => simp [Ending.status]
  | raised => simp [Ending.status]

theorem entries_eq_iff {s s' : IdentityStore} (hordered : first ≤ last)
    (hsteady : s.Steady first last) (hsteady' : s'.Steady first last) :
    (∀ now, first ≤ now → now ≤ last → s.ledger now = s'.ledger now) ↔
      s.entries first = s'.entries first := by
  constructor
  · intro h
    funext k
    cases k with
    | none => rfl
    | some l => exact congrFun (h first le_rfl hordered) l
  · intro h now hfirst hlast
    rw [ledger_steady hsteady hfirst hlast, ledger_steady hsteady' hfirst hlast]
    funext l
    exact congrFun h (some l)

variable {calls : List SerialCall} {s' : IdentityStore} {n : ℕ}

theorem shapeOnly_iff_run (hcalls : ∀ c ∈ calls, c.Answered first last) (hordered : first ≤ last)
    (hsteady : s.Steady first last) {batch : BatchCall} (hbatch : batch.store.Steady first last) :
    ShapeOnly first last n batch (acceptSerially calls s) ↔
      batch.ending.statuses n =
          (SerialCall.run (s.entries first) calls).2.map (fun x => x.2.2.status) ∧
        batch.store.entries first = (SerialCall.run (s.entries first) calls).1 ∧
        batch.produced.Perm
          ((SerialCall.run (s.entries first) calls).2.flatMap fun x => x.2.1.toList) := by
  obtain ⟨hserial, hentries, hproduced, hendings⟩ := SerialCall.acceptSerially_run hcalls hsteady
  have hstatuses : (acceptSerially calls s).endings.map Ending.status =
      (SerialCall.run (s.entries first) calls).2.map fun x => x.2.2.status := by
    rw [hendings, List.map_map]
    rfl
  rw [← hstatuses, ← hproduced, ← hentries, ← entries_eq_iff hordered hbatch hserial]
  exact ⟨fun h => ⟨h.statuses, h.store, h.messages⟩, fun h => ⟨h.1, h.2.1, h.2.2⟩⟩

theorem shapeOnly_raised_iff (hcalls : ∀ c ∈ calls, c.Answered first last)
    (hordered : first ≤ last) (hsteady : s.Steady first last) (hsteady' : s'.Steady first last) :
    ShapeOnly first last calls.length { store := s', ending := .raised } (acceptSerially calls s) ↔
      (∀ x ∈ (SerialCall.run (s.entries first) calls).2, x.2 = (none, .raised)) ∧
        s'.entries first = (SerialCall.run (s.entries first) calls).1 := by
  rw [shapeOnly_iff_run hcalls hordered hsteady hsteady']
  have hlength : (SerialCall.run (s.entries first) calls).2.length = calls.length :=
    SerialCall.length_run
  generalize (SerialCall.run (s.entries first) calls).2 = outcomes at hlength ⊢
  have hstatuses : List.replicate calls.length none = outcomes.map (fun x => x.2.2.status) ↔
      ∀ x ∈ outcomes, x.2.2 = .raised := by
    rw [eq_comm, List.eq_replicate_iff, List.length_map, List.forall_mem_map]
    simp only [hlength, status_eq_none, true_and]
  have hmessages : [].Perm (outcomes.flatMap fun x => x.2.1.toList) ↔
      ∀ x ∈ outcomes, x.2.1 = none := by
    rw [List.nil_perm, List.flatMap_eq_nil_iff]
    simp only [Option.toList_eq_nil_iff]
  show List.replicate calls.length none = outcomes.map (fun x => x.2.2.status) ∧ _ ∧
    [].Perm (outcomes.flatMap fun x => x.2.1.toList) ↔ _
  rw [hstatuses, hmessages]
  constructor
  · rintro ⟨hraised, hstore, hnone⟩
    exact ⟨fun x hx => Prod.ext (hnone x hx) (hraised x hx), hstore⟩
  · rintro ⟨hall, hstore⟩
    exact ⟨fun x hx => congrArg Prod.snd (hall x hx), hstore,
      fun x hx => congrArg Prod.fst (hall x hx)⟩

/-- What the two executions have in common: their clocks and settings, and the entries that they find. -/
structure Comparable (C : TokenEventCustody) (w : Surroundings) (ws : ℕ → Surroundings)
    (first last : ℤ) (events : List Dict) (s s' : IdentityStore) : Prop where
  answering : w.Answering
  within : w.Within first last
  alongside : Alongside first last w ws
  outlasts : Outlasts C.settings first last
  steady : s.Steady first last
  steady' : s'.Steady first last
  same : s'.entries first = s.entries first
  reservation : C.reservationId = none
  apart : C.IdsApart w events

section Comparable
variable (hC : C.Comparable w ws first last events s s')
include hC

theorem shapeOnly_iff_unprepared (hall : C.prepareAll w events = none) :
    ShapeOnly first last events.length (C.acceptMany w events s)
        (acceptSerially (C.callsOf ws events) s') ↔
      ∀ p ∈ events.zipIdx, C.prepare w p.2 p.1 = none := by
  have hprepared : (C.callsOf ws events).map SerialCall.prepared = _ :=
    prepared_callsOf hC.alongside
  have hbatch : C.acceptMany w events s = { store := s, ending := .raised } := by
    unfold acceptMany
    rw [hall]
  have hunprepared : (∀ p ∈ events.zipIdx, C.prepare w p.2 p.1 = none) ↔
      ∀ c ∈ C.callsOf ws events, c.prepared = none := by
    rw [← List.forall_mem_map (P := fun x => x = none) (f := SerialCall.prepared), hprepared,
      List.forall_mem_map]
  have hlength : (C.callsOf ws events).length = events.length := length_callsOf
  rw [hbatch, ← hlength, hunprepared,
    shapeOnly_raised_iff (answered_callsOf hC.alongside hC.outlasts) hC.outlasts.ordered
      hC.steady' hC.steady, ← hC.same]
  constructor
  · rintro ⟨hraised, hentries⟩ c hc
    cases hcase : c.prepared with
    | none => rfl
    | some p =>
      obtain ⟨hfree, fingerprint, hvalue⟩ := SerialCall.free_of_raised
        (fun x hx => congrArg Prod.snd (hraised x hx)) hc hcase
      rw [← hentries, hfree] at hvalue
      cases hvalue
  · intro h
    obtain ⟨hstate, houtcomes⟩ := SerialCall.run_unprepared (f := s'.entries first) h
    exact ⟨houtcomes, hstate.symm⟩

section Prepared
variable (hall : C.prepareAll w events = some (C.prepared w named)) (hsha : C.DigestsDiffer named)
include hall hsha

/-- The entries after the single calls, under the events of the batch and elsewhere. -/
theorem entries_eq_iff_leads {store : IdentityStore} :
    store.entries first = (SerialCall.run (s'.entries first) (C.callsOf ws events)).1 ↔
      ∀ l, (∀ u : Prepared, u.Leads (C.prepared w named) → C.locate u.eventId = l →
          store.ledger first l = (C.acceptEntry w u (s.ledger first l)).1) ∧
        ((∀ u : Prepared, u.Leads (C.prepared w named) → C.locate u.eventId ≠ l) →
          store.ledger first l = s.ledger first l) := by
  have hcalls := calls_callsOf hC.alongside hC.reservation hall
  have hsame : ∀ l, s'.entries first (some l) = s.ledger first l := fun l => congrFun hC.same (some l)
  have hother : ∀ l, (∀ u : Prepared, u.Leads (C.prepared w named) → C.locate u.eventId ≠ l) →
      (SerialCall.run (s'.entries first) (C.callsOf ws events)).1 (some l) = s.ledger first l := by
    intro l hl
    rw [serial_of_notMem hcalls fun u hu heq => hl u hu (Option.some.inj heq), hsame]
  constructor
  · intro heq l
    have hl : store.ledger first l =
        (SerialCall.run (s'.entries first) (C.callsOf ws events)).1 (some l) := congrFun heq (some l)
    constructor
    · rintro u hu rfl
      rw [hl, (serial_of_leads hcalls hsha hu).1, hsame]
    · exact fun hnot => hl.trans (hother l hnot)
  · intro h
    funext k
    cases k with
    | none =>
      have hnone := serial_of_notMem (f := s'.entries first) (k := none) hcalls
        fun u _ => Option.some_ne_none _
      rw [hnone]
      rfl
    | some l =>
      show store.ledger first l = _
      by_cases hl : ∃ u : Prepared, u.Leads (C.prepared w named) ∧ C.locate u.eventId = l
      · obtain ⟨u, hu, rfl⟩ := hl
        rw [(h _).1 u hu rfl, (serial_of_leads hcalls hsha hu).1, hsame]
      · have hnot : ∀ u : Prepared, u.Leads (C.prepared w named) → C.locate u.eventId ≠ l :=
          fun u hu heq => hl ⟨u, hu, heq⟩
        rw [(h l).2 hnot, hother l hnot]

theorem shapeOnly_iff_alike (hlength : named.length = events.length) {c : Claimed}
    {messages : List Message} (h : C.Publishes w named s c messages) :
    ShapeOnly first last events.length (C.acceptMany w events s)
        (acceptSerially (C.callsOf ws events) s') ↔
      ∀ u p : Prepared, u.Leads (C.prepared w named) → p ∈ C.prepared w named →
        p.eventId = u.eventId → p ≠ u → C.ToldAlike w (s.ledger first (C.locate u.eventId)) u p := by
  have hcalls := calls_callsOf hC.alongside hC.reservation hall
  have hlong : (C.callsOf ws events).length = named.length :=
    length_callsOf.trans hlength.symm
  obtain ⟨hsettled, hledger⟩ :=
    ledger_settled hC.within hC.outlasts hC.steady hsha hC.answering hC.reservation h
  rw [acceptMany_of_publishes hall hlength h, shapeOnly_iff_run
    (answered_callsOf hC.alongside hC.outlasts) hC.outlasts.ordered hC.steady' hsettled,
    ← hlength]
  dsimp only
  rw [hC.same, hC.answering.produced, statuses_iff hC.within hC.steady hsha hC.reservation hcalls h
    hC.answering hlong]
  constructor
  · exact fun hshape => hshape.1
  · intro halike
    refine ⟨halike, ?_, messages_run hC.within hC.steady hsha hC.reservation hcalls h hlong⟩
    rw [← hC.same, entries_eq_iff_leads hC hall hsha]
    exact fun l => ⟨fun u hu hl => (hledger l).1 u (leads_iff.mpr hu) hl,
      fun hl => (hledger l).2 (notMem_of_leads hl)⟩

/-- Events that can be prepared and raise one after the other are leading, free and cannot be sent. -/
theorem allRaise_of_raised
    (hraised : ∀ x ∈ (SerialCall.run (s'.entries first) (C.callsOf ws events)).2, x.2.2 = .raised) :
    C.AllRaise w (s.ledger first) (C.prepared w named) := by
  have hcalls := calls_callsOf hC.alongside hC.reservation hall
  intro p hp
  obtain ⟨u, hu, hid⟩ := exists_leads hp
  obtain ⟨-, hown, hothers⟩ := serial_of_leads (f := s'.entries first) hcalls hsha hu
  by_cases hne : p = u
  · subst hne
    have hsame : s'.entries first (some (C.locate p.eventId)) =
        s.ledger first (C.locate p.eventId) := congrFun hC.same _
    have hending := hraised _ (List.mem_of_getElem? hown)
    rw [hsame] at hending
    exact ⟨hu, raised_iff.mp hending⟩
  · have hending := hraised _ (List.mem_of_getElem? (hothers p hp hid.symm hne))
    obtain ⟨value, hvalue⟩ := acceptEntry_isSome (C := C) (w := w) u
      (s'.entries first (some (C.locate u.eventId)))
    have hfree := (raised_iff.mp hending).1
    rw [hvalue] at hfree
    cases hfree

/-- A batch that raises over the claims that it has made. -/
theorem shapeOnly_iff_allRaise (h : ¬ ∃ c messages, C.Publishes w named s c messages) :
    ShapeOnly first last events.length (C.acceptMany w events s)
        (acceptSerially (C.callsOf ws events) s') ↔
      C.AllRaise w (s.ledger first) (C.prepared w named) := by
  have hcalls := calls_callsOf hC.alongside hC.reservation hall
  obtain ⟨hclaimed, hledger⟩ := ledger_batchClaims hC.within hC.outlasts hC.steady hsha
  have hsame : ∀ l, s'.entries first (some l) = s.ledger first l := fun l => congrFun hC.same (some l)
  have hlength : (C.callsOf ws events).length = events.length := length_callsOf
  rw [acceptMany_of_not_publishes hall h, ← hlength, shapeOnly_raised_iff
    (answered_callsOf hC.alongside hC.outlasts) hC.outlasts.ordered hC.steady' hclaimed,
    entries_eq_iff_leads hC hall hsha]
  constructor
  · exact fun h => allRaise_of_raised hC hall hsha fun x hx => congrArg Prod.snd (h.1 x hx)
  · intro hraise
    have hacts : ∀ u : Prepared, u.Leads (C.prepared w named) →
        C.acceptEntry w u (s.ledger first (C.locate u.eventId)) =
          (some (entryText .pending u.payloadHash), none, .raised) := by
      intro u hu
      obtain ⟨-, hfree, hsent⟩ := hraise u hu.mem
      rw [hfree, acceptEntry_none, hsent]
    refine ⟨?_, fun l => ⟨?_, fun hl => (hledger l).2 (notMem_of_leads hl)⟩⟩
    · intro x hx
      obtain ⟨i, hi⟩ := List.mem_iff_getElem?.mp hx
      obtain ⟨y, hy⟩ : ∃ y, (SerialCall.placed (C.callsOf ws events))[i]? = some y := by
        have hlt := (List.getElem?_eq_some_iff.mp hi).1
        rw [SerialCall.length_run] at hlt
        unfold SerialCall.placed
        rw [List.getElem?_map, List.getElem?_eq_getElem hlt]
        exact ⟨_, rfl⟩
      obtain ⟨p, hp, rfl, -⟩ := hcalls.event i y hy
      obtain ⟨hleads, -, -⟩ := hraise p hp
      rw [(serial_of_leads hcalls hsha hleads).2.1, hsame, hacts p hleads] at hi
      rw [← Option.some.inj hi]
    · rintro u hu rfl
      rw [(hledger _).1 u (leads_iff.mpr hu) rfl, hacts u hu, (hraise u hu.mem).2.1]
      rfl

end Prepared

omit hC in
theorem digestsDiffer_of_apart (hres : C.reservationId = none) (hapart : C.IdsApart w events)
    (hall : C.prepareAll w events = some (C.prepared w named)) : C.DigestsDiffer named := by
  have hmap := (prepareAll_eq_some hres).mp hall
  have hprepared : ∀ e ∈ named, ∃ a ∈ events.zipIdx, ∃ p : Prepared,
      C.prepare w a.2 a.1 = some p ∧ p.eventId = eventIdOf e := by
    intro e he
    obtain ⟨i, hi⟩ := List.mem_iff_getElem?.mp he
    have hmem : some (C.preparedAt w (e, i)) ∈ (C.prepared w named).map some :=
      List.mem_map_of_mem (mem_prepared.mpr ⟨i, e, hi, rfl⟩)
    rw [← hmap] at hmem
    obtain ⟨a, ha, hp⟩ := List.mem_map.mp hmem
    exact ⟨a, ha, _, hp, eventId_preparedAt _⟩
  intro e he e' he' hhash
  obtain ⟨a, ha, p, hp, hpid⟩ := hprepared e he
  obtain ⟨b, hb, q, hq, hqid⟩ := hprepared e' he'
  rw [← hpid, ← hqid] at hhash ⊢
  exact hapart a ha b hb p q hp hq hhash

theorem shapeOnly_iff :
    ShapeOnly first last events.length (C.acceptMany w events s)
        (acceptSerially (C.callsOf ws events) s') ↔
      C.KeepsShape w (s.ledger first) events := by
  unfold KeepsShape
  cases hcase : C.prepareAll w events with
  | none =>
    rw [shapeOnly_iff_unprepared hC hcase]
    simp
  | some ps =>
    obtain ⟨named, hlength, rfl⟩ := exists_prepared hC.reservation hcase
    have hsha := digestsDiffer_of_apart hC.reservation hC.apart hcase
    have hunprepared : (∀ p ∈ events.zipIdx, C.prepare w p.2 p.1 = none) →
        C.prepared w named = [] := by
      intro hnone
      have hmap := (prepareAll_eq_some hC.reservation).mp hcase
      rw [List.eq_nil_iff_forall_not_mem]
      intro p hp
      have hmem : some p ∈ (C.prepared w named).map some := List.mem_map_of_mem hp
      rw [← hmap] at hmem
      obtain ⟨a, ha, hprepare⟩ := List.mem_map.mp hmem
      rw [hnone a ha] at hprepare
      cases hprepare
    have hraise_nil : C.prepared w named = [] →
        C.AllRaise w (s.ledger first) (C.prepared w named) := by
      intro hnil p hp
      rw [hnil] at hp
      cases hp
    have hreduce : ((∀ p ∈ events.zipIdx, C.prepare w p.2 p.1 = none) ∨
          ∃ ps, some (C.prepared w named) = some ps ∧
            (C.AllRaise w (s.ledger first) ps ∨ C.Regular w (s.ledger first) ps)) ↔
        C.AllRaise w (s.ledger first) (C.prepared w named) ∨
          C.Regular w (s.ledger first) (C.prepared w named) := by
      constructor
      · rintro (hnone | ⟨ps, heq, h⟩)
        · exact Or.inl (hraise_nil (hunprepared hnone))
        · obtain rfl := Option.some.inj heq
          exact h
      · exact fun h => Or.inr ⟨_, rfl, h⟩
    have hleads := publishes_iff_leads hC.steady hC.within hsha
    rw [hreduce]
    by_cases hpublishes : ∃ c messages, C.Publishes w named s c messages
    · obtain ⟨c, messages, h⟩ := hpublishes
      rw [shapeOnly_iff_alike hC hcase hsha hlength h]
      constructor
      · exact fun halike => Or.inr ⟨hleads.mp ⟨c, messages, h⟩, halike⟩
      · rintro (hraise | hregular)
        · intro u p hu
          obtain ⟨-, hfree, hsent⟩ := hraise u hu.mem
          have hsome := sent_of_leads hC.within hC.steady hsha hC.reservation h hu hfree
          rw [hsent] at hsome
          cases hsome
        · exact hregular.alike
    · rw [shapeOnly_iff_allRaise hC hcase hsha hpublishes]
      constructor
      · exact Or.inl
      · rintro (hraise | hregular)
        · exact hraise
        · exact absurd (hleads.mpr hregular.sendable) hpublishes

end Comparable

/-- `accept_many` gives a list of events the statuses, entries and messages of `accept` one after the
other exactly where no event can be prepared, or all can, and then each raises on its own, or every
claimed event can be sent and every repetition is told alike. -/
theorem acceptMany_shape_iff (hw : w.Answering) (hwithin : w.Within first last)
    (hws : Alongside first last w ws) (hS : Outlasts C.settings first last)
    (hsteady : s.Steady first last) (hres : C.reservationId = none) (hsha : C.IdsApart w events) :
    ShapeOnly first last events.length (C.acceptMany w events s)
        (acceptSerially (C.callsOf ws events) s) ↔
      C.KeepsShape w (s.ledger first) events :=
  shapeOnly_iff ⟨hw, hwithin, hws, hS, hsteady, hsteady, rfl, hres, hsha⟩

end TokenEventCustody

/-! ### An event and its copy -/

private theorem deliveries_acked (n k : ℕ) (hk : k ≤ n) :
    ((List.range k).map fun i => (i, true)).foldl onDelivery (List.replicate n none) =
      (List.range n).map fun i => if i < k then some none else none := by
  induction k with
  | zero =>
    apply List.ext_getElem?
    intro i
    by_cases hi : i < n <;> simp [hi]
  | succ k ih =>
    rw [List.range_succ, List.map_append, List.foldl_append, ih (by omega)]
    have hpending : ((List.range n).map fun i =>
        if i < k then some (none : Option PublishError) else none)[k]? = some none := by
      rw [List.getElem?_map, List.getElem?_range (by omega)]
      simp
    show onDelivery _ (k, true) = _
    unfold onDelivery
    rw [hpending]
    dsimp only
    apply List.ext_getElem?
    intro i
    by_cases hi : i = k
    · subst hi
      rw [List.getElem?_set_self (by rw [List.length_map, List.length_range]; omega),
        List.getElem?_map, List.getElem?_range (by omega)]
      simp
    · rw [List.getElem?_set_ne (Ne.symm hi), List.getElem?_map, List.getElem?_map]
      by_cases hn : i < n
      · rw [List.getElem?_range hn]
        have hiff : i < k + 1 ↔ i < k := by omega
        rw [Option.map_some, Option.map_some, if_congr hiff rfl rfl]
      · rw [List.getElem?_eq_none (by rw [List.length_range]; omega)]
        rfl

theorem outcomes_ofAcks (messages : List Message) :
    (Publication.ofAcks messages).outcomes = messages.map fun _ => none := by
  have hpending : (messages.map fun _ => Produced.queued).map Produced.outcome =
      List.replicate messages.length none := by
    rw [List.map_map]
    exact List.map_const
  show publishBatchWithAck _ _ = _
  unfold publishBatchWithAck
  rw [hpending, deliveries_acked _ _ le_rfl, List.map_map]
  apply List.ext_getElem?
  intro i
  by_cases hi : i < messages.length
  · rw [List.getElem?_map, List.getElem?_map, List.getElem?_range hi, List.getElem?_eq_getElem hi]
    simp [hi]
  · rw [List.getElem?_eq_none (by rw [List.length_map, List.length_range]; omega),
      List.getElem?_eq_none (by rw [List.length_map]; omega)]

theorem produced_ofAcks (messages : List Message) :
    (Publication.ofAcks messages).produced = messages := by
  show chosen messages (fun i => (messages.map fun _ => Produced.queued)[i]? = some .queued) = messages
  unfold chosen
  rw [List.filter_eq_self.mpr, List.zipIdx_map_fst]
  intro x hx
  rw [List.mem_zipIdx_iff_getElem?] at hx
  show decide ((messages.map fun _ => Produced.queued)[x.2]? = some .queued) = true
  rw [List.getElem?_map, hx]
  rfl

theorem still_answering (seconds : ℤ) : (Surroundings.still seconds).Answering where
  outcomes := outcomes_ofAcks
  produced := produced_ofAcks
  remember _ := rfl
  mark := rfl

theorem still_within (seconds : ℤ) : (Surroundings.still seconds).Within seconds seconds :=
  ⟨⟨le_rfl, le_rfl⟩, fun _ => le_rfl, le_rfl⟩

theorem still_alongside (seconds : ℤ) :
    Alongside seconds seconds (.still seconds) fun _ => .still seconds :=
  ⟨fun _ => ⟨rfl, rfl, rfl⟩, fun _ => still_answering seconds, fun _ => still_within seconds⟩

theorem outlasts_defaults (seconds : ℤ) :
    IdentityContext.Outlasts .defaults seconds seconds where
  ordered := le_rfl
  pending := lt_add_of_pos_right _ IdentitySettings.defaults.pending_pos
  accepted := lt_add_of_pos_right _ IdentitySettings.defaults.ttl_pos
  uncertain := lt_add_of_pos_right _ IdentitySettings.defaults.uncertain_pos

theorem steady_empty (first last : ℤ) : IdentityStore.empty.Steady first last := by
  intro l score h
  cases h

theorem apart_copies {C : TokenEventCustody} {w : Surroundings} {event : Dict} {events : List Dict}
    (hres : C.reservationId = none) (hwell : WellFormed event) (hall : ∀ e ∈ events, e = event) :
    C.IdsApart w events := by
  have hid : ∀ (a : Dict × ℕ) (p : Prepared), a ∈ events.zipIdx →
      C.prepare w a.2 a.1 = some p → p.eventId = eventIdOf event := by
    intro a p ha hp
    rw [List.mem_zipIdx_iff_getElem?] at ha
    rw [hall a.1 (List.mem_of_getElem? ha), ← TokenEventCustody.withoutReservation_eq hres,
      TokenEventCustody.prepare_wellFormed hwell] at hp
    rw [← Option.some.inj hp, TokenEventCustody.eventId_preparedAt]
  intro a ha b hb p q hp hq _
  rw [hid a p ha hp, hid b q hb hq]

theorem acceptMany_shape_twins :
    ShapeOnly 1700000000 1700000000 2
        (twinCustody.acceptMany (.still 1700000000) [twin, twin] .empty)
        (acceptSerially (twinCustody.callsOf (fun _ => .still 1700000000) [twin, twin]) .empty) ↔
      twinCustody.KeepsShape (.still 1700000000) (IdentityStore.empty.ledger 1700000000)
        [twin, twin] := by
  have hcopies : ∀ e ∈ [twin, twin], e = twin := by simp
  exact TokenEventCustody.acceptMany_shape_iff (still_answering _) (still_within _)
    (still_alongside _) (outlasts_defaults _) (steady_empty _ _) (C := twinCustody) rfl
    (apart_copies rfl wellFormed_twin hcopies)

end FluxMeter.Custody
