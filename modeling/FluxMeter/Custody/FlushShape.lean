import FluxMeter.Custody.BatcherDrain
import FluxMeter.Custody.Flush

/-! A flush keeps the shape of single calls where its batches do and its groups keep the queue order. -/
namespace FluxMeter.Custody
open Collections FluxMeter.Wire Transition

namespace TokenEventCustody
open IdentityContext IdentityStore
variable {C : TokenEventCustody} {w : Surroundings} {ws : ℕ → Surroundings} {s s' : IdentityStore}
  {first last : ℤ} {events : List Dict}

/-! ### One batch of a flush -/

private theorem settledPhase_ne_pending : C.settledPhase ≠ .pending := by
  unfold settledPhase
  split_ifs <;> simp

theorem length_acceptMany {results : List Result}
    (h : (C.acceptMany w events s).ending = .returned results) : results.length = events.length := by
  unfold acceptMany at h
  cases hall : C.prepareAll w events with
  | none =>
    rw [hall] at h
    cases h
  | some prepared =>
    rw [hall] at h
    dsimp only at h
    split at h
    · cases h
    · split at h
      · cases h
      · dsimp only at h
        unfold endingOf at h
        split at h
        next list hlist =>
          obtain rfl := BatchEnding.returned.inj h
          have hforall := mapM_eq_some_iff.mp hlist
          simpa using hforall.length_eq.symm
        · cases h

section Comparable
variable (hC : C.Comparable w ws first last events s s')
include hC

/-- A batch changes free entries of its events only: it settles them, or raises over those that it has
claimed. -/
theorem ledger_acceptMany : (C.acceptMany w events s).store.Steady first last ∧ ∀ l,
    (C.acceptMany w events s).store.ledger first l = s.ledger first l ∨
      s.ledger first l = none ∧
        (∃ c ∈ C.callsOf ws events, ∃ p : Prepared, c.prepared = some p ∧ c.location = some l) ∧
        ∃ phase fingerprint,
          (C.acceptMany w events s).store.ledger first l = some (entryText phase fingerprint) ∧
            (phase = .pending → (C.acceptMany w events s).ending = .raised) := by
  cases hall : C.prepareAll w events with
  | none =>
    have hbatch : C.acceptMany w events s = { store := s, ending := .raised } := by
      unfold acceptMany
      rw [hall]
    rw [hbatch]
    exact ⟨hC.steady, fun l => Or.inl rfl⟩
  | some ps =>
    obtain ⟨named, hlength, rfl⟩ := exists_prepared hC.reservation hall
    have hsha := digestsDiffer_of_apart hC.reservation hC.apart hall
    have hcalls := calls_callsOf hC.alongside hC.reservation hall
    have hcall : ∀ u ∈ (C.deduplicated w named).unique, ∃ c ∈ C.callsOf ws events,
        ∃ p : Prepared, c.prepared = some p ∧ c.location = some (C.locate u.eventId) := by
      intro u hu
      obtain ⟨c, hc, -⟩ := hcalls.call u (leads_iff.mp hu).mem
      unfold SerialCall.placed at hc
      rw [List.getElem?_map] at hc
      obtain ⟨d, hd, heq⟩ := Option.map_eq_some_iff.mp hc
      obtain ⟨hlocation, rfl⟩ := Prod.mk.inj heq
      obtain ⟨p, hp, -⟩ := Option.map_eq_some_iff.mp hlocation
      exact ⟨d, List.mem_of_getElem? hd, p, hp, hlocation⟩
    by_cases hpublishes : ∃ c messages, C.Publishes w named s c messages
    · obtain ⟨c, messages, h⟩ := hpublishes
      obtain ⟨hsettled, hledger⟩ :=
        ledger_settled hC.within hC.outlasts hC.steady hsha hC.answering hC.reservation h
      rw [acceptMany_of_publishes hall hlength h]
      refine ⟨hsettled, fun l => ?_⟩
      by_cases hl : l ∈ (C.deduplicated w named).unique.map fun u => C.locate u.eventId
      · obtain ⟨u, hu, rfl⟩ := List.mem_map.mp hl
        have hown := (hledger _).1 u hu rfl
        cases hentry : s.ledger first (C.locate u.eventId) with
        | some value =>
          rw [hentry] at hown
          obtain ⟨result, -, haccept⟩ := acceptEntry_some (C := C) (w := w) (p := u) value
          exact Or.inl (hown.trans (by rw [haccept]))
        | none =>
          right
          rw [hentry] at hown
          obtain ⟨sent, hsent⟩ := Option.isSome_iff_exists.mp
            (sent_of_leads hC.within hC.steady hsha hC.reservation h (leads_iff.mp hu) hentry)
          rw [acceptEntry_none, hsent] at hown
          exact ⟨rfl, hcall u hu, _, _, hown, fun hphase => absurd hphase settledPhase_ne_pending⟩
      · exact Or.inl ((hledger l).2 hl)
    · obtain ⟨hclaimed, hledger⟩ := ledger_batchClaims hC.within hC.outlasts hC.steady hsha
      rw [acceptMany_of_not_publishes hall hpublishes]
      refine ⟨hclaimed, fun l => ?_⟩
      by_cases hl : l ∈ (C.deduplicated w named).unique.map fun u => C.locate u.eventId
      · obtain ⟨u, hu, rfl⟩ := List.mem_map.mp hl
        have hown := (hledger _).1 u hu rfl
        cases hentry : s.ledger first (C.locate u.eventId) with
        | some value =>
          rw [hentry] at hown
          exact Or.inl hown
        | none =>
          rw [hentry] at hown
          exact Or.inr ⟨rfl, hcall u hu, _, _, hown, fun _ => rfl⟩
      · exact Or.inl ((hledger l).2 hl)

/-- Where the positions are told the same, the shape is kept, or an entry has been left out that the
single calls leave pending. -/
theorem shapeOnly_of_statuses
    (h : (C.acceptMany w events s).ending.statuses events.length =
      (acceptSerially (C.callsOf ws events) s').endings.map Ending.status) :
    ShapeOnly first last events.length (C.acceptMany w events s)
        (acceptSerially (C.callsOf ws events) s') ∨
      ∃ l fingerprint, (C.acceptMany w events s).store.ledger first l = none ∧
        (acceptSerially (C.callsOf ws events) s').store.ledger first l =
          some (entryText .pending fingerprint) := by
  obtain ⟨-, hentries, -, hendings⟩ := SerialCall.acceptSerially_run
    (answered_callsOf hC.alongside hC.outlasts) hC.steady'
  have hraised : (C.acceptMany w events s).ending = .raised →
      ∀ x ∈ (SerialCall.run (s'.entries first) (C.callsOf ws events)).2, x.2.2 = .raised := by
    intro hending x hx
    rw [hending, hendings, List.map_map] at h
    have hmem := List.mem_map_of_mem (f := Ending.status ∘ fun x => x.2.2) hx
    rw [← h] at hmem
    exact status_eq_none.mp (List.eq_of_mem_replicate hmem)
  cases hall : C.prepareAll w events with
  | none =>
    have hbatch : C.acceptMany w events s = { store := s, ending := .raised } := by
      unfold acceptMany
      rw [hall]
    by_cases hnone : ∀ p ∈ events.zipIdx, C.prepare w p.2 p.1 = none
    · exact Or.inl ((shapeOnly_iff_unprepared hC hall).mpr hnone)
    · right
      push Not at hnone
      obtain ⟨a, ha, hprepare⟩ := hnone
      obtain ⟨p, hp⟩ := Option.ne_none_iff_exists'.mp hprepare
      have hmem : some p ∈ (C.callsOf ws events).map SerialCall.prepared := by
        rw [prepared_callsOf hC.alongside]
        exact List.mem_map.mpr ⟨a, ha, hp⟩
      obtain ⟨c, hc, hcp⟩ := List.mem_map.mp hmem
      obtain ⟨hfree, fingerprint, hpending⟩ :=
        SerialCall.free_of_raised (hraised (by rw [hbatch])) hc hcp
      have hlocation : c.location = some (c.custody.locate p.eventId) := by
        unfold SerialCall.location
        rw [hcp]
        rfl
      rw [hlocation] at hfree hpending
      refine ⟨c.custody.locate p.eventId, fingerprint, ?_, ?_⟩
      · rw [hbatch]
        exact (congrFun hC.same _).symm.trans hfree
      · exact (congrFun hentries _).trans hpending
  | some ps =>
    left
    obtain ⟨named, hlength, rfl⟩ := exists_prepared hC.reservation hall
    have hsha := digestsDiffer_of_apart hC.reservation hC.apart hall
    by_cases hpublishes : ∃ c messages, C.Publishes w named s c messages
    · obtain ⟨c, messages, hpublish⟩ := hpublishes
      rw [shapeOnly_iff_alike hC hall hsha hlength hpublish]
      rw [acceptMany_of_publishes hall hlength hpublish, hendings, List.map_map, ← hlength] at h
      refine (statuses_iff hC.within hC.steady hsha hC.reservation
        (calls_callsOf hC.alongside hC.reservation hall) hpublish hC.answering
        (length_callsOf.trans hlength.symm)).mp ?_
      rw [← hC.same]
      exact h
    · rw [shapeOnly_iff_allRaise hC hall hsha hpublishes]
      refine allRaise_of_raised hC hall hsha (hraised ?_)
      rw [acceptMany_of_not_publishes hall hpublishes]

end Comparable

end TokenEventCustody

/-! ### Single calls -/

theorem length_endings {calls : List SerialCall} {s : IdentityStore} :
    (acceptSerially calls s).endings.length = calls.length := by
  induction calls generalizing s with
  | nil => rfl
  | cons c calls ih =>
    unfold acceptSerially
    simp only [List.length_cons, ih]

private theorem acceptSerially_append {calls calls' : List SerialCall} {s : IdentityStore} :
    acceptSerially (calls ++ calls') s =
      { store := (acceptSerially calls' (acceptSerially calls s).store).store
        produced := (acceptSerially calls s).produced ++
          (acceptSerially calls' (acceptSerially calls s).store).produced
        endings := (acceptSerially calls s).endings ++
          (acceptSerially calls' (acceptSerially calls s).store).endings } := by
  induction calls generalizing s with
  | nil => rfl
  | cons c calls ih =>
    simp only [List.cons_append, acceptSerially]
    rw [ih]
    simp only [List.append_assoc]

namespace Batcher
variable {κ : Type*} [DecidableEq κ] {S : Setting κ} {first last : ℤ}
  {requests turns : List (Request Dict κ)} {groups : List (κ × List (Request Dict κ))}
  {group : List (Request Dict κ)} {k : κ} {s s' : IdentityStore}

theorem inTurn_append : inTurn S requests (group ++ turns) s =
    { store := (inTurn S requests turns (inTurn S requests group s).store).store
      produced := (inTurn S requests group s).produced ++
        (inTurn S requests turns (inTurn S requests group s).store).produced
      told := (inTurn S requests group s).told ++
        (inTurn S requests turns (inTurn S requests group s).store).told } := by
  unfold inTurn
  rw [List.map_append, acceptSerially_append]
  dsimp only
  rw [List.map_append, List.zip_append]
  rw [List.length_map, length_endings, List.length_map]

omit [DecidableEq κ] in
theorem statuses_answers (S : Setting κ) (k : κ) (group : List (Request Dict κ)) (s : IdentityStore) :
    (({ context := k, group
        outcome := ((S.custody k).acceptMany (S.batch k) (group.map Request.event) s).ending.outcome } :
          Call Dict κ Result Unit).answers.map Answer.status) =
      ((S.custody k).acceptMany (S.batch k) (group.map Request.event) s).ending.statuses
        (group.map Request.event).length := by
  cases hending : ((S.custody k).acceptMany (S.batch k) (group.map Request.event) s).ending with
  | returned results =>
    have hlength := TokenEventCustody.length_acceptMany hending
    rw [List.length_map] at hlength
    unfold BatchEnding.outcome Call.answers
    dsimp only
    rw [if_pos hlength, List.map_map]
    rfl
  | raised => simp [BatchEnding.outcome, Call.answers, BatchEnding.statuses, Answer.status]
  | unresolved => simp [BatchEnding.outcome, Call.answers, BatchEnding.statuses, Answer.status]

omit [DecidableEq κ] in
theorem flushGroups_cons : flushGroups S ((k, group) :: groups) s =
    { store := (flushGroups S groups
        ((S.custody k).acceptMany (S.batch k) (group.map Request.event) s).store).store
      produced := ((S.custody k).acceptMany (S.batch k) (group.map Request.event) s).produced ++
        (flushGroups S groups
          ((S.custody k).acceptMany (S.batch k) (group.map Request.event) s).store).produced
      told := group.zip (((S.custody k).acceptMany (S.batch k) (group.map Request.event)
          s).ending.statuses (group.map Request.event).length) ++
        (flushGroups S groups
          ((S.custody k).acceptMany (S.batch k) (group.map Request.event) s).store).told } := by
  rw [← statuses_answers]
  rfl

/-- The first group of a flush, and those after it. -/
theorem told_cons_iff : (flushGroups S ((k, group) :: groups) s).told =
      (inTurn S requests (((k, group) :: groups).flatMap Prod.snd) s').told ↔
    ((S.custody k).acceptMany (S.batch k) (group.map Request.event) s).ending.statuses
          (group.map Request.event).length =
        (acceptSerially (group.map (S.callOf requests)) s').endings.map Ending.status ∧
      (flushGroups S groups
          ((S.custody k).acceptMany (S.batch k) (group.map Request.event) s).store).told =
        (inTurn S requests (groups.flatMap Prod.snd) (inTurn S requests group s').store).told := by
  have hbatch : (((S.custody k).acceptMany (S.batch k) (group.map Request.event)
      s).ending.statuses (group.map Request.event).length).length = group.length := by
    rw [← statuses_answers, List.length_map, length_answers]
  have hserial : ((acceptSerially (group.map (S.callOf requests)) s').endings.map
      Ending.status).length = group.length := by
    rw [List.length_map, length_endings, List.length_map]
  rw [flushGroups_cons, List.flatMap_cons, inTurn_append]
  dsimp only
  constructor
  · intro heq
    obtain ⟨hhead, hrest⟩ := List.append_inj heq (by
      unfold inTurn
      rw [List.length_zip, List.length_zip, hbatch, hserial])
    refine ⟨?_, hrest⟩
    have hsecond := congrArg (List.map Prod.snd) hhead
    unfold inTurn at hsecond
    rw [List.map_snd_zip hbatch.le, List.map_snd_zip hserial.le] at hsecond
    exact hsecond
  · rintro ⟨hhead, hrest⟩
    rw [hhead, hrest]
    rfl

section Sound
variable (hS : S.Sound first last requests)
include hS

theorem comparable (hgroup : (k, group) ∈ groupByContext requests) (h : s.Steady first last)
    (h' : s'.Steady first last) (hsame : s'.entries first = s.entries first) :
    (S.custody k).Comparable (S.batch k) (S.single k) first last (group.map Request.event) s s' := by
  have hfilter : group = requests.filter fun r => r.context = k := group_eq_filter hgroup
  exact ⟨hS.answering k, hS.within k, hS.alongside k, hS.outlasts k, h, h', hsame,
    hS.reservation k, hfilter ▸ hS.apart k⟩

theorem steady_flushGroups (hgroups : ∀ g ∈ groups, g ∈ groupByContext requests)
    (h : s.Steady first last) : (flushGroups S groups s).store.Steady first last := by
  induction groups generalizing s with
  | nil => exact h
  | cons g groups ih =>
    obtain ⟨k, group⟩ := g
    obtain ⟨hgroup, hrest⟩ := List.forall_mem_cons.mp hgroups
    exact ih hrest (TokenEventCustody.ledger_acceptMany (comparable hS hgroup h h rfl)).1

theorem steady_inTurn (h : s.Steady first last) :
    (inTurn S requests turns s).store.Steady first last :=
  (SerialCall.acceptSerially_run (answered_calls hS turns) h).1

private theorem entries_inTurn (h : s.Steady first last) :
    (inTurn S requests turns s).store.entries first =
      (SerialCall.run (s.entries first) (turns.map (S.callOf requests))).1 :=
  (SerialCall.acceptSerially_run (answered_calls hS turns) h).2.1

theorem inTurn_some (h : s.Steady first last) {l : Location} {value : String}
    (hvalue : s.ledger first l = some value) :
    (inTurn S requests turns s).store.ledger first l = some value :=
  (congrFun (entries_inTurn hS h) (some l)).trans (SerialCall.run_some hvalue)

private theorem told_of_some (h : s.Steady first last) {r : Request Dict κ} (hr : r ∈ turns)
    {p : Prepared}
    (hp : (S.callOf requests r).prepared = some p) {l : Location} {value : String}
    (hl : (S.callOf requests r).location = some l) (hvalue : s.ledger first l = some value) :
    ∃ status, (r, some status) ∈ (inTurn S requests turns s).told := by
  obtain ⟨i, hi⟩ := List.mem_iff_getElem?.mp hr
  obtain ⟨-, -, -, hendings⟩ := SerialCall.acceptSerially_run (answered_calls hS turns) h
  have hfixed : ∀ c : SerialCall, (c.act (s.entries first (some l))).1 = s.entries first (some l) := by
    intro c
    rw [show s.entries first (some l) = some value from hvalue, SerialCall.act_some]
  have hplaced : (SerialCall.placed (turns.map (S.callOf requests)))[i]? =
      some (some l, S.callOf requests r) := by
    unfold SerialCall.placed
    rw [List.getElem?_map, List.getElem?_map, hi, ← hl]
    rfl
  have houtcome := (runKeyed_of_fixed (l := SerialCall.placed (turns.map (S.callOf requests)))
    hfixed).2 i (S.callOf requests r) hplaced
  obtain ⟨result, hresult⟩ := SerialCall.act_returns hp value
  rw [show s.entries first (some l) = some value from hvalue, hresult] at houtcome
  refine ⟨result.status, List.mem_iff_getElem?.mpr ⟨i, ?_⟩⟩
  unfold inTurn
  dsimp only
  rw [List.getElem?_zip_eq_some]
  refine ⟨hi, ?_⟩
  rw [hendings, List.getElem?_map, List.getElem?_map]
  unfold SerialCall.run
  rw [houtcome]
  rfl

/-- An entry that single calls have left pending and the flush has not stays different, where the
requests are told the same. -/
private theorem differs_of_lost (hgroups : ∀ g ∈ groups, g ∈ groupByContext requests)
    (h : s.Steady first last) (h' : s'.Steady first last) {l : Location} {fingerprint : String}
    (hserial : s'.ledger first l = some (entryText .pending fingerprint))
    (hbatch : s.ledger first l = none ∨ ∃ phase f, phase ≠ .pending ∧
      s.ledger first l = some (entryText phase f))
    (htold : (flushGroups S groups s).told =
      (inTurn S requests (groups.flatMap Prod.snd) s').told) :
    (flushGroups S groups s).store.ledger first l ≠ some (entryText .pending fingerprint) := by
  induction groups generalizing s s' with
  | nil =>
    rcases hbatch with hnone | ⟨phase, f, hphase, hentry⟩
    · show s.ledger first l ≠ _
      rw [hnone]
      exact (Option.some_ne_none _).symm
    · show s.ledger first l ≠ _
      rw [hentry]
      intro heq
      exact hphase (entryText_inj.mp (Option.some.inj heq)).1
  | cons g groups ih =>
    obtain ⟨k, group⟩ := g
    obtain ⟨hgroup, hrest⟩ := List.forall_mem_cons.mp hgroups
    obtain ⟨hstatuses, htold⟩ := told_cons_iff.mp htold
    obtain ⟨hsteady, hledger⟩ :=
      TokenEventCustody.ledger_acceptMany (comparable hS hgroup h h rfl)
    refine ih hrest hsteady (steady_inTurn hS h') (inTurn_some hS h' hserial) ?_ htold
    rcases hledger l with hkept | ⟨-, ⟨c, hc, p, hp, hlocation⟩, phase, f, hafter, hraises⟩
    · rw [hkept]
      exact hbatch
    · refine Or.inr ⟨phase, f, fun hphase => ?_, hafter⟩
      rw [← calls_of_group hS.numbers hgroup] at hc
      obtain ⟨r, hr, rfl⟩ := List.mem_map.mp hc
      obtain ⟨status, hstatus⟩ := told_of_some hS h' hr hp hlocation hserial
      have hmem := (List.of_mem_zip hstatus).2
      rw [← hstatuses, hraises hphase] at hmem
      cases List.eq_of_mem_replicate hmem

/-- A flush does what single calls do in the order of its groups where its batches have their
conditions. -/
theorem same_groups_iff (groups : List (κ × List (Request Dict κ)))
    (hgroups : ∀ g ∈ groups, g ∈ groupByContext requests)
    (h : s.Steady first last) (h' : s'.Steady first last)
    (hsame : s'.entries first = s.entries first) :
    (flushGroups S groups s).told = (inTurn S requests (groups.flatMap Prod.snd) s').told ∧
        (flushGroups S groups s).store.entries first =
          (inTurn S requests (groups.flatMap Prod.snd) s').store.entries first ∧
        (flushGroups S groups s).produced.Perm
          (inTurn S requests (groups.flatMap Prod.snd) s').produced ↔
      GroupsKeepShape S first groups s := by
  induction groups generalizing s s' with
  | nil =>
    simp only [GroupsKeepShape, iff_true]
    exact ⟨rfl, hsame.symm, List.Perm.refl _⟩
  | cons g groups ih =>
    obtain ⟨k, group⟩ := g
    obtain ⟨hgroup, hrest⟩ := List.forall_mem_cons.mp hgroups
    have hC := comparable hS hgroup h h' hsame
    have hcalls := calls_of_group (S := S) hS.numbers hgroup
    obtain ⟨hsteady, -⟩ := TokenEventCustody.ledger_acceptMany hC
    have hshape := TokenEventCustody.shapeOnly_iff hC
    have hstatuses := TokenEventCustody.shapeOnly_of_statuses hC
    rw [← hcalls] at hshape hstatuses
    have hsteady' : (inTurn S requests group s').store.Steady first last := steady_inTurn hS h'
    rw [told_cons_iff, flushGroups_cons, List.flatMap_cons, inTurn_append]
    unfold GroupsKeepShape
    dsimp only
    constructor
    · rintro ⟨⟨hhead, htold⟩, hstore, hmessages⟩
      rcases hstatuses hhead with hkeeps | ⟨l, fingerprint, hlost, hpending⟩
      · have hentries := (TokenEventCustody.entries_eq_iff hC.outlasts.ordered hsteady hsteady').mp
          hkeeps.store
        refine ⟨hshape.mp hkeeps, (ih hrest hsteady hsteady' hentries.symm).mp
          ⟨htold, hstore, ?_⟩⟩
        exact (List.perm_append_left_iff _).mp
          ((hkeeps.messages.symm.append_right _).trans hmessages)
      · exfalso
        refine differs_of_lost hS hrest hsteady hsteady' hpending (Or.inl hlost) htold ?_
        exact (congrFun hstore (some l)).trans (inTurn_some hS hsteady' hpending)
    · rintro ⟨hkeeps, hgroupsKeep⟩
      have hkeeps := hshape.mpr hkeeps
      have hentries := (TokenEventCustody.entries_eq_iff hC.outlasts.ordered hsteady hsteady').mp
        hkeeps.store
      obtain ⟨htold, hstore, hmessages⟩ := (ih hrest hsteady hsteady' hentries.symm).mpr hgroupsKeep
      exact ⟨⟨hkeeps.statuses, htold⟩, hstore, hkeeps.messages.append hmessages⟩

end Sound

end Batcher

end FluxMeter.Custody
