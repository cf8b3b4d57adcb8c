import FluxMeter.Custody.FlushShape

/-! The order in which a flush takes the requests of several contexts. Trace ids tell whose message was
sent, so that a request which overtakes the first under a free entry is seen. -/
namespace FluxMeter.Custody
open Collections FluxMeter.Wire Transition

namespace TokenEventCustody
open IdentityContext IdentityStore
variable {C : TokenEventCustody} {w : Surroundings} {ws : ℕ → Surroundings} {s s' : IdentityStore}
  {first last : ℤ} {events : List Dict}

/-! ### Trace ids -/

/-- The receipt of a message has the trace id of its event. -/
theorem receipt_of_sent {p : Prepared} {o : Owned} {m : Message} (h : C.sent w p = some (o, m)) :
    m.envelope.get "receipt" = some (.obj [("receivedAt", .num (w.receivedClock p.index)),
      ("traceId", .str (w.traceId p.index))]) := by
  obtain ⟨o', ho, hmessage⟩ := Option.bind_eq_some_iff.mp h
  obtain ⟨m', hm, heq⟩ := Option.map_eq_some_iff.mp hmessage
  obtain ⟨rfl, rfl⟩ := Prod.mk.inj heq
  unfold messageOf at hm
  obtain ⟨customerId, -, rfl⟩ := Option.map_eq_some_iff.mp hm
  unfold own at ho
  obtain ⟨timestamp, -, ho⟩ := Option.bind_eq_some_iff.mp ho
  obtain ⟨envelope, henvelope, ho⟩ := Option.bind_eq_some_iff.mp ho
  have hreceipt : envelope.get "receipt" = some (.obj
      [("receivedAt", .num (w.receivedClock p.index)), ("traceId", .str (w.traceId p.index))]) := by
    unfold trustedEnvelope at henvelope
    obtain ⟨customer, -, rfl⟩ := Option.map_eq_some_iff.mp henvelope
    simp [Dict.get_cons]
  rw [← Option.some.inj ho]
  dsimp only
  split_ifs
  · rw [Dict.get_set, if_neg (by decide), hreceipt]
  · exact hreceipt

theorem traceId_of_sent {C' : TokenEventCustody} {w' : Surroundings} {p p' : Prepared} {o o' : Owned}
    {m : Message} (h : C.sent w p = some (o, m)) (h' : C'.sent w' p' = some (o', m)) :
    w.traceId p.index = w'.traceId p'.index := by
  have heq := (receipt_of_sent h).symm.trans (receipt_of_sent h')
  simp only [Option.some.injEq, Json.obj.injEq, List.cons.injEq, Prod.mk.injEq, Json.str.injEq] at heq
  exact heq.2.1.2

theorem sent_of_status (hC : C.Comparable w ws first last events s s') {i : ℕ} {c : SerialCall}
    {l : Location} {status : Status} (hc : (C.callsOf ws events)[i]? = some c)
    (hl : c.location = some l) (hfree : s.ledger first l = none)
    (hfirst : ∀ j < i, ∀ d, (C.callsOf ws events)[j]? = some d → d.location ≠ some l)
    (hstatus : ((C.acceptMany w events s).ending.statuses events.length)[i]? =
      some (some status)) :
    ∃ p : Prepared, p.index = i ∧ ∃ o m, C.sent w p = some (o, m) ∧
      m ∈ (C.acceptMany w events s).produced := by
  have hnotRaised : (C.acceptMany w events s).ending ≠ .raised := by
    intro hending
    rw [hending] at hstatus
    cases List.eq_of_mem_replicate (List.mem_of_getElem? hstatus)
  cases hall : C.prepareAll w events with
  | none =>
    refine absurd ?_ hnotRaised
    unfold acceptMany
    rw [hall]
  | some ps =>
    obtain ⟨named, hlength, rfl⟩ := exists_prepared hC.reservation hall
    have hsha := digestsDiffer_of_apart hC.reservation hC.apart hall
    have hcalls := calls_callsOf hC.alongside hC.reservation hall
    by_cases hpublishes : ∃ c messages, C.Publishes w named s c messages
    · obtain ⟨claimed, messages, h⟩ := hpublishes
      have hplaced : ∀ (j : ℕ) d, (C.callsOf ws events)[j]? = some d →
          (SerialCall.placed (C.callsOf ws events))[j]? = some (d.location, d) := by
        intro j d hd
        unfold SerialCall.placed
        rw [List.getElem?_map, hd]
        rfl
      obtain ⟨p, hp, rfl, hlocation⟩ := hcalls.event i _ (hplaced i c hc)
      obtain rfl := Option.some.inj (hl.symm.trans hlocation)
      have hleads : p.Leads (C.prepared w named) := by
        refine ⟨hp, fun q hq hid => ?_⟩
        by_contra hlt
        obtain ⟨d, hd, -⟩ := hcalls.call q hq
        unfold SerialCall.placed at hd
        rw [List.getElem?_map] at hd
        obtain ⟨e, he, heq⟩ := Option.map_eq_some_iff.mp hd
        refine hfirst q.index (by omega) e he ?_
        rw [← hid]
        exact congrArg Prod.fst heq
      obtain ⟨⟨o, m⟩, hsent⟩ := Option.isSome_iff_exists.mp
        (sent_of_leads hC.within hC.steady hsha hC.reservation h hleads hfree)
      refine ⟨p, rfl, o, m, hsent, ?_⟩
      rw [acceptMany_of_publishes hall hlength h]
      dsimp only
      rw [hC.answering.produced, messages_filterMap h hsha hC.reservation hC.steady hC.within]
      refine List.mem_filterMap.mpr ⟨p, leads_iff.mpr hleads, ?_⟩
      rw [hfree, acceptEntry_none, hsent]
    · refine absurd ?_ hnotRaised
      rw [acceptMany_of_not_publishes hall hpublishes]

end TokenEventCustody

namespace SerialCall

theorem act_unprepared {c : SerialCall} (h : c.location = none) (entry : Option String) :
    c.act entry = (entry, none, .raised) := by
  have hprepared : c.prepared = none := Option.map_eq_none_iff.mp h
  unfold act
  rw [hprepared]

theorem prepared_of_location {c : SerialCall} {l : Location} (h : c.location = some l) :
    ∃ p, c.prepared = some p :=
  let ⟨p, hp, _⟩ := Option.map_eq_some_iff.mp h
  ⟨p, hp⟩

theorem act_isSome {c : SerialCall} {l : Location} (h : c.location = some l) (entry : Option String) :
    ∃ value, (c.act entry).1 = some value := by
  obtain ⟨p, hp⟩ := prepared_of_location h
  unfold act
  rw [hp]
  exact TokenEventCustody.acceptEntry_isSome p entry

theorem act_decided {c d : SerialCall} (h : c.location = d.location) (entry : Option String) :
    (d.act (c.act entry).1).1 = (c.act entry).1 := by
  cases hlocation : c.location with
  | none => rw [act_unprepared (h.symm.trans hlocation)]
  | some l =>
    obtain ⟨value, hvalue⟩ := act_isSome hlocation entry
    rw [hvalue, act_some]

end SerialCall

namespace Batcher
variable {κ : Type*} [DecidableEq κ] {S : Setting κ} {first last : ℤ}
  {requests turns turns' : List (Request Dict κ)} {groups : List (κ × List (Request Dict κ))}
  {s : IdentityStore}

/-! ### The order of single calls -/

/-- The call of a request on its entry, with its name. -/
def Setting.act (S : Setting κ) (requests : List (Request Dict κ)) (r : Request Dict κ)
    (entry : Option String) :
    Option String × (Request Dict κ × (Option Message × Ending Result)) :=
  (((S.callOf requests r).act entry).1, (r, ((S.callOf requests r).act entry).2))

def Setting.located (S : Setting κ) (requests turns : List (Request Dict κ)) :
    List (Option Location × Request Dict κ) :=
  turns.map fun r => ((S.callOf requests r).location, r)

theorem run_located (f : Option Location → Option String) :
    SerialCall.run f (turns.map (S.callOf requests)) =
      ((runKeyed (S.act requests) f (S.located requests turns)).1,
        (runKeyed (S.act requests) f (S.located requests turns)).2.map
          fun x => (x.1, x.2.2)) := by
  have hplaced : SerialCall.placed (turns.map (S.callOf requests)) =
      (S.located requests turns).map fun p => (p.1, S.callOf requests p.2) := by
    unfold SerialCall.placed Setting.located
    rw [List.map_map, List.map_map]
    rfl
  unfold SerialCall.run
  rw [hplaced]
  exact runKeyed_map fun r entry => rfl

theorem names_located (requests turns : List (Request Dict κ))
    (f : Option Location → Option String) :
    (runKeyed (S.act requests) f (S.located requests turns)).2.map (fun x => x.2.1) = turns := by
  induction turns generalizing f with
  | nil => rfl
  | cons r turns ih =>
    unfold Setting.located at ih ⊢
    simp only [List.map_cons, runKeyed]
    rw [ih]
    rfl

section Sound
variable (hS : S.Sound first last requests) (h : s.Steady first last)
include hS h

theorem inTurn_located (turns : List (Request Dict κ)) :
    (inTurn S requests turns s).store.entries first =
        (runKeyed (S.act requests) (s.entries first) (S.located requests turns)).1 ∧
      (inTurn S requests turns s).produced =
        (runKeyed (S.act requests) (s.entries first) (S.located requests turns)).2.flatMap
          (fun x => x.2.2.1.toList) ∧
      (inTurn S requests turns s).told =
        (runKeyed (S.act requests) (s.entries first) (S.located requests turns)).2.map
          fun x => (x.2.1, x.2.2.2.status) := by
  obtain ⟨-, hentries, hproduced, hendings⟩ :=
    SerialCall.acceptSerially_run (answered_calls hS turns) h
  rw [run_located] at hentries hproduced hendings
  refine ⟨hentries, ?_, ?_⟩
  · unfold inTurn
    dsimp only
    rw [hproduced, List.flatMap_map]
  · have hnames := names_located (S := S) requests turns (s.entries first)
    unfold inTurn
    dsimp only
    rw [hendings, List.map_map, List.map_map]
    generalize (runKeyed (S.act requests) (s.entries first) (S.located requests turns)).2 = outcomes
      at hnames ⊢
    rw [← hnames, List.zip_map']
    rfl

/-- Single calls in two orders, of which every free entry has the same first request. -/
theorem inTurn_perm (hperm : turns.Perm turns')
    (hfirst : ∀ l, s.ledger first l = none →
      (turns.find? fun r => (S.callOf requests r).location = some l) =
        turns'.find? fun r => (S.callOf requests r).location = some l) :
    (inTurn S requests turns s).store.entries first =
        (inTurn S requests turns' s).store.entries first ∧
      (inTurn S requests turns s).produced.Perm (inTurn S requests turns' s).produced ∧
      (inTurn S requests turns s).told.Perm (inTurn S requests turns' s).told := by
  have hlocated : ∀ p ∈ S.located requests turns, p.1 = (S.callOf requests p.2).location := by
    intro p hp
    obtain ⟨r, -, rfl⟩ := List.mem_map.mp hp
    rfl
  have hpermuted : (S.located requests turns).Perm (S.located requests turns') := hperm.map _
  obtain ⟨hstate, houtcomes⟩ := runKeyed_perm (S.act requests) (s.entries first) hpermuted
    (fun p hp q hq heq => SerialCall.act_decided
      ((hlocated p hp).symm.trans (heq.trans (hlocated q hq))) _)
    (by
      intro k
      cases hentry : s.entries first k with
      | some value => exact Or.inl fun p hp hk => SerialCall.act_some _ value
      | none =>
        cases k with
        | none =>
          left
          intro p hp hk
          unfold Setting.act
          rw [SerialCall.act_unprepared ((hlocated p hp).symm.trans hk)]
        | some l =>
          right
          unfold Setting.located
          rw [List.find?_map, List.find?_map]
          exact congrArg _ (hfirst l hentry))
  obtain ⟨hentries, hproduced, htold⟩ := inTurn_located hS h turns
  obtain ⟨hentries', hproduced', htold'⟩ := inTurn_located hS h turns'
  refine ⟨?_, ?_, ?_⟩
  · rw [hentries, hentries', hstate]
  · rw [hproduced, hproduced']
    exact houtcomes.flatMap_right _
  · rw [htold, htold']
    exact houtcomes.map _

end Sound

/-! ### The names of the answers -/

omit [DecidableEq κ] in
theorem eq_of_perm_of_names {α β : Type*} {f : α → β} {l l' : List α} (hperm : l.Perm l')
    (hnames : l.map f = l'.map f) (hnodup : (l.map f).Nodup) : l = l' := by
  apply List.ext_getElem?
  intro i
  have hat : (l[i]?).map f = (l'[i]?).map f := by
    rw [← List.getElem?_map, hnames, List.getElem?_map]
  cases ha : l[i]? with
  | none =>
    rw [ha] at hat
    exact (Option.map_eq_none_iff.mp hat.symm).symm
  | some a =>
    rw [ha] at hat
    obtain ⟨b, hb, hname⟩ := Option.map_eq_some_iff.mp hat.symm
    rw [hb, List.inj_on_of_nodup_map hnodup (List.mem_of_getElem? ha)
      (hperm.mem_iff.mpr (List.mem_of_getElem? hb)) hname.symm]

omit [DecidableEq κ] in
theorem names_flushGroups : (flushGroups S groups s).told.map Prod.fst = groups.flatMap Prod.snd := by
  induction groups generalizing s with
  | nil => rfl
  | cons g groups ih =>
    obtain ⟨k, group⟩ := g
    rw [flushGroups_cons, List.map_append, ih, List.flatMap_cons, List.map_fst_zip]
    rw [← statuses_answers, List.length_map, length_answers]

theorem names_inTurn : (inTurn S requests turns s).told.map Prod.fst = turns := by
  unfold inTurn
  dsimp only
  rw [List.map_fst_zip]
  rw [List.length_map, length_endings, List.length_map]

/-! ### A request that overtakes -/

theorem getElem?_place (hnumbers : (requests.map Request.number).Nodup) {r : Request Dict κ}
    (hr : r ∈ requests) :
    (requests.filter fun q => q.context = r.context)[place requests r]? = some r := by
  have hmem : r ∈ requests.filter fun q => q.context = r.context :=
    List.mem_filter.mpr ⟨hr, by simp⟩
  obtain ⟨i, hi⟩ := List.mem_iff_getElem?.mp hmem
  rw [place_of_group hnumbers hi]
  exact hi

theorem eq_of_traceId (hS : S.Sound first last requests) {r r' : Request Dict κ} (hr : r ∈ requests)
    (hr' : r' ∈ requests) (h : (S.batch r.context).traceId (place requests r) =
      (S.batch r'.context).traceId (place requests r')) : r = r' := by
  obtain ⟨hcontext, hplace⟩ := hS.traces _ _ _ _ h
  have hget := getElem?_place hS.numbers hr
  rw [hcontext, hplace, getElem?_place hS.numbers hr'] at hget
  exact (Option.some.inj hget).symm

omit [DecidableEq κ] in
private theorem mem_of_told {r : Request Dict κ} {status : Option Status}
    (h : (r, status) ∈ (flushGroups S groups s).told) : r ∈ groups.flatMap Prod.snd := by
  induction groups generalizing s with
  | nil => cases h
  | cons g groups ih =>
    obtain ⟨k, group⟩ := g
    rw [flushGroups_cons] at h
    rw [List.flatMap_cons, List.mem_append]
    rcases List.mem_append.mp h with hhead | hrest
    · exact Or.inl (List.of_mem_zip hhead).1
    · exact Or.inr (ih hrest)

section Sound
variable (hS : S.Sound first last requests) {l : Location}
include hS

omit hS in
/-- A request whose entry another has reached first comes back from its single call without a
message. -/
theorem returned_of_overtaken {u v : Request Dict κ} {f : Option Location → Option String}
    (hu : (requests.find? fun r => (S.callOf requests r).location = some l) = some u)
    (hv : v ∈ requests) (hl : (S.callOf requests v).location = some l) (hne : v ≠ u) :
    ∃ result, (some l, v, none, Ending.returned result) ∈
      (runKeyed (S.act requests) f (S.located requests requests)).2 := by
  obtain ⟨hul, i, hi, rfl, hbefore⟩ := List.find?_eq_some_iff_getElem.mp hu
  have hul : (S.callOf requests requests[i]).location = some l := by simpa using hul
  obtain ⟨j, hj, rfl⟩ := List.mem_iff_getElem.mp hv
  have hlocated : ∀ (m : ℕ) (hm : m < requests.length),
      (S.located requests requests)[m]? =
        some ((S.callOf requests requests[m]).location, requests[m]) := by
    intro m hm
    unfold Setting.located
    rw [List.getElem?_map, List.getElem?_eq_getElem hm]
    rfl
  have hlt : i < j := by
    rcases Nat.lt_trichotomy i j with hlt | rfl | hgt
    · exact hlt
    · exact absurd rfl hne
    · have hnot := hbefore j hgt
      simp [hl] at hnot
  obtain ⟨value, hvalue⟩ := SerialCall.act_isSome hul (f (some l))
  have hfirst : ∀ m < i, ∀ x, (S.located requests requests)[m]? = some x → x.1 ≠ some l := by
    intro m hm x hx
    rw [hlocated m (by omega)] at hx
    rw [← Option.some.inj hx]
    simpa using hbefore m hm
  have hdecided : ∀ r, (S.act requests r (S.act requests requests[i] (f (some l))).1).1 =
      (S.act requests requests[i] (f (some l))).1 := by
    intro r
    unfold Setting.act
    dsimp only
    rw [hvalue, SerialCall.act_some]
  obtain ⟨-, -, hlater⟩ := runKeyed_of_decided (S.act requests) f
    (by rw [hlocated i hi, hul]) hfirst hdecided
  have hat := hlater j requests[j] hlt (by rw [hlocated j hj, hl])
  obtain ⟨p, hp⟩ := SerialCall.prepared_of_location hl
  obtain ⟨result, hresult⟩ := SerialCall.act_returns hp value
  refine ⟨result, List.mem_of_getElem? (hat.trans ?_)⟩
  unfold Setting.act
  dsimp only
  rw [hvalue, hresult]

private theorem sent_of_told (hgroups : ∀ g ∈ groups, g ∈ groupByContext requests)
    (hnodup : (groups.flatMap Prod.snd).Nodup) (h : s.Steady first last)
    (hfree : s.ledger first l = none) {v : Request Dict κ} {status : Status}
    (hv : ((groups.flatMap Prod.snd).find? fun r => (S.callOf requests r).location = some l) =
      some v)
    (htold : (v, some status) ∈ (flushGroups S groups s).told) :
    ∃ (p : Prepared) (o : Owned) (m : Message), p.index = place requests v ∧
      (S.custody v.context).sent (S.batch v.context) p = some (o, m) ∧
        m ∈ (flushGroups S groups s).produced := by
  induction groups generalizing s with
  | nil => cases hv
  | cons g groups ih =>
    obtain ⟨k, group⟩ := g
    obtain ⟨hgroup, hrest⟩ := List.forall_mem_cons.mp hgroups
    rw [List.flatMap_cons] at hnodup hv
    obtain ⟨hnodupGroup, hnodupRest, hdisjoint⟩ := List.nodup_append.mp hnodup
    have hC := comparable hS hgroup h h (rfl : s.entries first = s.entries first)
    have hcalls := calls_of_group (S := S) hS.numbers hgroup
    have hfilter : group = requests.filter fun r => r.context = k := group_eq_filter hgroup
    rw [flushGroups_cons] at htold ⊢
    rw [List.find?_append] at hv
    cases hfound : group.find? fun r => (S.callOf requests r).location = some l with
    | some r =>
      rw [hfound] at hv
      obtain rfl := Option.some.inj hv
      obtain ⟨hl, i, hi, hget, hbefore⟩ := List.find?_eq_some_iff_getElem.mp hfound
      have hl : (S.callOf requests r).location = some l := by simpa using hl
      have hmem : r ∈ group := hget ▸ List.getElem_mem hi
      have hcontext : r.context = k := by
        rw [hfilter] at hmem
        simpa using (List.mem_filter.mp hmem).2
      have hat : group[i]? = some r := by rw [List.getElem?_eq_getElem hi, hget]
      have hplace : place requests r = i :=
        place_of_group hS.numbers (by rw [hcontext, ← hfilter]; exact hat)
      have hzip : (r, some status) ∈ group.zip (((S.custody k).acceptMany (S.batch k)
          (group.map Request.event) s).ending.statuses (group.map Request.event).length) := by
        rcases List.mem_append.mp htold with hhead | htail
        · exact hhead
        · exact absurd rfl (hdisjoint r hmem r (mem_of_told htail))
      obtain ⟨j, hj⟩ := List.mem_iff_getElem?.mp hzip
      obtain ⟨hgj, hstatus⟩ := List.getElem?_zip_eq_some.mp hj
      obtain rfl : i = j := (List.getElem?_inj hi hnodupGroup).mp (hat.trans hgj.symm)
      have hcall : ((S.custody k).callsOf (S.single k) (group.map Request.event))[i]? =
          some (S.callOf requests r) := by
        rw [← hcalls, List.getElem?_map, hat]
        rfl
      have hfirst : ∀ m < i, ∀ d,
          ((S.custody k).callsOf (S.single k) (group.map Request.event))[m]? = some d →
            d.location ≠ some l := by
        intro m hm d hd
        rw [← hcalls, List.getElem?_map, List.getElem?_eq_getElem (by omega)] at hd
        rw [← Option.some.inj hd]
        simpa using hbefore m hm
      obtain ⟨p, hp, o, m, hsent, hproduced⟩ :=
        TokenEventCustody.sent_of_status hC hcall hl hfree hfirst hstatus
      subst hcontext
      exact ⟨p, o, m, hp.trans hplace.symm, hsent, List.mem_append_left _ hproduced⟩
    | none =>
      rw [hfound] at hv
      have hnotMem : v ∉ group := by
        intro hmem
        have hnot := List.find?_eq_none.mp hfound v hmem
        have hl := List.find?_some hv
        exact hnot hl
      obtain ⟨hsteady, hledger⟩ := TokenEventCustody.ledger_acceptMany hC
      have hfree' : ((S.custody k).acceptMany (S.batch k) (group.map Request.event)
          s).store.ledger first l = none := by
        rcases hledger l with hkept | ⟨-, ⟨c, hc, -, -, hlocation⟩, -⟩
        · rw [hkept, hfree]
        · rw [← hcalls] at hc
          obtain ⟨r, hr, rfl⟩ := List.mem_map.mp hc
          have hnot := List.find?_eq_none.mp hfound r hr
          simp [hlocation] at hnot
      have htail : (v, some status) ∈ (flushGroups S groups
          ((S.custody k).acceptMany (S.batch k) (group.map Request.event) s).store).told := by
        rcases List.mem_append.mp htold with hhead | htail
        · exact absurd (List.of_mem_zip hhead).1 hnotMem
        · exact htail
      obtain ⟨p, o, m, hp, hsent, hproduced⟩ := ih hrest hnodupRest hsteady hfree' hv htail
      exact ⟨p, o, m, hp, hsent, List.mem_append_right _ hproduced⟩

end Sound

section Sound
variable (hS : S.Sound first last requests) (h : s.Steady first last)
include hS

private theorem traceId_of_message
    {x : Option Location × (Request Dict κ × (Option Message × Ending Result))}
    {m : Message} {f : Option Location → Option String}
    (hx : x ∈ (runKeyed (S.act requests) f (S.located requests turns)).2) (hm : x.2.2.1 = some m) :
    x.2.1 ∈ turns ∧ ∃ (p : Prepared) (o : Owned), p.index = place requests x.2.1 ∧
      (S.custody x.2.1.context).sent (S.batch x.2.1.context) p = some (o, m) := by
  obtain ⟨y, hy, entry, rfl⟩ := exists_of_mem_runKeyed hx
  obtain ⟨r, hr, rfl⟩ := List.mem_map.mp hy
  refine ⟨hr, ?_⟩
  change ((S.callOf requests r).act entry).2.1 = some m at hm
  cases hp : (S.callOf requests r).prepared with
  | none =>
    unfold SerialCall.act at hm
    rw [hp] at hm
    cases hm
  | some p =>
    have hindex : p.index = place requests r := by
      obtain ⟨q, -, rfl⟩ := Option.map_eq_some_iff.mp hp
      rfl
    unfold SerialCall.act at hm
    rw [hp] at hm
    have hbeside := (hS.alongside r.context).beside p.index
    have hsurroundings : (S.callOf requests r).surroundings = S.single r.context p.index := by
      rw [hindex]
      rfl
    dsimp only at hm
    rw [hsurroundings] at hm
    change ((S.custody r.context).acceptEntry (S.single r.context p.index) p entry).2.1 = some m at hm
    rw [TokenEventCustody.acceptEntry_beside hbeside] at hm
    cases entry with
    | some value =>
      rw [TokenEventCustody.message_of_some (Option.some_ne_none value)] at hm
      cases hm
    | none =>
      rw [TokenEventCustody.acceptEntry_none] at hm
      cases hsent : (S.custody r.context).sent (S.batch r.context) p with
      | none =>
        rw [hsent] at hm
        cases hm
      | some sent =>
        rw [hsent] at hm
        obtain rfl := Option.some.inj hm
        exact ⟨p, sent.1, hindex, hsent⟩

include h

/-- No request overtakes the first under a free entry where the requests are told the same and leave
the same messages. -/
private theorem inOrder_of_same
    (hsame : (flush S requests s).Same first last (inTurn S requests requests s)) :
    InOrder S (s.ledger first) requests := by
  intro l hfree
  have hperm : ((groupByContext requests).flatMap Prod.snd).Perm requests := groupsOf_perm _
  have hnodup : requests.Nodup := hS.numbers.of_map _
  cases hv : ((groupByContext requests).flatMap Prod.snd).find?
      fun r => (S.callOf requests r).location = some l with
  | none =>
    rw [List.find?_eq_none] at hv ⊢
    exact fun r hr => hv r (hperm.mem_iff.mpr hr)
  | some v =>
    have hmem := hperm.mem_iff.mp (List.mem_of_find?_eq_some hv)
    have hl : (S.callOf requests v).location = some l := by simpa using List.find?_some hv
    cases hu : requests.find? fun r => (S.callOf requests r).location = some l with
    | none => simpa [hl] using List.find?_eq_none.mp hu v hmem
    | some u =>
      by_contra hne
      have hne : v ≠ u := fun heq => hne (congrArg some heq.symm)
      obtain ⟨result, hreturned⟩ :=
        returned_of_overtaken (f := s.entries first) hu hmem hl hne
      obtain ⟨-, hproduced, htold⟩ := inTurn_located hS h requests
      have htoldV : (v, some result.status) ∈ (inTurn S requests requests s).told := by
        rw [htold]
        exact List.mem_map.mpr ⟨_, hreturned, rfl⟩
      obtain ⟨p, o, m, hp, hsent, hm⟩ := sent_of_told hS (fun g hg => hg)
        (hperm.nodup_iff.mpr hnodup) h hfree hv (hsame.told.mem_iff.mpr htoldV)
      have hserial := hsame.messages.mem_iff.mp hm
      rw [hproduced] at hserial
      obtain ⟨x, hx, hxm⟩ := List.mem_flatMap.mp hserial
      obtain ⟨hr, p', o', hp', hsent'⟩ := traceId_of_message hS hx (Option.mem_toList.mp hxm)
      have htrace := TokenEventCustody.traceId_of_sent hsent hsent'
      rw [hp, hp'] at htrace
      have hname := eq_of_traceId hS hmem hr htrace
      have hnames := names_located (S := S) requests requests
        (s.entries first)
      have hx' := List.inj_on_of_nodup_map (hnames ▸ hnodup) hreturned hx hname
      rw [← hx'] at hxm
      cases hxm

/-- A flush gives every request what `accept` gives it in the queue order, with the same entries and
messages, exactly where no request overtakes the first under a free entry and every batch meets its
condition in the store that it finds. -/
theorem flush_same_iff :
    (flush S requests s).Same first last (inTurn S requests requests s) ↔
      InOrder S (s.ledger first) requests ∧
        GroupsKeepShape S first (groupByContext requests) s := by
  have hperm : requests.Perm ((groupByContext requests).flatMap Prod.snd) := (groupsOf_perm _).symm
  have hnodup : ((groupByContext requests).flatMap Prod.snd).Nodup :=
    hperm.nodup_iff.mp (hS.numbers.of_map _)
  have hgroups := same_groups_iff hS (groupByContext requests) (fun g hg => hg) h h rfl
  have hsteady : (inTurn S requests requests s).store.Steady first last := steady_inTurn hS h
  have hstore := TokenEventCustody.entries_eq_iff hS.ordered
    (steady_flushGroups hS (fun g hg => hg) h)
    hsteady
  constructor
  · intro hsame
    have hordered := inOrder_of_same hS h hsame
    obtain ⟨hentries, hmessages, htold⟩ := inTurn_perm hS h hperm hordered
    refine ⟨hordered, hgroups.mp ⟨?_, (hstore.mp hsame.store).trans hentries,
      hsame.messages.trans hmessages⟩⟩
    refine eq_of_perm_of_names (f := Prod.fst) (hsame.told.trans htold) ?_ ?_
    · rw [names_inTurn]
      exact names_flushGroups
    · show ((flushGroups S (groupByContext requests) s).told.map Prod.fst).Nodup
      rw [names_flushGroups]
      exact hnodup
  · rintro ⟨hordered, hkeeps⟩
    obtain ⟨hentries, hmessages, htold⟩ := inTurn_perm hS h hperm hordered
    obtain ⟨htold', hentries', hmessages'⟩ := hgroups.mpr hkeeps
    refine ⟨?_, hstore.mpr (hentries'.trans hentries.symm), hmessages'.trans hmessages.symm⟩
    show (flushGroups S (groupByContext requests) s).told.Perm _
    rw [htold']
    exact htold.symm

end Sound

end Batcher

/-! ### An event and its copy under two keys of a tenant -/

/-- Surroundings that give trace ids of one letter. -/
def Surroundings.traced (letter : Char) (seconds : ℤ) : Surroundings :=
  { Surroundings.still seconds with
    traceId := fun i => String.ofList (List.replicate (i + 1) letter) }

/-- The two keys, with the surroundings of their calls. -/
def twinSetting : Batcher.Setting Bool where
  custody k := { twinCustody with apiKeyId := some (if k then "k1" else "k2") }
  batch k := .traced (if k then 'a' else 'b') 1700000000
  single k _ := .traced (if k then 'a' else 'b') 1700000000

def twinRequests : List (Batcher.Request Dict Bool) :=
  [{ number := 0, context := true, event := twin }, { number := 1, context := false, event := twin }]

theorem traced_answering (letter : Char) (seconds : ℤ) :
    (Surroundings.traced letter seconds).Answering :=
  ⟨outcomes_ofAcks, produced_ofAcks, fun _ => rfl, rfl⟩

theorem traced_within (letter : Char) (seconds : ℤ) :
    (Surroundings.traced letter seconds).Within seconds seconds :=
  ⟨⟨le_rfl, le_rfl⟩, fun _ => le_rfl, le_rfl⟩

private theorem sound_twins : twinSetting.Sound 1700000000 1700000000 twinRequests where
  ordered := le_rfl
  answering _ := traced_answering _ _
  within _ := traced_within _ _
  alongside _ := ⟨fun _ => ⟨rfl, rfl, rfl⟩, fun _ => traced_answering _ _, fun _ => traced_within _ _⟩
  outlasts _ := outlasts_defaults _
  reservation _ := rfl
  apart k := apart_copies rfl wellFormed_twin (by cases k <;> simp [twinRequests])
  traces k i k' i' h := by
    have hlist : List.replicate (i + 1) (if k then 'a' else 'b') =
        List.replicate (i' + 1) (if k' then 'a' else 'b') := String.ofList_inj.mp h
    obtain ⟨hlength, hletter⟩ := List.replicate_inj.mp hlist
    cases k <;> cases k' <;> simp_all
  numbers := by decide

theorem flush_same_twins :
    (Batcher.flush twinSetting twinRequests .empty).Same 1700000000 1700000000
        (Batcher.inTurn twinSetting twinRequests twinRequests .empty) ↔
      Batcher.InOrder twinSetting (IdentityStore.empty.ledger 1700000000) twinRequests ∧
        Batcher.GroupsKeepShape twinSetting 1700000000 (Batcher.groupByContext twinRequests)
          .empty :=
  Batcher.flush_same_iff sound_twins (steady_empty _ _)

end FluxMeter.Custody
