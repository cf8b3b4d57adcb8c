import FluxMeter.Custody.AcceptMany

/-! What the passes of `accept_many` write into the list of results: each answers the positions of
some events with their aliases, and every position is answered by one of them. -/
namespace FluxMeter.Custody
open Collections

namespace Results
variable {results : Results} {aliases : List ℕ} {own copied : Result} {index i : ℕ}

theorem answer_apply : results.answer index aliases own copied i =
    if i ∈ aliases then some copied else if i = index then some own else results i := by
  have hfold : ∀ r : Results, aliases.foldl (fun r i => Function.update r i (some copied)) r i =
      if i ∈ aliases then some copied else r i := by
    induction aliases with
    | nil => intro r; simp
    | cons a aliases ih =>
      intro r
      rw [List.foldl_cons, ih, Function.update_apply]
      simp only [List.mem_cons]
      split_ifs <;> simp_all
  unfold answer
  rw [hfold, Function.update_apply]

/-- Every result that is there is good. -/
def Sound (good : ℕ → Result → Prop) (results : Results) : Prop :=
  ∀ i r, results i = some r → good i r

end Results

namespace Deduplicated
variable {d : Deduplicated} {l : List Prepared} {p u : Prepared}

/-- After a list of events: an event id is represented by its first event, and the others are its
aliases or conflict with it. -/
structure Sound (d : Deduplicated) (l : List Prepared) : Prop where
  indices : (l.map Prepared.index).Nodup
  seen : ∀ eventId payloadHash index, d.seen.get eventId = some (payloadHash, index) →
    ∃ u ∈ d.unique, u.identity = (eventId, payloadHash) ∧ u.index = index
  complete : ∀ p ∈ l, d.seen.get p.eventId ≠ none
  first : ∀ u ∈ d.unique, l.find? (fun p => p.eventId = u.eventId) = some u
  nodup : (d.unique.map Prepared.eventId).Nodup
  aliases : ∀ u ∈ d.unique, ∀ i ∈ d.aliases u.index,
    ∃ p ∈ l, p.index = i ∧ p.identity = u.identity ∧ i ≠ u.index
  covered : ∀ p ∈ l, d.results p.index ≠ none ∨
    ∃ u ∈ d.unique, p.index = u.index ∨ p.index ∈ d.aliases u.index
  conflicts : ∀ i r, d.results i = some r → ∃ p ∈ l, p.index = i ∧
    r = conflictResult p.eventId ∧ ∃ u ∈ d.unique, u.eventId = p.eventId ∧
      u.payloadHash ≠ p.payloadHash

theorem Sound.mem (h : d.Sound l) (hu : u ∈ d.unique) : u ∈ l :=
  List.mem_of_find?_eq_some (h.first u hu)

theorem sound_empty : ({} : Deduplicated).Sound [] := by
  constructor <;> simp [Table.empty, Table.get]

theorem nodup_append_index (h : (l.map Prepared.index).Nodup)
    (hindex : p.index ∉ l.map Prepared.index) : ((l ++ [p]).map Prepared.index).Nodup := by
  rw [List.map_append, List.nodup_append]
  refine ⟨h, List.nodup_singleton _, ?_⟩
  intro i hi j hj heq
  rw [List.mem_singleton.mp hj] at heq
  exact hindex (heq ▸ hi)

theorem find?_append_of_some {q : Prepared → Bool} (h : l.find? q = some u) :
    (l ++ [p]).find? q = some u := by
  rw [List.find?_append, h]
  rfl

theorem Sound.enter_new (h : d.Sound l) (hindex : p.index ∉ l.map Prepared.index)
    (hnew : d.seen.get p.eventId = none) :
    Sound { d with
      seen := d.seen.set p.eventId (p.payloadHash, p.index)
      unique := d.unique ++ [p]
      aliases := Function.update d.aliases p.index [] } (l ++ [p]) := by
  have hfresh : ∀ q ∈ l, q.eventId ≠ p.eventId := by
    intro q hq heq
    exact h.complete q hq (by rw [heq]; exact hnew)
  have hother : ∀ u ∈ d.unique, u.index ≠ p.index := by
    intro u hu heq
    exact hindex (heq ▸ List.mem_map.mpr ⟨u, h.mem hu, rfl⟩)
  constructor
  case indices => exact nodup_append_index h.indices hindex
  case seen =>
    intro eventId payloadHash index hget
    rw [Table.get_set] at hget
    split_ifs at hget with hid
    · obtain ⟨rfl, rfl⟩ := Prod.mk.inj (Option.some.inj hget)
      exact ⟨p, List.mem_append_right _ List.mem_cons_self, by rw [hid]; rfl, rfl⟩
    · obtain ⟨u, hu, hsame⟩ := h.seen eventId payloadHash index hget
      exact ⟨u, List.mem_append_left _ hu, hsame⟩
  case complete =>
    intro q hq
    rw [Table.get_set]
    split_ifs with hid
    · simp
    · rcases List.mem_append.mp hq with hq | hq
      · exact h.complete q hq
      · exact absurd (by rw [List.mem_singleton.mp hq]) hid
  case first =>
    intro u hu
    rcases List.mem_append.mp hu with hu | hu
    · exact find?_append_of_some (h.first u hu)
    · rw [List.find?_append, List.mem_singleton.mp hu]
      have hnone : l.find? (fun q => q.eventId = p.eventId) = none := by
        rw [List.find?_eq_none]
        intro q hq
        simpa using hfresh q hq
      rw [hnone]
      simp
  case nodup =>
    rw [List.map_append, List.nodup_append]
    refine ⟨h.nodup, List.nodup_singleton _, ?_⟩
    intro i hi j hj heq
    obtain ⟨u, hu, rfl⟩ := List.mem_map.mp hi
    rw [List.mem_singleton.mp hj] at heq
    exact hfresh u (h.mem hu) heq
  case aliases =>
    intro u hu i hi
    dsimp only at hi
    rcases List.mem_append.mp hu with hu | hu
    · rw [Function.update_of_ne (hother u hu)] at hi
      obtain ⟨q, hq, hsame⟩ := h.aliases u hu i hi
      exact ⟨q, List.mem_append_left _ hq, hsame⟩
    · rw [List.mem_singleton.mp hu, Function.update_self] at hi
      cases hi
  case covered =>
    intro q hq
    rcases List.mem_append.mp hq with hq | hq
    · rcases h.covered q hq with hdone | ⟨u, hu, hcovers⟩
      · exact Or.inl hdone
      · refine Or.inr ⟨u, List.mem_append_left _ hu, ?_⟩
        dsimp only
        rw [Function.update_of_ne (hother u hu)]
        exact hcovers
    · rw [List.mem_singleton.mp hq]
      exact Or.inr ⟨p, List.mem_append_right _ List.mem_cons_self, Or.inl rfl⟩
  case conflicts =>
    intro i r hr
    obtain ⟨q, hq, hi, hresult, u, hu, hsame⟩ := h.conflicts i r hr
    exact ⟨q, List.mem_append_left _ hq, hi, hresult, u, List.mem_append_left _ hu, hsame⟩

theorem Sound.enter_alias (h : d.Sound l) (hindex : p.index ∉ l.map Prepared.index)
    (hu : u ∈ d.unique) (hsame : p.identity = u.identity) :
    Sound { d with
      aliases := Function.update d.aliases u.index (d.aliases u.index ++ [p.index]) }
      (l ++ [p]) := by
  have hid : p.eventId = u.eventId := congrArg Prod.fst hsame
  have hseen : d.seen.get p.eventId ≠ none := by
    rw [hid]
    exact h.complete u (h.mem hu)
  have hmem : ∀ v ∈ d.unique, ∀ i, i ∈ d.aliases v.index →
      i ∈ Function.update d.aliases u.index (d.aliases u.index ++ [p.index]) v.index := by
    intro v hv i hi
    rw [Function.update_apply]
    split_ifs with heq
    · rw [heq] at hi
      exact List.mem_append_left _ hi
    · exact hi
  constructor
  case indices => exact nodup_append_index h.indices hindex
  case seen => exact h.seen
  case complete =>
    intro q hq
    rcases List.mem_append.mp hq with hq | hq
    · exact h.complete q hq
    · rw [List.mem_singleton.mp hq]
      exact hseen
  case first => exact fun v hv => find?_append_of_some (h.first v hv)
  case nodup => exact h.nodup
  case aliases =>
    intro v hv i hi
    dsimp only at hi
    rw [Function.update_apply] at hi
    split_ifs at hi with heq
    · have hvu : v = u := List.inj_on_of_nodup_map h.indices (h.mem hv) (h.mem hu) heq
      rw [hvu]
      rcases List.mem_append.mp hi with hi | hi
      · obtain ⟨q, hq, hfacts⟩ := h.aliases u hu i hi
        exact ⟨q, List.mem_append_left _ hq, hfacts⟩
      · refine ⟨p, List.mem_append_right _ List.mem_cons_self, (List.mem_singleton.mp hi).symm,
          hsame, ?_⟩
        rw [List.mem_singleton.mp hi]
        intro hpu
        exact hindex (hpu ▸ List.mem_map.mpr ⟨u, h.mem hu, rfl⟩)
    · obtain ⟨q, hq, hfacts⟩ := h.aliases v hv i hi
      exact ⟨q, List.mem_append_left _ hq, hfacts⟩
  case covered =>
    intro q hq
    rcases List.mem_append.mp hq with hq | hq
    · rcases h.covered q hq with hdone | ⟨v, hv, hindex' | halias⟩
      · exact Or.inl hdone
      · exact Or.inr ⟨v, hv, Or.inl hindex'⟩
      · exact Or.inr ⟨v, hv, Or.inr (hmem v hv _ halias)⟩
    · rw [List.mem_singleton.mp hq]
      refine Or.inr ⟨u, hu, Or.inr ?_⟩
      dsimp only
      rw [Function.update_self]
      exact List.mem_append_right _ List.mem_cons_self
  case conflicts =>
    intro i r hr
    obtain ⟨q, hq, hfacts⟩ := h.conflicts i r hr
    exact ⟨q, List.mem_append_left _ hq, hfacts⟩

theorem Sound.enter_conflict (h : d.Sound l) (hindex : p.index ∉ l.map Prepared.index)
    (hu : u ∈ d.unique) (hid : u.eventId = p.eventId) (hne : u.payloadHash ≠ p.payloadHash) :
    Sound { d with
      results := Function.update d.results p.index (some (conflictResult p.eventId)) }
      (l ++ [p]) := by
  constructor
  case indices => exact nodup_append_index h.indices hindex
  case seen => exact h.seen
  case complete =>
    intro q hq
    rcases List.mem_append.mp hq with hq | hq
    · exact h.complete q hq
    · rw [List.mem_singleton.mp hq, ← hid]
      exact h.complete u (h.mem hu)
  case first => exact fun v hv => find?_append_of_some (h.first v hv)
  case nodup => exact h.nodup
  case aliases =>
    intro v hv i hi
    obtain ⟨q, hq, hfacts⟩ := h.aliases v hv i hi
    exact ⟨q, List.mem_append_left _ hq, hfacts⟩
  case covered =>
    intro q hq
    dsimp only
    rw [Function.update_apply]
    split_ifs with heq
    · exact Or.inl (by simp)
    · rcases List.mem_append.mp hq with hq | hq
      · exact h.covered q hq
      · exact absurd (by rw [List.mem_singleton.mp hq]) heq
  case conflicts =>
    intro i r hr
    dsimp only at hr
    rw [Function.update_apply] at hr
    split_ifs at hr with heq
    · refine ⟨p, List.mem_append_right _ List.mem_cons_self, heq.symm,
        (Option.some.inj hr).symm, u, hu, hid, hne⟩
    · obtain ⟨q, hq, hfacts⟩ := h.conflicts i r hr
      exact ⟨q, List.mem_append_left _ hq, hfacts⟩

theorem Sound.enter (h : d.Sound l) (hindex : p.index ∉ l.map Prepared.index) :
    (d.enter p).Sound (l ++ [p]) := by
  unfold Deduplicated.enter
  cases hget : d.seen.get p.eventId with
  | none => exact h.enter_new hindex hget
  | some found =>
    obtain ⟨payloadHash, first⟩ := found
    obtain ⟨u, hu, hidentity, rfl⟩ := h.seen _ _ _ hget
    have hid : u.eventId = p.eventId := congrArg Prod.fst hidentity
    have hhash : u.payloadHash = payloadHash := congrArg Prod.snd hidentity
    dsimp only
    split_ifs with hsame
    · exact h.enter_alias hindex hu (by rw [hidentity, hsame]; rfl)
    · exact h.enter_conflict hindex hu hid (by rw [hhash]; exact hsame)

theorem sound_ofPrepared (h : (l.map Prepared.index).Nodup) : (ofPrepared l).Sound l := by
  unfold ofPrepared
  induction l using List.reverseRecOn with
  | nil => exact sound_empty
  | append_singleton l p ih =>
    rw [List.map_append, List.nodup_append] at h
    rw [List.foldl_append]
    apply (ih h.1).enter
    intro hp
    exact h.2.2 _ hp _ List.mem_cons_self rfl

/-! ### The later passes -/

/-- The positions that an event answers for. -/
def Covers (d : Deduplicated) (u : Prepared) (i : ℕ) : Prop := i = u.index ∨ i ∈ d.aliases u.index

/-- The results of an event and of its aliases are good. -/
def GoodFor (d : Deduplicated) (good : ℕ → Result → Prop) (u : Prepared) (own copied : Result) :
    Prop :=
  good u.index own ∧ ∀ i ∈ d.aliases u.index, good i copied

variable {results : Results} {good : ℕ → Result → Prop} {own copied : Result} {i : ℕ}

theorem sound_answer (h : results.Sound good) (hgood : d.GoodFor good u own copied) :
    (d.answer results u own copied).Sound good := by
  intro i r hr
  unfold answer at hr
  rw [Results.answer_apply] at hr
  split_ifs at hr with halias hown
  · rw [← Option.some.inj hr]
    exact hgood.2 i halias
  · rw [← Option.some.inj hr, hown]
    exact hgood.1
  · exact h i r hr

theorem kept_answer (h : results i ≠ none) : d.answer results u own copied i ≠ none := by
  unfold answer
  rw [Results.answer_apply]
  split_ifs
  · simp
  · simp
  · exact h

theorem answered_answer (h : d.Covers u i) : d.answer results u own copied i ≠ none := by
  unfold answer
  rw [Results.answer_apply]
  split_ifs with halias hown
  · simp
  · simp
  · rcases h with h | h
    · exact absurd h hown
    · exact absurd h halias

end Deduplicated

namespace TokenEventCustody
variable {C : TokenEventCustody} {w : Surroundings} {d : Deduplicated}

/-- What a pass over items does to the results: only good ones come in, none is taken away, and the
positions of some items are answered. -/
structure Answers {ι : Type*} (d : Deduplicated) (items : List ι) (event : ι → Prepared)
    (told : ι → Option (Result × Result)) (before after : Results) : Prop where
  sound : ∀ good, before.Sound good → (∀ x ∈ items, ∀ r, told x = some r →
    d.GoodFor good (event x) r.1 r.2) → after.Sound good
  kept : ∀ i, before i ≠ none → after i ≠ none
  answered : ∀ x ∈ items, told x ≠ none → ∀ i, d.Covers (event x) i → after i ≠ none

section Answers
variable {ι : Type*} {items : List ι} {x : ι} {event : ι → Prepared}
  {told : ι → Option (Result × Result)} {before middle after : Results}

theorem Answers.nil : Answers d [] event told before before := by
  constructor <;> simp

theorem Answers.cons {own copied : Result} (h : Answers d items event told middle after)
    (htold : told x = some (own, copied)) (hmiddle : middle = d.answer before (event x) own copied) :
    Answers d (x :: items) event told before after := by
  subst hmiddle
  constructor
  case sound =>
    intro good hbefore hall
    obtain ⟨hfirst, hrest⟩ := List.forall_mem_cons.mp hall
    exact h.sound good (Deduplicated.sound_answer hbefore (hfirst _ htold)) hrest
  case kept => exact fun i hi => h.kept i (Deduplicated.kept_answer hi)
  case answered =>
    intro y hy hne i hi
    rcases List.mem_cons.mp hy with rfl | hy
    · exact h.kept i (Deduplicated.answered_answer hi)
    · exact h.answered y hy hne i hi

theorem Answers.skip (h : Answers d items event told before after) (htold : told x = none) :
    Answers d (x :: items) event told before after := by
  constructor
  case sound => exact fun good hbefore hall => h.sound good hbefore (List.forall_mem_cons.mp hall).2
  case kept => exact h.kept
  case answered =>
    intro y hy hne i hi
    rcases List.mem_cons.mp hy with rfl | hy
    · exact absurd htold hne
    · exact h.answered y hy hne i hi

end Answers

theorem toPrepared_of_own {p : Prepared} {o : Owned} (h : C.own w p = some o) :
    o.toPrepared = p := by
  unfold own at h
  obtain ⟨timestamp, -, h⟩ := Option.bind_eq_some_iff.mp h
  obtain ⟨envelope, -, h⟩ := Option.bind_eq_some_iff.mp h
  rw [← Option.some.inj h]

/-- The second pass answers the events that the call does not own, and owns the others. -/
theorem claims_answer {items : List (Prepared × Claim)} {b c : Claimed}
    (h : items.foldlM (C.claimStep w d) b = some c) :
    Answers d items Prod.fst (fun p => (claimResult p.1.eventId p.2).map fun r => (r, r)) b.results
        c.results ∧
      c.owned.map Owned.toPrepared =
        b.owned.map Owned.toPrepared ++ (items.filter fun p => p.2 = .owner).map Prod.fst ∧
      ∀ o ∈ c.owned, o ∈ b.owned ∨ C.withoutReservation.own w o.toPrepared = some o := by
  induction items generalizing b with
  | nil =>
    obtain rfl := Option.some.inj h
    exact ⟨Answers.nil, by simp, fun o ho => Or.inl ho⟩
  | cons p items ih =>
    rw [List.foldlM_cons] at h
    obtain ⟨m, hstep, hrest⟩ := Option.bind_eq_some_iff.mp h
    obtain ⟨hanswers, howned, howns⟩ := ih hrest
    unfold claimStep at hstep
    cases hclaim : claimResult p.1.eventId p.2 with
    | some result =>
      rw [hclaim] at hstep
      obtain rfl := Option.some.inj hstep
      have hother : p.2 ≠ .owner := by
        intro howner
        rw [claimResult_eq_none.mpr howner] at hclaim
        cases hclaim
      refine ⟨hanswers.cons (by rw [hclaim]; rfl) rfl, ?_, howns⟩
      rw [List.filter_cons_of_neg (by simpa using hother)]
      exact howned
    | none =>
      rw [hclaim] at hstep
      obtain ⟨o, hown, rfl⟩ := Option.map_eq_some_iff.mp hstep
      have howner := claimResult_eq_none.mp hclaim
      have hprepared : o.toPrepared = p.1 := toPrepared_of_own hown
      refine ⟨hanswers.skip (by rw [hclaim]; rfl), ?_, ?_⟩
      · rw [howned, List.filter_cons_of_pos (by simpa using howner), List.map_append,
          List.map_cons, List.map_cons, hprepared, List.append_assoc]
        rfl
      · intro o' ho'
        rcases howns o' ho' with ho' | ho'
        · rcases List.mem_append.mp ho' with ho' | ho'
          · exact Or.inl ho'
          · rw [List.mem_singleton.mp ho', hprepared]
            exact Or.inr hown
        · exact Or.inr ho'

/-- The third pass answers the events that were not published, and keeps the others. -/
theorem sorts_answer (items : List (Owned × Option PublishError)) (b : Sorted) :
    Answers d items (fun p => p.1.toPrepared)
        (fun p => p.2.map fun e => (errorResult p.1.eventId e, errorResult p.1.eventId e)) b.results
        (items.foldl (sortStep d) b).results ∧
      (items.foldl (sortStep d) b).accepted =
        b.accepted ++ (items.filter fun p => p.2 = none).map Prod.fst := by
  induction items generalizing b with
  | nil => exact ⟨Answers.nil, by simp⟩
  | cons p items ih =>
    obtain ⟨hanswers, haccepted⟩ := ih (sortStep d b p)
    rw [List.foldl_cons]
    unfold sortStep at hanswers haccepted ⊢
    cases hp : p.2 with
    | none =>
      rw [hp] at hanswers haccepted
      refine ⟨hanswers.skip (by rw [hp]; rfl), ?_⟩
      rw [haccepted, List.filter_cons_of_pos (by simpa using hp), List.append_assoc]
      rfl
    | some error =>
      rw [hp] at hanswers haccepted
      dsimp only at hanswers haccepted ⊢
      rw [List.filter_cons_of_neg (by simp [hp])]
      split_ifs at hanswers haccepted ⊢ with huncertain
      · exact ⟨hanswers.cons (by rw [hp]; rfl) rfl, haccepted⟩
      · exact ⟨hanswers.cons (by rw [hp]; rfl) rfl, haccepted⟩

theorem finals_answer (finalized : Bool) (items : List Owned) (results : Results) :
    Answers d items Owned.toPrepared (fun o => some (finalResult finalized o)) results
      (items.foldl (finalizeStep d finalized) results) := by
  induction items generalizing results with
  | nil => exact Answers.nil
  | cons o items ih => exact (ih (finalizeStep d finalized results o)).cons rfl rfl

end TokenEventCustody

end FluxMeter.Custody
