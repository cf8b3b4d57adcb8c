import FluxMeter.Custody.Batcher

/-! What the batcher owes its callers. At any time a request is answered, in the worker's hands or
on the queue; the worker answers all of them unless it leaves its last flush with requests behind. -/
namespace FluxMeter.Custody.Batcher
open Collections

variable {ε κ ρ χ : Type*}

/-! ### Queue, groups and answers -/

/-- The requests that the worker has taken from the queue and not answered yet. -/
def Worker.inFlight : Worker ε κ → List (Request ε κ)
  | .collecting requests => requests
  | .flushing groups => groups.flatMap Prod.snd
  | _ => []

/-- No request stands behind the `_stop` object. -/
def Sealed : List (Item ε κ) → Prop
  | [] => True
  | .request _ :: queue => Sealed queue
  | .stop :: queue => requestsOf queue = []

theorem requestsOf_append (queue queue' : List (Item ε κ)) :
    requestsOf (queue ++ queue') = requestsOf queue ++ requestsOf queue' := by
  induction queue with
  | nil => rfl
  | cons item queue ih =>
    cases item with
    | request r => simp only [List.cons_append, requestsOf, ih]
    | stop => simp only [List.cons_append, requestsOf, ih]

theorem sealed_append_stop {queue : List (Item ε κ)} (h : Sealed queue) :
    Sealed (queue ++ [.stop]) := by
  induction queue with
  | nil => rfl
  | cons item queue ih =>
    cases item with
    | request r => exact ih h
    | stop =>
      change requestsOf (queue ++ [.stop]) = []
      rw [requestsOf_append]
      change requestsOf queue ++ [] = []
      rw [List.append_nil]
      exact h

theorem sealed_append_request {queue : List (Item ε κ)} (r : Request ε κ)
    (h : Item.stop ∉ queue) : Sealed (queue ++ [.request r]) := by
  induction queue with
  | nil => trivial
  | cons item queue ih =>
    cases item with
    | request r' => exact ih fun hmem => h (List.mem_cons_of_mem _ hmem)
    | stop => exact absurd List.mem_cons_self h

theorem sealed_of_none {queue : List (Item ε κ)} (h : requestsOf queue = []) : Sealed queue := by
  cases queue with
  | nil => trivial
  | cons item queue =>
    cases item with
    | request r => simp [requestsOf] at h
    | stop => exact h

theorem length_answers (c : Call ε κ ρ χ) : c.answers.length = c.group.length := by
  unfold Call.answers
  split
  · split_ifs with hlength
    · simpa using hlength
    · simp
  · simp

theorem foldl_resolve (l done : List (Request ε κ × Answer ρ χ))
    (hnew : ∀ p ∈ l, ∀ q ∈ done, q.1.number ≠ p.1.number)
    (hnodup : (l.map fun p => p.1.number).Nodup) : l.foldl resolve done = done ++ l := by
  induction l generalizing done with
  | nil => simp
  | cons p l ih =>
    rw [List.map_cons, List.nodup_cons] at hnodup
    have hfirst : resolve done p = done ++ [p] := by
      unfold resolve
      rw [if_neg]
      rintro ⟨q, hq, heq⟩
      exact hnew p List.mem_cons_self q hq heq
    rw [List.foldl_cons, hfirst, ih]
    · simp
    · intro p' hp' q hq
      rcases List.mem_append.mp hq with hq | hq
      · exact hnew p' (List.mem_cons_of_mem _ hp') q hq
      · rw [List.mem_singleton.mp hq]
        intro heq
        exact hnodup.1 (List.mem_map.mpr ⟨p', hp', heq.symm⟩)
    · exact hnodup.2

section Groups
variable [DecidableEq κ]

/-- The groups of a flush hold its requests, each under its own context. -/
theorem groupByContext_perm (requests : List (Request ε κ)) :
    ((groupByContext requests).flatMap Prod.snd).Perm requests := groupsOf_perm requests

theorem groupByContext_context (requests : List (Request ε κ)) :
    ∀ p ∈ groupByContext requests, ∀ q ∈ p.2, q.context = p.1 := key_groupsOf requests

theorem inFlight_proceed (L : BatcherLimits) (requests : List (Request ε κ)) :
    (proceed L requests).inFlight.Perm requests := by
  unfold proceed
  split_ifs
  · exact List.Perm.refl _
  · exact groupByContext_perm requests

end Groups

/-! ### The invariant -/

/-- Futures are numbered in the order of the queue, every request is in exactly one place, and an
answer comes from the call for the request's own context, at its own position. -/
structure Coherent (s : State ε κ ρ χ) : Prop where
  numbers : s.enqueued.map Request.number = List.range s.enqueued.length
  placed : (s.resolutions.map Prod.fst ++ s.worker.inFlight ++ requestsOf s.queue).Perm s.enqueued
  own : ∀ p ∈ s.resolutions, ∃ call ∈ s.calls, call.context = p.1.context ∧
    ∃ k : ℕ, call.group[k]? = some p.1 ∧ call.answers[k]? = some p.2
  contexts : ∀ groups, s.worker = .flushing groups → ∀ p ∈ groups, ∀ q ∈ p.2, q.context = p.1
  sealed : Sealed s.queue
  stop : Item.stop ∈ s.queue → s.closed = true
  stopping : s.stopping = true → s.closed = true
  returned : s.worker = .returned → s.closed = true

/-- The worker has returned with no request on the queue, if it has returned. -/
def Drained (s : State ε κ ρ χ) : Prop := s.worker = .returned → requestsOf s.queue = []

variable {s t : State ε κ ρ χ}

theorem Coherent.nodup (h : Coherent s) :
    ((s.resolutions.map Prod.fst ++ s.worker.inFlight ++ requestsOf s.queue).map
      Request.number).Nodup := by
  rw [(h.placed.map Request.number).nodup_iff, h.numbers]
  exact List.nodup_range

theorem coherent_init : Coherent ({} : State ε κ ρ χ) where
  numbers := rfl
  placed := List.Perm.refl _
  own := by simp
  contexts := by simp
  sealed := trivial
  stop := by simp
  stopping := by simp
  returned := by simp

theorem coherent_stop (h : Coherent s) (stopping : Bool) :
    Coherent { s with closed := true, stopping := stopping, queue := s.queue ++ [.stop] } := by
  have hrequests : requestsOf (s.queue ++ [.stop]) = requestsOf s.queue := by
    rw [requestsOf_append]
    exact List.append_nil _
  constructor
  case numbers => exact h.numbers
  case placed =>
    dsimp only
    rw [hrequests]
    exact h.placed
  case own => exact h.own
  case contexts => exact h.contexts
  case sealed => exact sealed_append_stop h.sealed
  case stop => exact fun _ => rfl
  case stopping => exact fun _ => rfl
  case returned => exact fun _ => rfl

theorem coherent_worker {worker : Worker ε κ} (queue : List (Item ε κ)) (h : Coherent s)
    (hplaced : (worker.inFlight ++ requestsOf queue).Perm
      (s.worker.inFlight ++ requestsOf s.queue))
    (hcontexts : ∀ groups, worker = .flushing groups → ∀ p ∈ groups, ∀ q ∈ p.2, q.context = p.1)
    (hsealed : Sealed queue) (hstop : Item.stop ∈ queue → Item.stop ∈ s.queue)
    (hreturned : worker = .returned → s.closed = true) :
    Coherent { s with queue := queue, worker := worker } where
  numbers := h.numbers
  placed := by
    have hold := h.placed
    rw [List.append_assoc] at hold ⊢
    exact (hplaced.append_left _).trans hold
  own := h.own
  contexts := hcontexts
  sealed := hsealed
  stop := fun hmem => h.stop (hstop hmem)
  stopping := h.stopping
  returned := hreturned

theorem coherent_finish {outcome : Outcome ρ χ} (h : Coherent s)
    (hfinish : finish s outcome = some t) : Coherent t := by
  unfold finish at hfinish
  split at hfinish
  next context group rest hworker =>
    obtain rfl := Option.some.inj hfinish
    have hlength : (Call.answers { context, group, outcome }).length = group.length :=
      length_answers { context, group, outcome }
    have hfst : (group.zip (Call.answers { context, group, outcome })).map Prod.fst = group :=
      List.map_fst_zip (by omega)
    have hnodup := h.nodup
    rw [hworker] at hnodup
    have hresolve : (group.zip (Call.answers { context, group, outcome })).foldl resolve
        s.resolutions = s.resolutions ++ group.zip (Call.answers { context, group, outcome }) := by
      simp only [Worker.inFlight, List.flatMap_cons, List.map_append, List.append_assoc] at hnodup
      rw [List.nodup_append] at hnodup
      obtain ⟨-, hrest, hdisjoint⟩ := hnodup
      apply foldl_resolve
      · intro p hp q hq
        apply hdisjoint
        · exact List.mem_map.mpr ⟨q.1, List.mem_map.mpr ⟨q, hq, rfl⟩, rfl⟩
        · apply List.mem_append_left
          exact List.mem_map.mpr ⟨p.1, (List.of_mem_zip hp).1, rfl⟩
      · have hgroup : (group.map Request.number).Nodup := (List.nodup_append.mp hrest).1
        rw [← hfst, List.map_map] at hgroup
        exact hgroup
    have hflight : ∀ closed, (afterGroup closed rest : Worker ε κ).inFlight =
        rest.flatMap Prod.snd := by
      intro closed
      unfold afterGroup
      cases rest with
      | nil => cases closed <;> rfl
      | cons p rest => rfl
    constructor
    case numbers => exact h.numbers
    case placed =>
      have hplaced := h.placed
      rw [hworker] at hplaced
      dsimp only
      rw [hresolve, List.map_append, hfst, hflight]
      simpa only [Worker.inFlight, List.flatMap_cons, List.append_assoc] using hplaced
    case own =>
      dsimp only
      rw [hresolve]
      intro p hp
      rcases List.mem_append.mp hp with hold | hnew
      · obtain ⟨call, hcall, hown⟩ := h.own p hold
        exact ⟨call, List.mem_append_left _ hcall, hown⟩
      · refine ⟨_, List.mem_append_right _ (List.mem_singleton_self _), ?_⟩
        obtain ⟨k, hk⟩ := List.mem_iff_getElem?.mp hnew
        obtain ⟨hgroup, hanswer⟩ := List.getElem?_zip_eq_some.mp hk
        refine ⟨?_, k, hgroup, hanswer⟩
        exact (h.contexts _ hworker _ List.mem_cons_self p.1
          (List.mem_of_getElem? hgroup)).symm
    case contexts =>
      intro groups hgroups p hp
      dsimp only at hgroups
      unfold afterGroup at hgroups
      cases rest with
      | nil => cases hclosed : s.closed <;> simp [hclosed] at hgroups
      | cons q rest =>
        rw [← Worker.flushing.inj hgroups] at hp
        exact h.contexts _ hworker p (List.mem_cons_of_mem _ hp)
    case sealed => exact h.sealed
    case stop => exact h.stop
    case stopping => exact h.stopping
    case returned =>
      intro hreturned
      dsimp only at hreturned ⊢
      unfold afterGroup at hreturned
      cases rest with
      | nil =>
        cases hclosed : s.closed with
        | false => simp [hclosed] at hreturned
        | true => rfl
      | cons q rest => simp at hreturned
  next => simp at hfinish

private theorem filter_resolutions (h : Coherent s) {p : Request ε κ × Answer ρ χ}
    (hp : p ∈ s.resolutions) :
    (s.resolutions.filter fun q => q.1.number = p.1.number) = [p] := by
  have hnodup : (s.resolutions.map fun q => q.1.number).Nodup := by
    have hall := h.nodup
    rw [List.append_assoc, List.map_append] at hall
    have hfirst := (List.nodup_append.mp hall).1
    rw [List.map_map] at hfirst
    exact hfirst
  have hfilter : ∀ l : List (Request ε κ × Answer ρ χ), (l.map fun q => q.1.number).Nodup →
      p ∈ l → (l.filter fun q => q.1.number = p.1.number) = [p] := by
    intro l hl hin
    induction l with
    | nil => simp at hin
    | cons q l ih =>
      rw [List.map_cons, List.nodup_cons] at hl
      rcases List.mem_cons.mp hin with rfl | hin
      · rw [List.filter_cons_of_pos (by simp)]
        congr 1
        apply List.filter_eq_nil_iff.mpr
        intro q hq heq
        exact hl.1 (List.mem_map.mpr ⟨q, hq, of_decide_eq_true heq⟩)
      · rw [List.filter_cons_of_neg, ih hl.2 hin]
        intro heq
        have hnumber : q.1.number = p.1.number := of_decide_eq_true heq
        exact hl.1 (List.mem_map.mpr ⟨_, hin, hnumber.symm⟩)
  exact hfilter _ hnodup hp

theorem answered_of_coherent (h : Coherent s) (hd : Drained s) (hreturned : s.worker = .returned) :
    Answered s := by
  intro r hr
  have hplaced := h.placed
  rw [hreturned, hd hreturned] at hplaced
  have hfst : (s.resolutions.map Prod.fst).Perm s.enqueued := by
    simpa [Worker.inFlight] using hplaced
  obtain ⟨⟨r', a⟩, hmem, hr'⟩ := List.mem_map.mp (hfst.mem_iff.mpr hr)
  obtain rfl : r' = r := hr'
  exact ⟨a, filter_resolutions h hmem, h.own _ hmem⟩

theorem not_answered_of_queued (h : Coherent s) (hqueue : requestsOf s.queue ≠ []) :
    ¬ Answered s := by
  intro hanswered
  obtain ⟨r, hr⟩ := List.exists_mem_of_ne_nil _ hqueue
  obtain ⟨a, hfilter, -⟩ := hanswered r
    (h.placed.mem_iff.mp (List.mem_append_right _ hr))
  have hmem : (r, a) ∈ s.resolutions := by
    apply List.mem_of_mem_filter (p := fun q => decide (q.1.number = r.number))
    rw [hfilter]
    exact List.mem_singleton_self _
  have hnodup := h.nodup
  rw [List.map_append] at hnodup
  refine (List.nodup_append.mp hnodup).2.2 r.number ?_ r.number ?_ rfl
  · apply List.mem_map.mpr
    exact ⟨r, List.mem_append_left _ (List.mem_map.mpr ⟨_, hmem, rfl⟩), rfl⟩
  · exact List.mem_map.mpr ⟨r, hr, rfl⟩

variable {L : BatcherLimits}

theorem coherent_accept (h : Coherent s) (event : ε) (context : κ) :
    Coherent (accept L s event context) := by
  unfold accept
  by_cases hclosed : s.closed = true
  · rw [if_pos hclosed]
    exact h
  rw [if_neg hclosed]
  by_cases hfull : L.maxQueueSize ≤ s.queue.length
  · rw [if_pos hfull]
    exact h
  · rw [if_neg hfull]
    obtain ⟨r, hr⟩ : ∃ r : Request ε κ, r = ⟨s.enqueued.length, event, context⟩ := ⟨_, rfl⟩
    rw [← hr]
    have hnoStop : Item.stop ∉ s.queue := fun hmem => hclosed (h.stop hmem)
    have hflight : (if s.worker.isAbsent then .idle else s.worker).inFlight =
        s.worker.inFlight := by
      cases s.worker <;> rfl
    have hworker : ∀ w, (if s.worker.isAbsent then .idle else s.worker) = w →
        w = .idle ∨ w = s.worker := by
      intro w hw
      split_ifs at hw
      · exact Or.inl hw.symm
      · exact Or.inr hw.symm
    constructor
    case numbers =>
      rw [List.map_append, h.numbers, List.length_append, List.map_singleton, hr]
      exact List.range_succ.symm
    case placed =>
      dsimp only
      rw [hflight, requestsOf_append, ← List.append_assoc]
      exact h.placed.append_right [r]
    case own => exact h.own
    case contexts =>
      intro groups hgroups
      rcases hworker _ hgroups with hidle | hsame
      · cases hidle
      · exact h.contexts groups hsame.symm
    case sealed => exact sealed_append_request r hnoStop
    case stop =>
      intro hmem
      rcases List.mem_append.mp hmem with hmem | hmem
      · exact h.stop hmem
      · simp at hmem
    case stopping => exact h.stopping
    case returned =>
      intro hreturned
      rcases hworker _ hreturned with hidle | hsame
      · cases hidle
      · exact absurd (h.returned hsame.symm) hclosed

theorem coherent_close (h : Coherent s) : Coherent (close L s) := by
  have hclosed : ∀ stopping, Coherent { s with closed := true, stopping := stopping } := by
    intro stopping
    constructor
    case numbers => exact h.numbers
    case placed => exact h.placed
    case own => exact h.own
    case contexts => exact h.contexts
    case sealed => exact h.sealed
    case stop => exact fun _ => rfl
    case stopping => exact fun _ => rfl
    case returned => exact fun _ => rfl
  unfold close
  split_ifs
  · exact h
  · exact hclosed s.stopping
  · exact coherent_stop h s.stopping
  · exact hclosed true

variable [DecidableEq κ]

theorem proceed_contexts (requests : List (Request ε κ)) (groups : List (κ × List (Request ε κ)))
    (h : proceed L requests = .flushing groups) :
    ∀ p ∈ groups, ∀ q ∈ p.2, q.context = p.1 := by
  unfold proceed at h
  split_ifs at h
  rw [← Worker.flushing.inj h]
  exact groupByContext_context requests

theorem proceed_ne_returned (requests : List (Request ε κ)) : proceed L requests ≠ .returned := by
  unfold proceed
  split_ifs <;> simp

private theorem coherent_get (h : Coherent s) (hget : get L s = some t) : Coherent t := by
  unfold get at hget
  have hsealed := h.sealed
  have hstop := h.stop
  split at hget
  next queue hworker hqueue =>
    obtain rfl := Option.some.inj hget
    rw [hqueue] at hsealed hstop
    have hnone : requestsOf queue = [] := hsealed
    apply coherent_worker _ h
    · rw [hworker, hqueue]
      exact List.Perm.refl _
    · simp
    · exact sealed_of_none hnone
    · intro hmem
      rw [hqueue]
      exact List.mem_cons_of_mem _ hmem
    · exact fun _ => hstop List.mem_cons_self
  next r queue hworker hqueue =>
    obtain rfl := Option.some.inj hget
    rw [hqueue] at hsealed
    apply coherent_worker _ h
    · rw [hworker, hqueue]
      exact (inFlight_proceed L [r]).append_right _
    · exact proceed_contexts [r]
    · exact hsealed
    · intro hmem
      rw [hqueue]
      exact List.mem_cons_of_mem _ hmem
    · exact fun hreturned => absurd hreturned (proceed_ne_returned _)
  next requests queue hworker hqueue =>
    obtain rfl := Option.some.inj hget
    rw [hqueue] at hsealed hstop
    have hclosed : s.closed = true := hstop List.mem_cons_self
    have hnone : requestsOf queue = [] := hsealed
    rw [← hclosed]
    apply coherent_worker _ h
    · rw [hworker, hqueue]
      exact (groupByContext_perm requests).append_right _
    · intro groups hgroups
      rw [← Worker.flushing.inj hgroups]
      exact groupByContext_context requests
    · exact sealed_of_none hnone
    · intro hmem
      rw [hqueue]
      exact List.mem_cons_of_mem _ hmem
    · simp
  next requests r queue hworker hqueue =>
    obtain rfl := Option.some.inj hget
    rw [hqueue] at hsealed
    apply coherent_worker _ h
    · rw [hworker, hqueue]
      have hflight := (inFlight_proceed L (requests ++ [r])).append_right (requestsOf queue)
      rw [List.append_assoc] at hflight
      exact hflight
    · exact proceed_contexts (requests ++ [r])
    · exact hsealed
    · intro hmem
      rw [hqueue]
      exact List.mem_cons_of_mem _ hmem
    · exact fun hreturned => absurd hreturned (proceed_ne_returned _)
  next => simp at hget

theorem coherent_step (h : Coherent s) {a : Action ε κ ρ χ} (hstep : step L s a = some t) :
    Coherent t := by
  cases a with
  | accept event context =>
    obtain rfl := Option.some.inj hstep
    exact coherent_accept h event context
  | close =>
    obtain rfl := Option.some.inj hstep
    exact coherent_close h
  | putStop =>
    simp only [step] at hstep
    split_ifs at hstep with hput
    obtain rfl := Option.some.inj hstep
    have hclosed := h.stopping hput.1
    have hcoherent := coherent_stop h false
    rw [← hclosed] at hcoherent
    exact hcoherent
  | get => exact coherent_get h hstep
  | timeout =>
    simp only [step] at hstep
    split at hstep
    next requests hworker =>
      obtain rfl := Option.some.inj hstep
      apply coherent_worker s.queue h
      · rw [hworker]
        exact (groupByContext_perm requests).append_right _
      · intro groups hgroups
        rw [← Worker.flushing.inj hgroups]
        exact groupByContext_context requests
      · exact h.sealed
      · exact id
      · simp
    next => simp at hstep
  | finish outcome => exact coherent_finish h hstep

private theorem drained_step (h : Coherent s) (hd : Drained s) {a : Action ε κ ρ χ}
    (hkept : strands s a = false) (hstep : step L s a = some t) : Drained t := by
  have hstop : requestsOf (s.queue ++ [.stop]) = requestsOf s.queue := by
    rw [requestsOf_append]
    exact List.append_nil _
  intro hreturned
  cases a with
  | accept event context =>
    obtain rfl := Option.some.inj hstep
    unfold accept at hreturned ⊢
    by_cases hclosed : s.closed = true
    · rw [if_pos hclosed] at hreturned ⊢
      exact hd hreturned
    rw [if_neg hclosed] at hreturned ⊢
    by_cases hfull : L.maxQueueSize ≤ s.queue.length
    · rw [if_pos hfull] at hreturned ⊢
      exact hd hreturned
    · rw [if_neg hfull] at hreturned
      dsimp only at hreturned
      split_ifs at hreturned
      exact absurd (h.returned hreturned) hclosed
  | close =>
    obtain rfl := Option.some.inj hstep
    unfold close at hreturned ⊢
    split_ifs at hreturned ⊢
    · exact hd hreturned
    · exact hd hreturned
    · exact hstop.trans (hd hreturned)
    · exact hd hreturned
  | putStop =>
    simp only [step] at hstep
    split_ifs at hstep
    obtain rfl := Option.some.inj hstep
    exact hstop.trans (hd hreturned)
  | get =>
    simp only [step, get] at hstep
    have hsealed := h.sealed
    split at hstep
    next queue hworker hqueue =>
      obtain rfl := Option.some.inj hstep
      rw [hqueue] at hsealed
      exact hsealed
    next => obtain rfl := Option.some.inj hstep; exact absurd hreturned (proceed_ne_returned _)
    next => obtain rfl := Option.some.inj hstep; cases hreturned
    next => obtain rfl := Option.some.inj hstep; exact absurd hreturned (proceed_ne_returned _)
    next => simp at hstep
  | timeout =>
    simp only [step] at hstep
    split at hstep
    next => obtain rfl := Option.some.inj hstep; cases hreturned
    next => simp at hstep
  | finish outcome =>
    simp only [step, finish] at hstep
    split at hstep
    next context group rest hworker =>
      obtain rfl := Option.some.inj hstep
      cases rest with
      | nil =>
        cases hclosed : s.closed with
        | false => simp [afterGroup, hclosed] at hreturned
        | true => simpa [strands, hclosed, hworker, Worker.onLastGroup] using hkept
      | cons p rest => simp [afterGroup] at hreturned
    next => simp at hstep

/-- A step that strands a request ends the worker with that request unanswered. -/
theorem not_answered_of_strands (h : Coherent s) {a : Action ε κ ρ χ} (hlost : strands s a = true)
    (hstep : step L s a = some t) : t.worker = .returned ∧ ¬ Answered t := by
  have hcoherent := coherent_step h hstep
  cases a with
  | finish outcome =>
    simp only [strands, Bool.and_eq_true, Bool.not_eq_true', List.isEmpty_eq_false_iff] at hlost
    obtain ⟨⟨hclosed, hlast⟩, hqueue⟩ := hlost
    simp only [step, finish] at hstep
    split at hstep
    next context group rest hworker =>
      obtain rfl := Option.some.inj hstep
      refine ⟨?_, not_answered_of_queued hcoherent hqueue⟩
      cases rest with
      | nil => simp [afterGroup, hclosed]
      | cons p rest => simp [hworker, Worker.onLastGroup] at hlast
    next => simp at hstep
  | _ => simp [strands] at hlost

/-- In every run in which the worker never leaves a flush with a request still on the queue, the
worker has answered every request exactly once when it returns. -/
theorem answered_when_returned (L : BatcherLimits) (actions : List (Action ε κ ρ χ))
    (s : State ε κ ρ χ)
    (hkept : Transition.Guarded (step L) (fun s a => strands s a = false) {} actions)
    (hrun : Transition.run (step L) {} actions = some s) (hreturned : s.worker = .returned) :
    Answered s := by
  have hinvariant : Coherent s ∧ Drained s := Transition.guarded_invariant
    (P := fun s => Coherent s ∧ Drained s)
    (fun s a t h hok hstep => ⟨coherent_step h.1 hstep, drained_step h.1 h.2 hok hstep⟩)
    ⟨coherent_init, fun h => absurd h (by simp)⟩ hkept hrun
  exact answered_of_coherent hinvariant.1 hinvariant.2 hreturned

/-- Batches of at most one request. -/
def single : BatcherLimits := ⟨1, 2, by decide, by decide⟩

/-- `close` comes while the worker is idle: the `_stop` object ends it. -/
theorem answered_idle_close :
    Answered (((Transition.run (step single) ({} : State String String String String)
      [.accept "a" "t", .get, .accept "b" "t", .finish (.returned ["a ok"]), .get,
        .finish (.returned ["b ok"]), .close, .get]).get (by decide))) :=
  answered_when_returned single _ _ (by decide) (Option.some_get (by decide)).symm (by decide)

/-- `close` comes during a flush with a second request on the queue: the worker returns after the
flush and never answers that request. -/
theorem not_answered_close_during_flush :
    ∃ s, Transition.run (step single) ({} : State String String String String)
      [.accept "a" "t", .get, .accept "b" "t", .close, .finish (.returned ["a ok"])] = some s ∧
      s.worker = .returned ∧ ¬ Answered s := by
  refine ⟨_, (Option.some_get (by decide)).symm, by decide, ?_⟩
  intro h
  obtain ⟨a, hfilter, -⟩ := h ⟨1, "b", "t"⟩ (by decide)
  have hlength := congrArg List.length hfilter
  rw [List.length_singleton] at hlength
  revert hlength
  decide

end FluxMeter.Custody.Batcher
