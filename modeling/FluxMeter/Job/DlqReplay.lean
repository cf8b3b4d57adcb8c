import FluxMeter.Transition.Consumers
import FluxMeter.Transition.Runs

/-! `scripts/dlq_replay.py`. Its runs follow each other in one consumer group; a run may crash between
any two of its calls, and the broker decides on the copies and on the commit requests in its own time. -/
namespace FluxMeter.Job.DlqReplay
open Transition

inductive Delivery
  | inFlight
  | acked
  | refused
  deriving DecidableEq

/-- What `producer.produce` was given for a message of the source topic. -/
structure Copy (π μ : Type*) where
  partition : π
  offset : ℕ
  message : μ
  delivery : Delivery := .inFlight
  deriving DecidableEq

structure Args where
  dryRun : Bool := false
  /-- `--max`; zero is no limit. -/
  max : ℕ := 0
  deriving DecidableEq

inductive Pc (π : Type*)
  | stopped
  | polling
  | producing (partition : π) (offset : ℕ)
  | committing (partition : π) (offset : ℕ)
  | flushing
  deriving DecidableEq

/-- The partitions of the source topic, with keys and values of the messages in `μ`. -/
structure System (π μ : Type*) where
  source : π → List μ
  copies : List (Copy π μ) := []
  consumers : π → Consumer := fun _ => {}
  /-- The commit requests that the broker has not applied. -/
  requests : List (π × ℕ) := []
  args : Args := {}
  count : ℕ := 0
  pc : Pc π := .stopped

inductive Action (π μ : Type*)
  | start (args : Args)
  /-- The loop ends at `--max`. -/
  | limit
  | poll (partition : π)
  /-- `poll` returns `None`. -/
  | quiet
  /-- `poll` returns an error. -/
  | error (partitionEof : Bool)
  /-- `produce`, which raises `BufferError` where the queue is full. -/
  | produce (queued : Bool)
  | commit
  /-- `flush(10)` returns, whatever was delivered by then. -/
  | flush
  | crash
  /-- The broker decides on a copy. -/
  | settle (copy : ℕ) (accepted : Bool)
  /-- The broker applies a commit request. -/
  | apply (request : ℕ)
  /-- A new dead letter. -/
  | append (partition : π) (message : μ)

section Steps
variable {π μ : Type*} [DecidableEq π]

/-- `args.max and count >= args.max`. -/
def System.full (s : System π μ) : Bool := s.args.max ≠ 0 ∧ s.args.max ≤ s.count

def step (s : System π μ) : Action π μ → Option (System π μ)
  | .start args =>
    match s.pc with
    | .stopped => some { s with
        consumers := fun p => (s.consumers p).resume, args, count := 0, pc := .polling }
    | _ => none
  | .poll p =>
    match s.pc with
    | .polling =>
      if s.full then none
      else if (s.consumers p).position < (s.source p).length then
        some { s with
          consumers := Function.update s.consumers p (s.consumers p).advance
          pc := .producing p (s.consumers p).position }
      else none
    | _ => none
  | .limit =>
    match s.pc with
    | .polling => if s.full then some { s with pc := .flushing } else none
    | _ => none
  | .quiet =>
    match s.pc with
    | .polling =>
      if s.full then none
      else some { s with pc := if 0 < s.count then .flushing else .polling }
    | _ => none
  | .error partitionEof =>
    match s.pc with
    | .polling =>
      if s.full then none
      else some { s with pc := if partitionEof then .flushing else .polling }
    | _ => none
  | .produce queued =>
    match s.pc with
    | .producing p k =>
      if s.args.dryRun then some { s with pc := .committing p k }
      else if queued then
        (s.source p)[k]?.map fun message =>
          { s with copies := s.copies ++ [{ partition := p, offset := k, message }]
                   pc := .committing p k }
      else some { s with pc := .stopped }
    | _ => none
  | .commit =>
    match s.pc with
    | .committing p k =>
      some { s with requests := s.requests ++ [(p, k + 1)], count := s.count + 1, pc := .polling }
    | _ => none
  | .flush =>
    match s.pc with
    | .flushing => some { s with pc := .stopped }
    | _ => none
  | .crash => some { s with pc := .stopped }
  | .settle i accepted => do
    let c ← s.copies[i]?
    if c.delivery = .inFlight then
      some { s with
        copies := s.copies.set i { c with delivery := if accepted then .acked else .refused } }
    else none
  | .apply i =>
    s.requests[i]?.map fun r =>
      { s with consumers := Function.update s.consumers r.1 ((s.consumers r.1).commit r.2)
               requests := s.requests.eraseIdx i }
  | .append p message =>
    some { s with source := Function.update s.source p (s.source p ++ [message]) }

/-- The target topic has acknowledged a copy of the message. -/
def Acked (s : System π μ) (p : π) (k : ℕ) : Prop :=
  ∃ c ∈ s.copies, c.partition = p ∧ c.offset = k ∧ (s.source p)[k]? = some c.message ∧
    c.delivery = .acked

/-- A committed offset covers acknowledged messages only, so that no restart skips one. -/
def Safe (s : System π μ) : Prop := ∀ p, SettledBelow (Acked s p) (s.consumers p).committed

def inHand (s : System π μ) : Option (π × ℕ) :=
  match s.pc with
  | .producing p k | .committing p k => some (p, k)
  | _ => none

/-- A run commits a message once the broker has acknowledged its copy. -/
def Waits (s : System π μ) : Action π μ → Prop
  | .commit => ∀ r ∈ inHand s, Acked s r.1 r.2
  | _ => True

variable [DecidableEq μ]

instance (s : System π μ) (p : π) (k : ℕ) : Decidable (Acked s p k) :=
  inferInstanceAs (Decidable (∃ c ∈ s.copies, _))

instance (s : System π μ) : ∀ a : Action π μ, Decidable (Waits s a)
  | .commit => inferInstanceAs (Decidable (∀ r ∈ inHand s, Acked s r.1 r.2))
  | .start _ | .limit | .poll _ | .quiet | .error _ | .produce _ | .flush | .crash | .settle _ _ |
    .apply _ | .append _ _ => .isTrue trivial

end Steps

/-! ### One step -/

section Invariant
variable {π μ : Type*} {s t : System π μ}

/-- What the running script relies on: all that it polled is acknowledged but for the message in hand,
which is the last it polled, and so is what it asked to commit. -/
structure Inv (s : System π μ) : Prop where
  committed : Safe s
  requests : ∀ r ∈ s.requests, SettledBelow (Acked s r.1) r.2
  polled : s.pc ≠ .stopped → ∀ p k, k < (s.consumers p).position →
    Acked s p k ∨ inHand s = some (p, k)
  last : ∀ p k, inHand s = some (p, k) → (s.consumers p).position = k + 1

/-- What is acknowledged stays so. -/
def Grows (s t : System π μ) : Prop := ∀ p k, Acked s p k → Acked t p k

theorem grows_of_eq (hcopies : t.copies = s.copies) (hsource : t.source = s.source) : Grows s t := by
  intro p k h
  unfold Acked at h ⊢
  rwa [hcopies, hsource]

theorem grows_produce (c : Copy π μ) (pc : Pc π) :
    Grows s { s with copies := s.copies ++ [c], pc } := by
  rintro p k ⟨c', hc', h⟩
  exact ⟨c', List.mem_append_left _ hc', h⟩

theorem grows_settle {i : ℕ} {c : Copy π μ} (hc : s.copies[i]? = some c)
    (hflight : c.delivery = .inFlight) (d : Delivery) :
    Grows s { s with copies := s.copies.set i { c with delivery := d } } := by
  rintro p k ⟨c', hc', hpartition, hoffset, hmessage, hacked⟩
  obtain ⟨j, hj⟩ := List.mem_iff_getElem?.mp hc'
  have hij : i ≠ j := by
    rintro rfl
    obtain rfl := Option.some.inj (hc.symm.trans hj)
    rw [hflight] at hacked
    cases hacked
  refine ⟨c', List.mem_iff_getElem?.mpr ⟨j, ?_⟩, hpartition, hoffset, hmessage, hacked⟩
  rw [List.getElem?_set_ne hij, hj]

variable [DecidableEq π]

theorem grows_append (p : π) (message : μ) :
    Grows s { s with source := Function.update s.source p (s.source p ++ [message]) } := by
  rintro q k ⟨c, hc, hpartition, hoffset, hmessage, hacked⟩
  refine ⟨c, hc, hpartition, hoffset, ?_, hacked⟩
  dsimp only
  by_cases hq : q = p
  · subst hq
    have hlt : k < (s.source q).length := (List.getElem?_eq_some_iff.mp hmessage).1
    rw [Function.update_self, List.getElem?_append_left hlt]
    exact hmessage
  · rw [Function.update_of_ne hq]
    exact hmessage

omit [DecidableEq π] in
theorem Inv.of_grows (h : Inv s) (hgrows : Grows s t) (hconsumers : t.consumers = s.consumers)
    (hrequests : t.requests = s.requests) (hrunning : t.pc ≠ .stopped → s.pc ≠ .stopped)
    (hhand : inHand t = inHand s ∨ (inHand t = none ∧ t.pc = .stopped)) : Inv t := by
  constructor
  case committed =>
    intro p
    rw [hconsumers]
    exact (h.committed p).mono (hgrows p)
  case requests =>
    intro r hr
    rw [hrequests] at hr
    exact (h.requests r hr).mono (hgrows r.1)
  case polled =>
    intro hpc p k hk
    rw [hconsumers] at hk
    rcases hhand with hsame | ⟨-, hstopped⟩
    · rw [hsame]
      exact (h.polled (hrunning hpc) p k hk).imp (hgrows p k) fun hand => hand
    · exact absurd hstopped hpc
  case last =>
    intro p k hk
    rw [hconsumers]
    rcases hhand with hsame | ⟨hnone, -⟩
    · exact h.last p k (hsame ▸ hk)
    · rw [hnone] at hk
      cases hk

theorem Inv.polling (h : Inv s) (hpc : s.pc = .polling) (p : π) : Inv { s with
    consumers := Function.update s.consumers p (s.consumers p).advance
    pc := .producing p (s.consumers p).position } := by
  have hnone : inHand s = none := by
    unfold inHand
    rw [hpc]
  constructor
  case committed =>
    intro q
    dsimp only
    by_cases hq : q = p
    · subst hq
      rw [Function.update_self, Consumer.advance_committed]
      exact h.committed q
    · rw [Function.update_of_ne hq]
      exact h.committed q
  case requests => exact h.requests
  case polled =>
    intro _ q k hk
    dsimp only at hk
    have hbefore : k < (s.consumers q).position → Acked s q k := by
      intro hlt
      refine (h.polled (by simp [hpc]) q k hlt).resolve_right fun hhand => ?_
      rw [hnone] at hhand
      cases hhand
    by_cases hq : q = p
    · subst hq
      rw [Function.update_self, Consumer.advance_position] at hk
      rcases Nat.lt_succ_iff_lt_or_eq.mp hk with hlt | rfl
      · exact Or.inl (hbefore hlt)
      · exact Or.inr rfl
    · rw [Function.update_of_ne hq] at hk
      exact Or.inl (hbefore hk)
  case last =>
    intro q k hk
    obtain ⟨rfl, rfl⟩ := Prod.mk.inj (Option.some.inj hk)
    dsimp only
    rw [Function.update_self, Consumer.advance_position]

omit [DecidableEq π] in
theorem Inv.committing {p : π} {k : ℕ} (h : Inv s) (hpc : s.pc = .committing p k)
    (hacked : Acked s p k) : Inv { s with
      requests := s.requests ++ [(p, k + 1)], count := s.count + 1, pc := .polling } := by
  have hhand : inHand s = some (p, k) := by
    unfold inHand
    rw [hpc]
  have hpolled : ∀ q j, j < (s.consumers q).position → Acked s q j := by
    intro q j hj
    rcases h.polled (by simp [hpc]) q j hj with hdone | hlast
    · exact hdone
    · obtain ⟨rfl, rfl⟩ := Prod.mk.inj (Option.some.inj (hhand.symm.trans hlast))
      exact hacked
  constructor
  case committed => exact h.committed
  case requests =>
    intro r hr
    rcases List.mem_append.mp hr with hr | hr
    · exact h.requests r hr
    · obtain rfl := List.mem_singleton.mp hr
      intro j hj
      exact hpolled p j ((h.last p k hhand).symm ▸ hj)
  case polled => exact fun _ q j hj => Or.inl (hpolled q j hj)
  case last =>
    intro q j hj
    cases hj

theorem Inv.applying {i : ℕ} {r : π × ℕ} (h : Inv s) (hr : s.requests[i]? = some r) : Inv { s with
    consumers := Function.update s.consumers r.1 ((s.consumers r.1).commit r.2)
    requests := s.requests.eraseIdx i } := by
  have hposition : ∀ q, (Function.update s.consumers r.1 ((s.consumers r.1).commit r.2) q).position =
      (s.consumers q).position := by
    intro q
    by_cases hq : q = r.1
    · subst hq
      rw [Function.update_self, Consumer.commit_position]
    · rw [Function.update_of_ne hq]
  constructor
  case committed =>
    intro q
    dsimp only
    by_cases hq : q = r.1
    · subst hq
      rw [Function.update_self, Consumer.commit_committed]
      exact h.requests r (List.mem_of_getElem? hr)
    · rw [Function.update_of_ne hq]
      exact h.committed q
  case requests => exact fun r' hr' => h.requests r' (List.mem_of_mem_eraseIdx hr')
  case polled =>
    intro hpc q k hk
    dsimp only at hk
    rw [hposition] at hk
    exact h.polled hpc q k hk
  case last =>
    intro q k hk
    dsimp only
    rw [hposition]
    exact h.last q k hk

omit [DecidableEq π] in
theorem Inv.starting (h : Inv s) (args : Args) : Inv { s with
    consumers := fun p => (s.consumers p).resume, args, count := 0, pc := .polling } := by
  have hgrows : Grows s { s with
      consumers := fun p => (s.consumers p).resume, args, count := 0, pc := .polling } :=
    grows_of_eq rfl rfl
  refine ⟨fun p => (h.committed p).mono (hgrows p), fun r hr => (h.requests r hr).mono (hgrows r.1),
    fun _ p k hk => Or.inl (hgrows p k (h.committed p k hk)), ?_⟩
  intro p k hk
  cases hk

omit [DecidableEq π] in
theorem Inv.stopping (h : Inv s) : Inv { s with pc := .stopped } :=
  h.of_grows (grows_of_eq rfl rfl) rfl rfl (by simp) (Or.inr ⟨rfl, rfl⟩)

omit [DecidableEq π] in
theorem Inv.idle (h : Inv s) (hpc : s.pc = .polling) {next : Pc π}
    (hnext : next = .polling ∨ next = .flushing) : Inv { s with pc := next } := by
  refine h.of_grows (grows_of_eq rfl rfl) rfl rfl (by simp [hpc]) (Or.inl ?_)
  unfold inHand
  rw [hpc]
  rcases hnext with rfl | rfl
  · rfl
  · rfl

theorem inv_step {a : Action π μ} (h : Inv s) (hwaits : Waits s a) (hstep : step s a = some t) :
    Inv t := by
  cases a with
  | start args =>
    unfold step at hstep
    dsimp only at hstep
    split at hstep
    · obtain rfl := Option.some.inj hstep
      exact h.starting args
    · cases hstep
  | limit =>
    unfold step at hstep
    dsimp only at hstep
    split at hstep
    · rename_i hpc
      split_ifs at hstep
      obtain rfl := Option.some.inj hstep
      exact h.idle hpc (Or.inr rfl)
    · cases hstep
  | poll p =>
    unfold step at hstep
    dsimp only at hstep
    split at hstep
    · rename_i hpc
      split_ifs at hstep with hfull hlt
      obtain rfl := Option.some.inj hstep
      exact h.polling hpc p
    · cases hstep
  | quiet =>
    unfold step at hstep
    dsimp only at hstep
    split at hstep
    · rename_i hpc
      split_ifs at hstep
      · obtain rfl := Option.some.inj hstep
        exact h.idle hpc (Or.inr rfl)
      · obtain rfl := Option.some.inj hstep
        exact h.idle hpc (Or.inl rfl)
    · cases hstep
  | error partitionEof =>
    unfold step at hstep
    dsimp only at hstep
    split at hstep
    · rename_i hpc
      split_ifs at hstep
      · obtain rfl := Option.some.inj hstep
        exact h.idle hpc (Or.inr rfl)
      · obtain rfl := Option.some.inj hstep
        exact h.idle hpc (Or.inl rfl)
    · cases hstep
  | produce queued =>
    unfold step at hstep
    dsimp only at hstep
    split at hstep
    · rename_i p k hpc
      split_ifs at hstep
      · obtain rfl := Option.some.inj hstep
        exact h.of_grows (grows_of_eq rfl rfl) rfl rfl (by simp [hpc])
          (Or.inl (by simp [inHand, hpc]))
      · obtain ⟨message, -, rfl⟩ := Option.map_eq_some_iff.mp hstep
        exact h.of_grows (grows_produce _ _) rfl rfl (by simp [hpc])
          (Or.inl (by simp [inHand, hpc]))
      · obtain rfl := Option.some.inj hstep
        exact h.stopping
    · cases hstep
  | commit =>
    unfold step at hstep
    dsimp only at hstep
    split at hstep
    · rename_i p k hpc
      obtain rfl := Option.some.inj hstep
      exact h.committing hpc (hwaits (p, k) (by simp [inHand, hpc]))
    · cases hstep
  | flush =>
    unfold step at hstep
    dsimp only at hstep
    split at hstep
    · obtain rfl := Option.some.inj hstep
      exact h.stopping
    · cases hstep
  | crash =>
    obtain rfl := Option.some.inj hstep
    exact h.stopping
  | settle i accepted =>
    obtain ⟨c, hc, hstep⟩ := Option.bind_eq_some_iff.mp hstep
    by_cases hflight : c.delivery = .inFlight
    · rw [if_pos hflight] at hstep
      obtain rfl := Option.some.inj hstep
      exact h.of_grows (grows_settle hc hflight _) rfl rfl (fun hpc => hpc) (Or.inl rfl)
    · rw [if_neg hflight] at hstep
      cases hstep
  | apply i =>
    obtain ⟨r, hr, rfl⟩ := Option.map_eq_some_iff.mp hstep
    exact h.applying hr
  | append p message =>
    obtain rfl := Option.some.inj hstep
    exact h.of_grows (grows_append p message) rfl rfl (fun hpc => hpc) (Or.inl rfl)

/-- In every run of the script that commits a message once its copy is acknowledged, every committed
offset covers acknowledged messages only. -/
theorem safe_of_waits {source : π → List μ} {actions : List (Action π μ)}
    (hwaits : Guarded step Waits ({ source } : System π μ) actions)
    (hrun : run step { source } actions = some t) : Safe t := by
  have hinit : Inv ({ source } : System π μ) := by
    refine ⟨fun p => SettledBelow.zero _, fun r hr => ?_, fun hpc => absurd rfl hpc, fun p k hk => ?_⟩
    · cases hr
    · cases hk
  exact (guarded_invariant (fun _ _ _ hs hok hstep => inv_step hs hok hstep) hinit hwaits
    hrun).committed

/-- One dead letter: the first run copies it and asks to commit it. -/
def replayOne : List (Action Unit String) := [.start {}, .poll (), .produce true]

/-- The broker acknowledges the copy before the commit. -/
theorem safe_replayOne : ∃ t, run step ({ source := fun _ => ["m"] } : System Unit String)
    (replayOne ++ [.settle 0 true, .commit, .apply 0, .crash]) = some t ∧
      (t.consumers ()).committed = 1 ∧ Safe t := by
  have hwaits : Guarded step Waits ({ source := fun _ => ["m"] } : System Unit String)
      (replayOne ++ [.settle 0 true, .commit, .apply 0, .crash]) := by decide
  refine ⟨_, rfl, rfl, ?_⟩
  exact safe_of_waits hwaits rfl

/-- The run commits the message and crashes, and the broker refuses the copy: the next run starts
behind the message. -/
theorem not_safe : ∃ t, run step ({ source := fun _ => ["m"] } : System Unit String)
    (replayOne ++ [.commit, .apply 0, .crash, .settle 0 false]) = some t ∧
      (t.consumers ()).committed = 1 ∧ (∀ c ∈ t.copies, c.delivery = .refused) ∧ ¬ Safe t ∧
      (run step t [.start {}, .poll ()]).isNone := by
  refine ⟨_, rfl, rfl, by decide, fun hsafe => ?_, rfl⟩
  have hacked := hsafe () 0 (by decide)
  revert hacked
  decide

end Invariant

end FluxMeter.Job.DlqReplay
