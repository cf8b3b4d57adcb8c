import FluxMeter.Api.WebhookDelivery
import FluxMeter.Transition.Consumers

/-! The loop of `main` in `webhook_worker.py` over one partition of the alert topic. The calls of
`process_alert` are apart, so that the worker may crash between any two of them. -/
namespace FluxMeter.Api.WebhookWorker
open FluxMeter.Budget FluxMeter.Api.Webhooks Transition

inductive Pc
  | stopped
  | polling
  /-- The message is polled; `none` is a value that does not decode. -/
  | marking (offset : ℕ) (message : Option Consumed)
  /-- `SET NX` has set the transition key. -/
  | delivering (offset : ℕ) (c : Consumed)
  /-- `fire_budget_webhook` has returned `False`. -/
  | undoing (offset : ℕ) (c : Consumed)
  | committing (offset : ℕ)

namespace Pc

/-- The offset of the message whose handling goes on. -/
def inHand : Pc → Option ℕ
  | .marking k _ | .delivering k _ | .undoing k _ => some k
  | .stopped | .polling | .committing _ => none

/-- The alert whose key is set and whose delivery is not decided. -/
def unsettled : Pc → Option Consumed
  | .delivering _ c | .undoing _ c => some c
  | .stopped | .polling | .marking _ _ | .committing _ => none

def handled : Pc → Option Consumed
  | .marking _ m => m
  | .delivering _ c | .undoing _ c => some c
  | .stopped | .polling | .committing _ => none

end Pc

structure Worker where
  log : List (Option Consumed) := []
  store : Store := {}
  consumer : Consumer := {}
  /-- The group has committed no offset. -/
  fresh : Bool := true
  pc : Pc := .stopped
  /-- What was posted, and for which alert. -/
  posted : List (Consumed × Post) := []
  /-- The alerts that have set their transition key. -/
  marks : List Consumed := []
  /-- The handling of an alert with a webhook has failed since the start. -/
  failed : Bool := false

inductive Action
  | start
  | poll
  /-- `poll` returns nothing, or an error. -/
  | quiet
  /-- Up to and with the `SET NX`. -/
  | mark (now : ℤ)
  /-- `fire_budget_webhook`. -/
  | deliver (e : Surroundings)
  /-- The key is deleted, and the `RuntimeError` caught. -/
  | undo
  | commit
  /-- A call of Redis or Kafka raises, and the exception is caught. -/
  | raise
  | crash
  | append (message : Option Consumed)

section Steps
variable (hooks : BudgetKey → Hook) (sha256 : String → String) (maxRetries : ℕ)

/-- The alert's own budget has a webhook. -/
def owed (c : Consumed) : Bool := (hooks ⟨c.tenant, c.alert.customerId⟩).target.isSome

/-- A handling ends without its alert being delivered. -/
def Worker.give (s : Worker) (store : Store) : Worker :=
  { s with store, pc := .polling, failed := s.failed || s.pc.handled.any (owed hooks) }

def step (s : Worker) : Action → Option Worker
  | .start =>
    match s.pc with
    | .stopped => some { s with
        -- `auto.offset.reset` is `latest`
        consumer := if s.fresh then s.consumer.seek s.log.length else s.consumer.resume
        pc := .polling
        failed := false }
    | _ => none
  | .poll =>
    match s.pc with
    | .polling => (s.log[s.consumer.position]?).map fun m =>
        { s with consumer := s.consumer.advance, pc := .marking s.consumer.position m }
    | _ => none
  | .quiet =>
    match s.pc with
    | .polling => some s
    | _ => none
  | .mark now =>
    match s.pc with
    | .marking _ none => some (s.give hooks s.store)
    | .marking k (some c) =>
      if c.alert.customerId = "" ∨ s.store.marked (transitionKey sha256 c.alert) now = true then
        some { s with pc := .committing k }
      else
        some { s with
          store := s.store.mark (transitionKey sha256 c.alert) now
          marks := c :: s.marks
          pc := .delivering k c }
    | _ => none
  | .deliver e =>
    match s.pc with
    | .delivering k c =>
      match fireBudgetWebhook maxRetries s.store c.alert e with
      | (store, .sent post) =>
        some { s with store, posted := (c, post) :: s.posted, pc := .committing k }
      | (store, .failed) => some { s with store, pc := .undoing k c }
      | (store, .raised) => some (s.give hooks store)
    | _ => none
  | .undo =>
    match s.pc with
    | .undoing _ c => some (s.give hooks (s.store.unmark (transitionKey sha256 c.alert)))
    | _ => none
  | .commit =>
    match s.pc with
    | .committing k =>
      some { s with consumer := s.consumer.commit (k + 1), fresh := false, pc := .polling }
    | _ => none
  | .raise =>
    match s.pc with
    | .stopped | .polling => none
    | _ => some (s.give hooks s.store)
  | .crash => some { s with pc := .stopped }
  | .append m => some { s with log := s.log ++ [m] }

/-- The transition of an alert was posted to the webhook of its budget. -/
def Delivered (s : Worker) (c : Consumed) : Prop :=
  ∃ q ∈ s.posted, q.1.transition = c.transition ∧
    (hooks ⟨c.tenant, c.alert.customerId⟩).target = some q.2.url

/-- The message at an offset is no alert of a customer with a webhook, or it is delivered. -/
def Settled (s : Worker) (k : ℕ) : Prop :=
  ∀ m ∈ s.log[k]?, ∀ c ∈ m, owed hooks c = true → Delivered hooks s c

/-- No committed offset covers an alert that is owed, and the key of one whose delivery failed is not
set, so that it is delivered when it comes again. -/
structure AtLeastOnce (s : Worker) : Prop where
  safe : SettledBelow (Settled hooks s) s.consumer.committed
  retried : ∀ c ∈ s.marks, owed hooks c = true → ¬ Delivered hooks s c →
    (∀ d ∈ s.pc.unsettled, d.transition ≠ c.transition) →
    s.store.transitions (transitionKey sha256 c.alert) = none

/-- What keeps every owed alert: no commit behind a failure, no end between the setting of a key and
the outcome of the delivery, no key that stands for two transitions, and a first start that skips
none. -/
def Careful (s : Worker) : Action → Prop
  | .start => s.fresh = true → SettledBelow (Settled hooks s) s.log.length
  | .mark _ => ∀ c ∈ s.pc.handled,
      (owed hooks c = true → c.tenant = none ∧ c.alert.customerId ≠ "") ∧
      ∀ d ∈ s.marks, transitionKey sha256 d.alert = transitionKey sha256 c.alert →
        owed hooks d = true ∨ owed hooks c = true → d.transition = c.transition
  | .deliver e => ∀ c ∈ s.pc.unsettled, owed hooks c = true →
      ¬ Deliveries.Raises maxRetries e.attempts
  | .raise | .crash => ∀ c ∈ s.pc.unsettled, owed hooks c = false
  | .commit => s.failed = false
  | .poll | .quiet | .undo | .append _ => True

instance (s : Worker) (c : Consumed) : Decidable (Delivered hooks s c) :=
  inferInstanceAs (Decidable (∃ q ∈ s.posted, _))

instance (s : Worker) (k : ℕ) : Decidable (Settled hooks s k) :=
  inferInstanceAs (Decidable (∀ m ∈ s.log[k]?, ∀ c ∈ m, owed hooks c = true → Delivered hooks s c))

instance (s : Worker) (n : ℕ) : Decidable (SettledBelow (Settled hooks s) n) :=
  inferInstanceAs (Decidable (∀ k < n, Settled hooks s k))

instance (s : Worker) : ∀ a, Decidable (Careful hooks sha256 maxRetries s a)
  | .start => inferInstanceAs (Decidable (_ = true → SettledBelow (Settled hooks s) _))
  | .mark _ => inferInstanceAs (Decidable (∀ c ∈ s.pc.handled, (_ → _ ∧ _) ∧ ∀ d ∈ s.marks, _))
  | .deliver e => inferInstanceAs (Decidable (∀ c ∈ s.pc.unsettled, _ →
      ¬ Deliveries.Raises maxRetries e.attempts))
  | .raise | .crash => inferInstanceAs (Decidable (∀ c ∈ s.pc.unsettled, _))
  | .commit => inferInstanceAs (Decidable (_ = false))
  | .poll | .quiet | .undo | .append _ => isTrue trivial

end Steps

/-! ### One call -/

/-- Where no exception comes between its calls, the handling of an alert is `process_alert`. -/
theorem run_processAlert {hooks : BudgetKey → Hook} {sha256 : String → String} {maxRetries k : ℕ}
    {s : Worker} {c : Consumed} (hpc : s.pc = .marking k (some c)) (e : Surroundings) :
    ∃ actions t, run (step hooks sha256 maxRetries) s (.mark e.now :: actions) = some t ∧
      t.store = (processAlert sha256 maxRetries s.store c.alert e).1 ∧
      (t.pc = .committing k ∧
        (∃ post, (processAlert sha256 maxRetries s.store c.alert e).2 = .returned post) ∨
      t.pc = .polling ∧ (processAlert sha256 maxRetries s.store c.alert e).2 = .raised) := by
  by_cases hskip : c.alert.customerId = "" ∨
      s.store.marked (transitionKey sha256 c.alert) e.now = true
  · have hanswer : processAlert sha256 maxRetries s.store c.alert e = (s.store, .returned none) := by
      unfold processAlert
      rcases hskip with hcustomer | hmarked
      · rw [if_pos hcustomer]
      · simp [hmarked]
    refine ⟨[], { s with pc := .committing k }, ?_, ?_, Or.inl ⟨rfl, none, ?_⟩⟩
    · simp [run, step, hpc, hskip]
    · rw [hanswer]
    · rw [hanswer]
  · have hmark : step hooks sha256 maxRetries s (.mark e.now) = some { s with
        store := s.store.mark (transitionKey sha256 c.alert) e.now
        marks := c :: s.marks
        pc := .delivering k c } := by
      simp [step, hpc, hskip]
    obtain ⟨hcustomer, hmarked⟩ := not_or.mp hskip
    rcases fireBudgetWebhook_cases maxRetries (s.store.mark (transitionKey sha256 c.alert) e.now)
      c.alert e with ⟨post, -, -, hfire⟩ | ⟨-, failed, hfire⟩ | ⟨-, -, hfire⟩
    · refine ⟨[.deliver e], _, run_cons_eq_some.mpr ⟨_, hmark, run_cons_eq_some.mpr ⟨{ s with
          store := s.store.mark (transitionKey sha256 c.alert) e.now
          marks := c :: s.marks
          posted := (c, post) :: s.posted
          pc := .committing k }, ?_, run_nil _⟩⟩, ?_, Or.inl ⟨rfl, some post, ?_⟩⟩
      · simp [step, hfire]
      · simp [processAlert, hcustomer, hmarked, hfire]
      · simp [processAlert, hcustomer, hmarked, hfire]
    · refine ⟨[.deliver e, .undo], _, run_cons_eq_some.mpr ⟨_, hmark, run_cons_eq_some.mpr ⟨{ s with
          store := { s.store.mark (transitionKey sha256 c.alert) e.now with deliveryFailed := failed }
          marks := c :: s.marks
          pc := .undoing k c }, ?_, run_cons_eq_some.mpr ⟨_, rfl, run_nil _⟩⟩⟩, ?_, Or.inr ⟨rfl, ?_⟩⟩
      · simp [step, hfire]
      · simp [processAlert, hcustomer, hmarked, hfire, Worker.give]
      · simp [processAlert, hcustomer, hmarked, hfire]
    · refine ⟨[.deliver e], _, run_cons_eq_some.mpr ⟨_, hmark, run_cons_eq_some.mpr ⟨Worker.give hooks
          { s with
            store := s.store.mark (transitionKey sha256 c.alert) e.now
            marks := c :: s.marks
            pc := .delivering k c } (s.store.mark (transitionKey sha256 c.alert) e.now), ?_,
          run_nil _⟩⟩, ?_, Or.inr ⟨rfl, ?_⟩⟩
      · simp [step, hfire]
      · simp [processAlert, hcustomer, hmarked, hfire, Worker.give]
      · simp [processAlert, hcustomer, hmarked, hfire]

/-! ### One step -/

section Invariant
variable {hooks : BudgetKey → Hook} {sha256 : String → String} {maxRetries : ℕ} {s t : Worker}
  {c : Consumed} {k : ℕ}

/-- What the loop relies on: all that was polled since the start is settled but for the message in
hand, and a key that is set belongs to a delivered alert, or to the one that is being delivered. -/
structure Inv (hooks : BudgetKey → Hook) (sha256 : String → String) (s : Worker) : Prop where
  settings : s.store.hooks = hooks
  committed_le : s.consumer.committed ≤ s.log.length
  position_le : s.consumer.position ≤ s.log.length
  safe : SettledBelow (Settled hooks s) s.consumer.committed
  polled : s.pc ≠ .stopped → s.failed = false → ∀ k < s.consumer.position,
    Settled hooks s k ∨ s.pc.inHand = some k
  hand : ∀ k, s.pc.inHand = some k ∨ s.pc = .committing k → s.consumer.position = k + 1
  message : ∀ k, s.pc.inHand = some k → s.log[k]? = some s.pc.handled
  marked : ∀ c ∈ s.pc.unsettled, c ∈ s.marks
  own : ∀ c ∈ s.pc.unsettled, owed hooks c = true → c.tenant = none
  keys : ∀ key expiry, s.store.transitions key = some expiry →
    ∃ c ∈ s.marks, transitionKey sha256 c.alert = key ∧
      (owed hooks c = true → Delivered hooks s c ∨ s.pc.unsettled = some c)
  same : ∀ c ∈ s.marks, ∀ d ∈ s.marks,
    transitionKey sha256 d.alert = transitionKey sha256 c.alert →
    owed hooks d = true ∨ owed hooks c = true → d.transition = c.transition

theorem owed_congr {d : Consumed} (h : d.transition = c.transition) :
    owed hooks d = owed hooks c := by
  have htenant : d.tenant = c.tenant := congrArg BudgetTransition.tenant h
  have hcustomer : d.alert.customerId = c.alert.customerId := congrArg BudgetTransition.customerId h
  unfold owed
  rw [htenant, hcustomer]

theorem Delivered.congr {d : Consumed} (h : Delivered hooks s d)
    (hsame : d.transition = c.transition) : Delivered hooks s c := by
  obtain ⟨q, hq, htransition, htarget⟩ := h
  have htenant : d.tenant = c.tenant := congrArg BudgetTransition.tenant hsame
  have hcustomer : d.alert.customerId = c.alert.customerId :=
    congrArg BudgetTransition.customerId hsame
  rw [htenant, hcustomer] at htarget
  exact ⟨q, hq, htransition.trans hsame, htarget⟩

theorem Delivered.mono (h : Delivered hooks s c) (hposted : s.posted ⊆ t.posted) :
    Delivered hooks t c := by
  obtain ⟨q, hq, hdelivered⟩ := h
  exact ⟨q, hposted hq, hdelivered⟩

theorem Settled.mono (h : Settled hooks s k) (hlog : t.log[k]? = s.log[k]?)
    (hposted : s.posted ⊆ t.posted) : Settled hooks t k := by
  intro m hm c hc howed
  rw [hlog] at hm
  exact (h m hm c hc howed).mono hposted

/-- Where no delivery of an owed alert is open, the keys are those of what was delivered. -/
theorem Inv.keys_closed (h : Inv hooks sha256 s)
    (hclosed : ∀ c ∈ s.pc.unsettled, owed hooks c = false) :
    ∀ key expiry, s.store.transitions key = some expiry →
      ∃ c ∈ s.marks, transitionKey sha256 c.alert = key ∧
        (owed hooks c = true → Delivered hooks s c) := by
  intro key expiry hkey
  obtain ⟨c, hc, hsame, hdelivered⟩ := h.keys key expiry hkey
  refine ⟨c, hc, hsame, fun howed => (hdelivered howed).resolve_right fun hnow => ?_⟩
  rw [hclosed c hnow] at howed
  cases howed

theorem Inv.give (h : Inv hooks sha256 s) {store : Store} (hpc : s.pc ≠ .stopped)
    (hhooks : store.hooks = hooks)
    (hkeys : ∀ key expiry, store.transitions key = some expiry →
      ∃ c ∈ s.marks, transitionKey sha256 c.alert = key ∧
        (owed hooks c = true → Delivered hooks s c)) :
    Inv hooks sha256 (s.give hooks store) := by
  constructor
  case settings => exact hhooks
  case committed_le => exact h.committed_le
  case position_le => exact h.position_le
  case safe => exact h.safe
  case polled =>
    intro _ hfailed k hk
    obtain ⟨hbefore, hnone⟩ := Bool.or_eq_false_iff.mp hfailed
    rcases h.polled hpc hbefore k hk with hdone | hhand
    · exact Or.inl hdone
    · -- the message in hand is no alert that is owed
      left
      intro m hm c hc howed
      change m ∈ s.log[k]? at hm
      rw [h.message k hhand] at hm
      obtain rfl := Option.some.inj hm
      rw [Option.mem_def.mp hc, Option.any_some, howed] at hnone
      cases hnone
  case hand =>
    rintro k (hhand | hhand)
    · cases hhand
    · cases hhand
  case message =>
    intro k hhand
    cases hhand
  case marked =>
    intro c hc
    cases hc
  case own =>
    intro c hc
    cases hc
  case keys =>
    intro key expiry hkey
    obtain ⟨c, hc, hsame, hdelivered⟩ := hkeys key expiry hkey
    exact ⟨c, hc, hsame, fun howed => Or.inl (hdelivered howed)⟩
  case same => exact h.same

theorem Inv.commits (h : Inv hooks sha256 s) (hhand : s.pc.inHand = some k) {u : Worker}
    (hlog : u.log = s.log) (hconsumer : u.consumer = s.consumer) (hpc : u.pc = .committing k)
    (hmarks : u.marks = s.marks) (hstore : u.store = s.store) (hfailed : u.failed = s.failed)
    (hposted : s.posted ⊆ u.posted)
    (hsettled : ∀ c ∈ s.pc.handled, owed hooks c = true → Delivered hooks u c)
    (hunsettled : ∀ c ∈ s.pc.unsettled, owed hooks c = true → Delivered hooks u c) :
    Inv hooks sha256 u := by
  have hgrows : ∀ j, Settled hooks s j → Settled hooks u j := fun j hj =>
    hj.mono (by rw [hlog]) hposted
  constructor
  case settings => rw [hstore]; exact h.settings
  case committed_le => rw [hconsumer, hlog]; exact h.committed_le
  case position_le => rw [hconsumer, hlog]; exact h.position_le
  case safe =>
    rw [hconsumer]
    exact h.safe.mono hgrows
  case polled =>
    intro _ hnone j hj
    rw [hconsumer] at hj
    have hrunning : s.pc ≠ .stopped := by
      intro hstopped
      rw [hstopped] at hhand
      cases hhand
    left
    rcases h.polled hrunning (hfailed ▸ hnone) j hj with hdone | hlast
    · exact hgrows j hdone
    · intro m hm c hc howed
      rw [hlog, h.message j hlast] at hm
      obtain rfl := Option.some.inj hm
      exact hsettled c hc howed
  case hand =>
    rintro j (hj | hj)
    · rw [hpc] at hj
      cases hj
    · rw [hpc] at hj
      obtain rfl := Pc.committing.inj hj
      rw [hconsumer]
      exact h.hand k (Or.inl hhand)
  case message =>
    intro j hj
    rw [hpc] at hj
    cases hj
  case marked =>
    intro c hc
    rw [hpc] at hc
    cases hc
  case own =>
    intro c hc
    rw [hpc] at hc
    cases hc
  case keys =>
    intro key expiry hkey
    rw [hstore] at hkey
    obtain ⟨c, hc, hsame, hdelivered⟩ := h.keys key expiry hkey
    refine ⟨c, hmarks ▸ hc, hsame, fun howed => Or.inl ?_⟩
    rcases hdelivered howed with hdone | hnow
    · exact hdone.mono hposted
    · exact hunsettled c hnow howed
  case same => rw [hmarks]; exact h.same

theorem Inv.start (h : Inv hooks sha256 s) (hpc : s.pc = .stopped)
    (hfirst : s.fresh = true → SettledBelow (Settled hooks s) s.log.length) :
    Inv hooks sha256 { s with
      consumer := if s.fresh then s.consumer.seek s.log.length else s.consumer.resume
      pc := .polling
      failed := false } := by
  have hcommitted : (if s.fresh then s.consumer.seek s.log.length
      else s.consumer.resume).committed = s.consumer.committed := by
    split_ifs <;> rfl
  have hposition : (if s.fresh then s.consumer.seek s.log.length
      else s.consumer.resume).position =
      if s.fresh then s.log.length else s.consumer.committed := by
    split_ifs <;> rfl
  constructor
  case settings => exact h.settings
  case committed_le => dsimp only; rw [hcommitted]; exact h.committed_le
  case position_le =>
    dsimp only
    rw [hposition]
    split_ifs
    · exact le_rfl
    · exact h.committed_le
  case safe => dsimp only; rw [hcommitted]; exact h.safe
  case polled =>
    intro _ _ k hk
    dsimp only at hk
    rw [hposition] at hk
    split_ifs at hk with hfresh
    · exact Or.inl (hfirst hfresh k hk)
    · exact Or.inl (h.safe k hk)
  case hand =>
    rintro k (hk | hk)
    · cases hk
    · cases hk
  case message => intro k hk; cases hk
  case marked => intro c hc; cases hc
  case own => intro c hc; cases hc
  case keys =>
    intro key expiry hkey
    obtain ⟨c, hc, hsame, hdelivered⟩ := h.keys key expiry hkey
    rw [hpc] at hdelivered
    exact ⟨c, hc, hsame, hdelivered⟩
  case same => exact h.same

theorem Inv.poll (h : Inv hooks sha256 s) (hpc : s.pc = .polling) {m : Option Consumed}
    (hm : s.log[s.consumer.position]? = some m) :
    Inv hooks sha256 { s with
      consumer := s.consumer.advance, pc := .marking s.consumer.position m } := by
  constructor
  case settings => exact h.settings
  case committed_le => exact h.committed_le
  case position_le => exact (List.getElem?_eq_some_iff.mp hm).1
  case safe => exact h.safe
  case polled =>
    intro _ hfailed k hk
    rcases Nat.lt_succ_iff_lt_or_eq.mp hk with hlt | rfl
    · rcases h.polled (by simp [hpc]) hfailed k hlt with hdone | hhand
      · exact Or.inl hdone
      · rw [hpc] at hhand
        cases hhand
    · exact Or.inr rfl
  case hand =>
    rintro k (hk | hk)
    · obtain rfl := Option.some.inj hk
      rfl
    · cases hk
  case message =>
    intro k hk
    obtain rfl := Option.some.inj hk
    exact hm
  case marked => intro c hc; cases hc
  case own => intro c hc; cases hc
  case keys =>
    intro key expiry hkey
    obtain ⟨c, hc, hsame, hdelivered⟩ := h.keys key expiry hkey
    rw [hpc] at hdelivered
    exact ⟨c, hc, hsame, hdelivered⟩
  case same => exact h.same

theorem Inv.mark (h : Inv hooks sha256 s) (hpc : s.pc = .marking k (some c)) {now : ℤ}
    (hown : owed hooks c = true → c.tenant = none)
    (hsame : ∀ d ∈ s.marks, transitionKey sha256 d.alert = transitionKey sha256 c.alert →
      owed hooks d = true ∨ owed hooks c = true → d.transition = c.transition) :
    Inv hooks sha256 { s with
      store := s.store.mark (transitionKey sha256 c.alert) now
      marks := c :: s.marks
      pc := .delivering k c } := by
  have hhand : s.pc.inHand = some k := by rw [hpc]; rfl
  constructor
  case settings => exact h.settings
  case committed_le => exact h.committed_le
  case position_le => exact h.position_le
  case safe => exact h.safe
  case polled =>
    intro _ hfailed j hj
    rcases h.polled (by simp [hpc]) hfailed j hj with hdone | hlast
    · exact Or.inl hdone
    · exact Or.inr (hhand.symm.trans hlast)
  case hand =>
    rintro j (hj | hj)
    · exact h.hand j (Or.inl (hhand.trans hj))
    · cases hj
  case message =>
    intro j hj
    have hmessage := h.message j (hhand.trans hj)
    rw [hpc] at hmessage
    exact hmessage
  case marked =>
    intro d hd
    obtain rfl := Option.some.inj hd
    exact List.mem_cons_self
  case own =>
    intro d hd
    obtain rfl := Option.some.inj hd
    exact hown
  case keys =>
    intro key expiry hkey
    by_cases hthis : key = transitionKey sha256 c.alert
    · exact ⟨c, List.mem_cons_self, hthis.symm, fun _ => Or.inr rfl⟩
    · dsimp only [Store.mark] at hkey
      rw [Function.update_of_ne hthis] at hkey
      obtain ⟨d, hd, hkeyd, hdelivered⟩ := h.keys key expiry hkey
      refine ⟨d, List.mem_cons_of_mem _ hd, hkeyd, fun howed => Or.inl ?_⟩
      refine (hdelivered howed).resolve_right fun hnow => ?_
      rw [hpc] at hnow
      cases hnow
  case same =>
    intro x hx y hy hkey howed
    rcases List.mem_cons.mp hx with rfl | hold
    · rcases List.mem_cons.mp hy with rfl | hold'
      · rfl
      · exact hsame y hold' hkey howed
    · rcases List.mem_cons.mp hy with rfl | hold'
      · exact (hsame x hold hkey.symm howed.symm).symm
      · exact h.same x hold y hold' hkey howed

/-- The delivery has failed, and the key is still set. -/
theorem Inv.undoing (h : Inv hooks sha256 s) (hpc : s.pc = .delivering k c) {failed : ℕ} :
    Inv hooks sha256 { s with
      store := { s.store with deliveryFailed := failed }, pc := .undoing k c } := by
  obtain ⟨hsettings, hcommitted, hposition, hsafe, hpolled, hhand, hmessage, hmarked, hown, hkeys,
    hsame⟩ := h
  rw [hpc] at hpolled hhand hmessage hmarked hown hkeys
  refine ⟨hsettings, hcommitted, hposition, hsafe, fun _ => hpolled (by simp), fun j hj => ?_,
    hmessage, hmarked, hown, hkeys, hsame⟩
  rcases hj with hj | hj
  · exact hhand j (Or.inl hj)
  · cases hj

theorem Inv.crash (h : Inv hooks sha256 s)
    (hclosed : ∀ c ∈ s.pc.unsettled, owed hooks c = false) :
    Inv hooks sha256 { s with pc := .stopped } := by
  constructor
  case settings => exact h.settings
  case committed_le => exact h.committed_le
  case position_le => exact h.position_le
  case safe => exact h.safe
  case polled => exact fun hpc => absurd rfl hpc
  case hand =>
    rintro k (hk | hk)
    · cases hk
    · cases hk
  case message => intro k hk; cases hk
  case marked => intro c hc; cases hc
  case own => intro c hc; cases hc
  case keys =>
    intro key expiry hkey
    obtain ⟨c, hc, hsame, hdelivered⟩ := h.keys_closed hclosed key expiry hkey
    exact ⟨c, hc, hsame, fun howed => Or.inl (hdelivered howed)⟩
  case same => exact h.same

theorem Inv.append (h : Inv hooks sha256 s) (m : Option Consumed) :
    Inv hooks sha256 { s with log := s.log ++ [m] } := by
  have hsettled : ∀ n ≤ s.log.length, ∀ k < n, Settled hooks s k →
      Settled hooks { s with log := s.log ++ [m] } k := by
    intro n hn k hk hdone
    exact hdone.mono (List.getElem?_append_left (hk.trans_le hn)) (List.Subset.refl _)
  constructor
  case settings => exact h.settings
  case committed_le =>
    refine h.committed_le.trans ?_
    simp
  case position_le =>
    refine h.position_le.trans ?_
    simp
  case safe => exact fun k hk => hsettled _ h.committed_le k hk (h.safe k hk)
  case polled =>
    intro hpc hfailed k hk
    exact (h.polled hpc hfailed k hk).imp (hsettled _ h.position_le k hk) fun hhand => hhand
  case hand => exact h.hand
  case message =>
    intro k hk
    have hmessage := h.message k hk
    have hlt : k < s.log.length := (List.getElem?_eq_some_iff.mp hmessage).1
    dsimp only
    rw [List.getElem?_append_left hlt]
    exact hmessage
  case marked => exact h.marked
  case own => exact h.own
  case keys => exact h.keys
  case same => exact h.same

/-- A commit covers what is settled when nothing has failed since the start. -/
theorem Inv.commit (h : Inv hooks sha256 s) (hpc : s.pc = .committing k)
    (hfailed : s.failed = false) :
    Inv hooks sha256 { s with
      consumer := s.consumer.commit (k + 1), fresh := false, pc := .polling } := by
  have hposition : s.consumer.position = k + 1 := h.hand k (Or.inr hpc)
  have hall : SettledBelow (Settled hooks s) s.consumer.position := by
    intro j hj
    rcases h.polled (by simp [hpc]) hfailed j hj with hdone | hhand
    · exact hdone
    · rw [hpc] at hhand
      cases hhand
  constructor
  case settings => exact h.settings
  case committed_le => exact hposition ▸ h.position_le
  case position_le => exact h.position_le
  case safe => exact hposition ▸ hall
  case polled => exact fun _ _ j hj => Or.inl (hall j hj)
  case hand =>
    rintro j (hj | hj)
    · cases hj
    · cases hj
  case message => intro j hj; cases hj
  case marked => intro c hc; cases hc
  case own => intro c hc; cases hc
  case keys =>
    intro key expiry hkey
    obtain ⟨c, hc, hsame, hdelivered⟩ := h.keys key expiry hkey
    rw [hpc] at hdelivered
    exact ⟨c, hc, hsame, hdelivered⟩
  case same => exact h.same

theorem inv_mark {now : ℤ} (h : Inv hooks sha256 s)
    (hcareful : Careful hooks sha256 maxRetries s (.mark now))
    (hstep : step hooks sha256 maxRetries s (.mark now) = some t) : Inv hooks sha256 t := by
  unfold step at hstep
  dsimp only at hstep
  split at hstep
  · rename_i k hpc
    obtain rfl := Option.some.inj hstep
    refine h.give (by simp [hpc]) h.settings (h.keys_closed fun c hc => ?_)
    rw [hpc] at hc
    cases hc
  · rename_i k c hpc
    obtain ⟨hown, hsame⟩ := hcareful c (by rw [hpc]; rfl)
    split_ifs at hstep with hskip
    · obtain rfl := Option.some.inj hstep
      refine h.commits (k := k) (by rw [hpc]; rfl) rfl rfl rfl rfl rfl rfl (List.Subset.refl _)
        (fun d hd howed => ?_) fun d hd => ?_
      · rw [hpc] at hd
        obtain rfl := Option.some.inj hd
        -- the key is set: the alert that set it is of this transition, and delivered
        have hmarked := hskip.resolve_left (hown howed).2
        obtain ⟨expiry, hkey⟩ : ∃ expiry,
            s.store.transitions (transitionKey sha256 c.alert) = some expiry := by
          refine Option.ne_none_iff_exists'.mp fun hnone => ?_
          unfold Store.marked at hmarked
          rw [hnone] at hmarked
          cases hmarked
        obtain ⟨d, hd, hkeyd, hdelivered⟩ := h.keys _ expiry hkey
        have htransition := hsame d hd hkeyd (Or.inr howed)
        rcases hdelivered (by rw [owed_congr htransition]; exact howed) with hdone | hnow
        · exact hdone.congr htransition
        · rw [hpc] at hnow
          cases hnow
      · rw [hpc] at hd
        cases hd
    · obtain rfl := Option.some.inj hstep
      exact h.mark hpc (fun howed => (hown howed).1) hsame
  · cases hstep

theorem inv_deliver {e : Surroundings} (h : Inv hooks sha256 s)
    (hcareful : Careful hooks sha256 maxRetries s (.deliver e))
    (hstep : step hooks sha256 maxRetries s (.deliver e) = some t) : Inv hooks sha256 t := by
  unfold step at hstep
  dsimp only at hstep
  split at hstep
  · rename_i k c hpc
    have hopen : s.pc.unsettled = some c := by rw [hpc]; rfl
    rcases fireBudgetWebhook_cases maxRetries s.store c.alert e with ⟨post, htarget, -, hfire⟩ |
      ⟨-, failed, hfire⟩ | ⟨-, hraised, hfire⟩
    · rw [hfire] at hstep
      obtain rfl := Option.some.inj hstep
      have hdelivered : ∀ d, d = c → owed hooks d = true →
          Delivered hooks { s with posted := (c, post) :: s.posted, pc := .committing k } d := by
        rintro d rfl howed
        refine ⟨_, List.mem_cons_self, rfl, ?_⟩
        rw [h.own d hopen howed, ← h.settings]
        exact htarget
      refine h.commits (k := k) (by rw [hpc]; rfl) rfl rfl rfl rfl rfl rfl
        (List.subset_cons_self _ _) (fun d hd howed => ?_) fun d hd howed => ?_
      · rw [hpc] at hd
        exact hdelivered d (Option.some.inj hd).symm howed
      · rw [hopen] at hd
        exact hdelivered d (Option.some.inj hd).symm howed
    · rw [hfire] at hstep
      obtain rfl := Option.some.inj hstep
      exact h.undoing hpc
    · rw [hfire] at hstep
      obtain rfl := Option.some.inj hstep
      refine h.give (by simp [hpc]) h.settings (h.keys_closed fun d hd => ?_)
      -- only for an alert that is owed nothing may the delivery raise
      cases howed : owed hooks d with
      | false => rfl
      | true => exact absurd (raises_of_deliverWebhook hraised) (hcareful d hd howed)
  · cases hstep

theorem inv_undo (h : Inv hooks sha256 s)
    (hstep : step hooks sha256 maxRetries s .undo = some t) : Inv hooks sha256 t := by
  unfold step at hstep
  dsimp only at hstep
  split at hstep
  · rename_i k c hpc
    obtain rfl := Option.some.inj hstep
    refine h.give (by simp [hpc]) h.settings fun key expiry hkey => ?_
    dsimp only [Store.unmark] at hkey
    by_cases hthis : key = transitionKey sha256 c.alert
    · rw [hthis, Function.update_self] at hkey
      cases hkey
    · rw [Function.update_of_ne hthis] at hkey
      obtain ⟨d, hd, hsame, hdelivered⟩ := h.keys key expiry hkey
      refine ⟨d, hd, hsame, fun howed => (hdelivered howed).resolve_right fun hnow => ?_⟩
      rw [hpc] at hnow
      obtain rfl := Option.some.inj hnow
      exact hthis hsame.symm
  · cases hstep

theorem inv_step {a : Action} (h : Inv hooks sha256 s)
    (hcareful : Careful hooks sha256 maxRetries s a)
    (hstep : step hooks sha256 maxRetries s a = some t) : Inv hooks sha256 t := by
  cases a with
  | start =>
    unfold step at hstep
    dsimp only at hstep
    split at hstep
    · rename_i hpc
      obtain rfl := Option.some.inj hstep
      exact h.start hpc hcareful
    · cases hstep
  | poll =>
    unfold step at hstep
    dsimp only at hstep
    split at hstep
    · rename_i hpc
      obtain ⟨m, hm, rfl⟩ := Option.map_eq_some_iff.mp hstep
      exact h.poll hpc hm
    · cases hstep
  | quiet =>
    unfold step at hstep
    dsimp only at hstep
    split at hstep
    · obtain rfl := Option.some.inj hstep
      exact h
    · cases hstep
  | mark now => exact inv_mark h hcareful hstep
  | deliver e => exact inv_deliver h hcareful hstep
  | undo => exact inv_undo h hstep
  | commit =>
    unfold step at hstep
    dsimp only at hstep
    split at hstep
    · rename_i k hpc
      obtain rfl := Option.some.inj hstep
      exact h.commit hpc hcareful
    · cases hstep
  | raise =>
    have hpc : s.pc ≠ .stopped := by
      intro hstopped
      unfold step at hstep
      dsimp only at hstep
      rw [hstopped] at hstep
      cases hstep
    have hgive : t = s.give hooks s.store := by
      unfold step at hstep
      dsimp only at hstep
      split at hstep
      · cases hstep
      · cases hstep
      · exact (Option.some.inj hstep).symm
    rw [hgive]
    exact h.give hpc h.settings (h.keys_closed hcareful)
  | crash =>
    obtain rfl := Option.some.inj hstep
    exact h.crash hcareful
  | append m =>
    obtain rfl := Option.some.inj hstep
    exact h.append m

/-- In every run of the worker whose steps are careful, from the first start of its group on, no owed
alert is lost. -/
theorem at_least_once {log : List (Option Consumed)} {actions : List Action}
    (hcareful : Guarded (step hooks sha256 maxRetries) (Careful hooks sha256 maxRetries)
      { log, store := { hooks } } actions)
    (hrun : run (step hooks sha256 maxRetries) { log, store := { hooks } } actions = some t) :
    AtLeastOnce hooks sha256 t := by
  have hinit : Inv hooks sha256 { log, store := { hooks } } := by
    constructor
    case settings => rfl
    case committed_le => exact Nat.zero_le _
    case position_le => exact Nat.zero_le _
    case safe => exact SettledBelow.zero _
    case polled => exact fun hpc => absurd rfl hpc
    case hand =>
      rintro k (hk | hk)
      · cases hk
      · cases hk
    case message => intro k hk; cases hk
    case marked => intro c hc; cases hc
    case own => intro c hc; cases hc
    case keys => intro key expiry hkey; cases hkey
    case same => intro c hc; cases hc
  have h := guarded_invariant (fun _ _ _ hs hok hstep => inv_step hs hok hstep) hinit hcareful hrun
  refine ⟨h.safe, fun c hc howed hmissing hapart => ?_⟩
  cases hkey : t.store.transitions (transitionKey sha256 c.alert) with
  | none => rfl
  | some expiry =>
    -- whatever alert set the key is of this transition, and neither delivered nor in hand
    obtain ⟨d, hd, hsame, hdelivered⟩ := h.keys _ expiry hkey
    have htransition := h.same c hc d hd hsame (Or.inr howed)
    rcases hdelivered (by rw [owed_congr htransition]; exact howed) with hdone | hnow
    · exact absurd (hdone.congr htransition) hmissing
    · exact absurd htransition (hapart d hnow)

/-- A window of a customer that exhausts its budget. -/
def exhausted (customerId : String) : Consumed :=
  .sent { customerId := some customerId, modelId := some "m", windowEnd := 10000 } 10
    .budgetExhausted 0

/-- Every budget without a tenant has a webhook. -/
def anyHook (k : BudgetKey) : Hook := { url := if k.tenant = none then some "https://a" else none }

/-- The first alert of a group is delivered and committed. -/
def firstDelivered : List Action :=
  [.start, .append (some (exhausted "c1")), .poll, .mark 10, .deliver (Deliveries.answering 10 [200]),
    .commit]

/-- The receiver is down for the second alert; the worker is restarted, and delivers it. -/
theorem at_least_once_restarted : ∃ t,
    run (step anyHook Deliveries.sampleSha256 3) { store := { hooks := anyHook } }
      (firstDelivered ++ [.append (some (exhausted "c2")), .poll, .mark 20,
        .deliver (Deliveries.answering 20 [503, 503, 503]), .undo, .crash, .start, .poll, .mark 60,
        .deliver (Deliveries.answering 60 [200]), .commit]) = some t ∧
    t.consumer.committed = 2 ∧ t.posted.map (fun q => q.2.customerId) = ["c2", "c1"] ∧
    AtLeastOnce anyHook Deliveries.sampleSha256 t := by
  have hcareful : Guarded (step anyHook Deliveries.sampleSha256 3)
      (Careful anyHook Deliveries.sampleSha256 3) { store := { hooks := anyHook } }
      (firstDelivered ++ [.append (some (exhausted "c2")), .poll, .mark 20,
        .deliver (Deliveries.answering 20 [503, 503, 503]), .undo, .crash, .start, .poll, .mark 60,
        .deliver (Deliveries.answering 60 [200]), .commit]) := by
    decide +kernel
  exact ⟨_, rfl, rfl, rfl, at_least_once hcareful rfl⟩

/-- The commit of a later alert covers one whose delivery failed; an alert whose key was set before a
crash is skipped when it comes again; and a group without a committed offset starts behind a failed
alert. -/
theorem not_at_least_once :
    (∃ t, run (step anyHook Deliveries.sampleSha256 3) { store := { hooks := anyHook } }
        [.start, .append (some (exhausted "c1")), .append (some (exhausted "c2")), .poll, .mark 10,
          .deliver (Deliveries.answering 10 [503, 503, 503]), .undo, .poll, .mark 20,
          .deliver (Deliveries.answering 20 [200]), .commit] = some t ∧
      t.consumer.committed = 2 ∧ ¬ Delivered anyHook t (exhausted "c1") ∧
      ¬ AtLeastOnce anyHook Deliveries.sampleSha256 t) ∧
    (∃ t, run (step anyHook Deliveries.sampleSha256 3) { store := { hooks := anyHook } }
        (firstDelivered ++ [.append (some (exhausted "c2")), .poll, .mark 20, .crash, .start, .poll,
          .mark 60, .commit]) = some t ∧
      t.consumer.committed = 2 ∧ ¬ Delivered anyHook t (exhausted "c2") ∧
      ¬ AtLeastOnce anyHook Deliveries.sampleSha256 t) ∧
    ∃ t, run (step anyHook Deliveries.sampleSha256 3) { store := { hooks := anyHook } }
        [.start, .append (some (exhausted "c1")), .poll, .mark 10,
          .deliver (Deliveries.answering 10 [503, 503, 503]), .undo, .crash, .start,
          .append (some (exhausted "c2")), .poll, .mark 20, .deliver (Deliveries.answering 20 [200]),
          .commit] = some t ∧
      t.consumer.committed = 2 ∧ ¬ Delivered anyHook t (exhausted "c1") ∧
      ¬ AtLeastOnce anyHook Deliveries.sampleSha256 t := by
  refine ⟨⟨_, rfl, rfl, by decide +kernel, fun h => ?_⟩, ⟨_, rfl, rfl, by decide +kernel, fun h => ?_⟩,
    _, rfl, rfl, by decide +kernel, fun h => ?_⟩
  all_goals
    have hsafe := h.safe
    revert hsafe
    decide +kernel

end Invariant

end FluxMeter.Api.WebhookWorker
