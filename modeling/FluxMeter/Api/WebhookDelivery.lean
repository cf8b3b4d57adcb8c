import FluxMeter.Api.Webhooks
import FluxMeter.Transition.Runs

/-! Which budget transitions `process_alert` delivers, over any sequence of configurations and consumed
alerts. -/
namespace FluxMeter.Api.Webhooks
open FluxMeter.Budget FluxMeter.Keys FluxMeter.Model Transition

/-- An alert from the topic, with the tenant of the budget that it is about. -/
structure Consumed where
  tenant : Option String
  alert : Alert

/-- The alert that a window of an aggregate raises. -/
def Consumed.sent (agg : UsageAggregate) (now : ℤ) (type : AlertType) (remainingBalance : ℚ)
    (warning : Option (ℤ × ℚ) := none) : Consumed :=
  ⟨(sinkKeys agg).budget.tenant, emitAlert agg now type remainingBalance warning⟩

structure BudgetTransition where
  tenant : Option String
  customerId : String
  type : AlertType
  warnPct : Option ℤ
  windowStart : ℤ
  modelId : Option String
  deriving DecidableEq

def Consumed.transition (c : Consumed) : BudgetTransition :=
  ⟨c.tenant, c.alert.customerId, c.alert.type, c.alert.warnPct, c.alert.windowStart, c.alert.modelId⟩

/-- One call of `process_alert`: the webhook of the alert's own budget at that time, whether its
receiver accepts, and what was posted. -/
structure Handled where
  consumed : Consumed
  hook : Option String
  accepted : Bool
  post : Option Post

/-- Of the handled alerts, the newest first: a transition whose webhook is configured and accepts is
delivered now or was before, and what was posted is not posted again. -/
def PerTransition : List Handled → Prop
  | [] => True
  | e :: earlier =>
    (∀ url ∈ e.hook, e.accepted = true →
      (∃ d ∈ earlier, d.consumed.transition = e.consumed.transition ∧ ∃ p ∈ d.post, d.hook = some p.url) ∨
        ∃ p ∈ e.post, p.url = url) ∧
    ((∃ d ∈ earlier, d.consumed.transition = e.consumed.transition ∧ d.post ≠ none) →
      e.post = none) ∧
    PerTransition earlier

instance : ∀ history, Decidable (PerTransition history)
  | [] => isTrue trivial
  | _ :: earlier =>
    have := instDecidablePerTransition earlier
    inferInstanceAs (Decidable (_ ∧ _ ∧ PerTransition earlier))

structure Deliveries where
  store : Store := {}
  history : List Handled := []

inductive DeliveryOp
  /-- The endpoint is called with the budgets as they are then. -/
  | configure (r : Redis) (tenantId : Option String) (customerId url : String)
      (secret : Option String)
  | consume (c : Consumed) (e : Surroundings)

namespace Deliveries
variable (sha256 : String → String) (maxRetries : ℕ)

def hookOf (s : Deliveries) (c : Consumed) : Option String :=
  (s.store.hooks ⟨c.tenant, c.alert.customerId⟩).target

def step (s : Deliveries) : DeliveryOp → Option Deliveries
  | .configure r t c url secret =>
    some { s with store := (setBudgetWebhook r s.store t c url secret).getD s.store }
  | .consume c e =>
    let answer := processAlert sha256 maxRetries s.store c.alert e
    some
      { store := answer.1
        history := ⟨c, s.hookOf c, deliverWebhook maxRetries e.attempts = some true, answer.2.post⟩ ::
          s.history }

/-- The first attempt that is not retried raises something else than `HTTPError`. -/
def Raises (attempts : ℕ → Attempt) : Prop :=
  ∃ i < maxRetries, attempts i = .raised ∧ ∀ j < i, (attempts j).retried = true

/-- Where the three keys of a consumed alert line up. -/
structure Ready (s : Deliveries) (c : Consumed) (e : Surroundings) : Prop where
  /-- An alert whose own tenant configured a webhook is one without a tenant. -/
  tenant : s.hookOf c ≠ none → c.tenant = none ∧ c.alert.customerId ≠ ""
  /-- What was posted under the key was this transition, not one of another model or tenant. -/
  own : ∀ d ∈ s.history, d.post ≠ none →
    transitionKey sha256 d.consumed.alert = transitionKey sha256 c.alert →
    d.consumed.transition = c.transition
  /-- It was posted less than thirty days ago. -/
  fresh : ∀ expiry ∈ s.store.transitions (transitionKey sha256 c.alert), e.now < expiry
  /-- Delivery fails in no other way than the loop of `deliver_webhook` expects. -/
  handled : (s.store.hooks ⟨none, c.alert.customerId⟩).target ≠ none →
    ¬ Raises maxRetries e.attempts

instance (attempts : ℕ → Attempt) : Decidable (Raises maxRetries attempts) :=
  inferInstanceAs (Decidable (∃ i < maxRetries, _))

instance (s : Deliveries) (c : Consumed) (e : Surroundings) :
    Decidable (Ready sha256 maxRetries s c e) :=
  decidable_of_iff
    ((s.hookOf c ≠ none → c.tenant = none ∧ c.alert.customerId ≠ "") ∧
      (∀ d ∈ s.history, d.post ≠ none →
        transitionKey sha256 d.consumed.alert = transitionKey sha256 c.alert →
        d.consumed.transition = c.transition) ∧
      (∀ expiry ∈ s.store.transitions (transitionKey sha256 c.alert), e.now < expiry) ∧
      ((s.store.hooks ⟨none, c.alert.customerId⟩).target ≠ none → ¬ Raises maxRetries e.attempts))
    ⟨fun h => ⟨h.1, h.2.1, h.2.2.1, h.2.2.2⟩, fun h => ⟨h.tenant, h.own, h.fresh, h.handled⟩⟩

def Aligned (s : Deliveries) : DeliveryOp → Prop
  | .configure .. => True
  | .consume c e => Ready sha256 maxRetries s c e

instance (s : Deliveries) : ∀ op, Decidable (Aligned sha256 maxRetries s op)
  | .configure .. => isTrue trivial
  | .consume c e => inferInstanceAs (Decidable (Ready sha256 maxRetries s c e))

end Deliveries

/-! ### One call -/

theorem raises_of_deliverWebhook {maxRetries : ℕ} {attempts : ℕ → Attempt}
    (h : deliverWebhook maxRetries attempts = none) : Deliveries.Raises maxRetries attempts := by
  induction maxRetries generalizing attempts with
  | zero => cases h
  | succ n ih =>
    have hretry : (attempts 0).retried = true → deliverWebhook n (fun i => attempts (i + 1)) = none →
        Deliveries.Raises (n + 1) attempts := by
      intro hfirst hrest
      obtain ⟨i, hi, hraised, hbefore⟩ := ih hrest
      refine ⟨i + 1, Nat.succ_lt_succ hi, hraised, fun j hj => ?_⟩
      cases j with
      | zero => exact hfirst
      | succ j => exact hbefore j (Nat.lt_of_succ_lt_succ hj)
    unfold deliverWebhook at h
    cases hfirst : attempts 0 with
    | response status =>
      rw [hfirst] at h
      dsimp only at h
      split_ifs at h with hstatus
      refine hretry ?_ h
      rw [hfirst]
      exact decide_eq_true (not_lt.mp hstatus)
    | httpError =>
      rw [hfirst] at h
      refine hretry ?_ h
      rw [hfirst]
      rfl
    | raised => exact ⟨0, Nat.succ_pos n, hfirst, fun j hj => absurd hj (Nat.not_lt_zero j)⟩

private theorem text_mem_alertTypes (type : AlertType) : type.text ∈ alertTypes := by
  cases type <;> decide

theorem transitionKey_congr (sha256 : String → String) {c c' : Consumed}
    (h : c.transition = c'.transition) :
    transitionKey sha256 c.alert = transitionKey sha256 c'.alert := by
  have hcustomer : c.alert.customerId = c'.alert.customerId :=
    congrArg BudgetTransition.customerId h
  have htype : c.alert.type = c'.alert.type := congrArg BudgetTransition.type h
  have hpct : c.alert.warnPct = c'.alert.warnPct := congrArg BudgetTransition.warnPct h
  have hwindow : c.alert.windowStart = c'.alert.windowStart :=
    congrArg BudgetTransition.windowStart h
  unfold transitionKey identity
  rw [hcustomer, htype, hpct, hwindow]

/-- What `fire_budget_webhook` can do: post to the webhook without a tenant, fail, or raise. -/
theorem fireBudgetWebhook_cases (maxRetries : ℕ) (s : Store) (a : Alert) (e : Surroundings) :
    (∃ post, (s.hooks ⟨none, a.customerId⟩).target = some post.url ∧
      deliverWebhook maxRetries e.attempts = some true ∧
      fireBudgetWebhook maxRetries s a e = (s, .sent post)) ∨
    (((s.hooks ⟨none, a.customerId⟩).target = none ∨
        deliverWebhook maxRetries e.attempts = some false) ∧
      ∃ deliveryFailed, fireBudgetWebhook maxRetries s a e = ({ s with deliveryFailed }, .failed)) ∨
    ((s.hooks ⟨none, a.customerId⟩).target ≠ none ∧
      deliverWebhook maxRetries e.attempts = none ∧
      fireBudgetWebhook maxRetries s a e = (s, .raised)) := by
  unfold fireBudgetWebhook
  rw [if_neg (not_not.mpr (text_mem_alertTypes a.type))]
  dsimp only
  cases htarget : (s.hooks ⟨none, a.customerId⟩).target with
  | none => exact Or.inr (Or.inl ⟨Or.inl rfl, s.deliveryFailed, rfl⟩)
  | some url =>
    cases hdeliver : deliverWebhook maxRetries e.attempts with
    | none => exact Or.inr (Or.inr ⟨Option.some_ne_none url, rfl, rfl⟩)
    | some ok =>
      cases ok with
      | true => exact Or.inl ⟨_, rfl, rfl, rfl⟩
      | false => exact Or.inr (Or.inl ⟨Or.inr rfl, s.deliveryFailed + 1, rfl⟩)

/-- Everything that a call can do: skip, post and keep the key, fail and delete it, or raise with the
key set. -/
theorem processAlert_cases (sha256 : String → String) (maxRetries : ℕ) (s : Store) (a : Alert)
    (e : Surroundings) :
    ((a.customerId = "" ∨ s.marked (transitionKey sha256 a) e.now = true) ∧
      processAlert sha256 maxRetries s a e = (s, .returned none)) ∨
    (a.customerId ≠ "" ∧ s.marked (transitionKey sha256 a) e.now = false ∧
      ((∃ post, (s.hooks ⟨none, a.customerId⟩).target = some post.url ∧
          deliverWebhook maxRetries e.attempts = some true ∧
          processAlert sha256 maxRetries s a e =
            (s.mark (transitionKey sha256 a) e.now, .returned (some post))) ∨
        (((s.hooks ⟨none, a.customerId⟩).target = none ∨
            deliverWebhook maxRetries e.attempts = some false) ∧
          ∃ deliveryFailed, processAlert sha256 maxRetries s a e =
            ({ s with deliveryFailed }.unmark (transitionKey sha256 a), .raised)) ∨
        ((s.hooks ⟨none, a.customerId⟩).target ≠ none ∧
          deliverWebhook maxRetries e.attempts = none ∧
          processAlert sha256 maxRetries s a e =
            (s.mark (transitionKey sha256 a) e.now, .raised)))) := by
  unfold processAlert
  by_cases hcustomer : a.customerId = ""
  · exact Or.inl ⟨Or.inl hcustomer, if_pos hcustomer⟩
  · rw [if_neg hcustomer]
    cases hmarked : s.marked (transitionKey sha256 a) e.now with
    | true => exact Or.inl ⟨Or.inr rfl, by simp [hmarked]⟩
    | false =>
      refine Or.inr ⟨hcustomer, rfl, ?_⟩
      dsimp only
      rw [hmarked, if_neg Bool.false_ne_true]
      rcases fireBudgetWebhook_cases maxRetries (s.mark (transitionKey sha256 a) e.now) a e with
        ⟨post, htarget, hok, hfire⟩ | ⟨hfail, failed, hfire⟩ | ⟨htarget, hraised, hfire⟩
      · rw [hfire]
        exact Or.inl ⟨post, htarget, hok, rfl⟩
      · rw [hfire]
        refine Or.inr (Or.inl ⟨hfail, failed, ?_⟩)
        simp [Store.mark, Store.unmark]
      · rw [hfire]
        exact Or.inr (Or.inr ⟨htarget, hraised, rfl⟩)

theorem processAlert_marked {sha256 : String → String} {maxRetries : ℕ} {s : Store} (a : Alert)
    (e : Surroundings) (h : s.marked (transitionKey sha256 a) e.now = true) :
    processAlert sha256 maxRetries s a e = (s, .returned none) := by
  rcases processAlert_cases sha256 maxRetries s a e with ⟨-, hanswer⟩ | ⟨-, hmarked, -⟩
  · exact hanswer
  · rw [h] at hmarked
    cases hmarked

theorem mark_marked (s : Store) (key : String) {now later : ℤ}
    (h : later < now + 30 * 24 * 60 * 60) : (s.mark key now).marked key later = true := by
  unfold Store.marked Store.mark
  dsimp only
  rw [Function.update_self, Option.any_some]
  exact decide_eq_true h

/-! ### Runs -/

namespace Deliveries
variable {sha256 : String → String} {maxRetries : ℕ} {s t : Deliveries} {c : Consumed}
  {e : Surroundings}

/-- The keys that are set are those of what was posted. -/
structure Inv (sha256 : String → String) (s : Deliveries) : Prop where
  posted : ∀ key expiry, s.store.transitions key = some expiry →
    ∃ d ∈ s.history, d.post ≠ none ∧ transitionKey sha256 d.consumed.alert = key
  marked : ∀ d ∈ s.history, d.post ≠ none →
    s.store.transitions (transitionKey sha256 d.consumed.alert) ≠ none
  own : ∀ d ∈ s.history, d.consumed.tenant = none → ∀ p ∈ d.post, d.hook = some p.url
  per : PerTransition s.history

theorem Inv.configure (h : Inv sha256 s) {r : Redis} {tenantId : Option String}
    {customerId url : String} {secret : Option String} :
    Inv sha256 { s with
      store := (setBudgetWebhook r s.store tenantId customerId url secret).getD s.store } := by
  have hkeys : ((setBudgetWebhook r s.store tenantId customerId url secret).getD
      s.store).transitions = s.store.transitions := by
    unfold setBudgetWebhook
    split_ifs <;> rfl
  exact ⟨fun key expiry hkey => h.posted key expiry (hkeys ▸ hkey),
    fun d hd hpost => hkeys ▸ h.marked d hd hpost, h.own, h.per⟩

/-- A key that is not set in time is not there, and its transition was not posted. -/
theorem Inv.unposted (h : Inv sha256 s) (hready : Ready sha256 maxRetries s c e)
    (hmarked : s.store.marked (transitionKey sha256 c.alert) e.now = false) :
    s.store.transitions (transitionKey sha256 c.alert) = none ∧
      ∀ d ∈ s.history, d.consumed.transition = c.transition → d.post = none := by
  have hnone : s.store.transitions (transitionKey sha256 c.alert) = none := by
    cases hkey : s.store.transitions (transitionKey sha256 c.alert) with
    | none => rfl
    | some expiry =>
      have hlive := hready.fresh expiry hkey
      unfold Store.marked at hmarked
      rw [hkey, Option.any_some, decide_eq_false_iff_not] at hmarked
      exact absurd hlive hmarked
  refine ⟨hnone, fun d hd hsame => ?_⟩
  by_contra hpost
  refine h.marked d hd hpost ?_
  rw [transitionKey_congr sha256 hsame]
  exact hnone

theorem Inv.silent (h : Inv sha256 s) {store : Store} {hook : Option String} {accepted : Bool}
    (hkeys : store.transitions = s.store.transitions)
    (hdone : hook ≠ none → accepted = true → ∃ d ∈ s.history,
      d.consumed.transition = c.transition ∧ ∃ p ∈ d.post, d.hook = some p.url) :
    Inv sha256 ⟨store, ⟨c, hook, accepted, none⟩ :: s.history⟩ := by
  constructor
  case posted =>
    intro key expiry hkey
    obtain ⟨d, hd, hpost⟩ := h.posted key expiry (hkeys ▸ hkey)
    exact ⟨d, List.mem_cons_of_mem _ hd, hpost⟩
  case marked =>
    intro d hd hpost
    rcases List.mem_cons.mp hd with rfl | hd
    · exact absurd rfl hpost
    · exact hkeys ▸ h.marked d hd hpost
  case own =>
    intro d hd htenant p hp
    rcases List.mem_cons.mp hd with rfl | hd
    · cases hp
    · exact h.own d hd htenant p hp
  case per =>
    refine ⟨fun url hurl haccepted => Or.inl ?_, fun _ => rfl, h.per⟩
    exact hdone (fun hnone => by rw [hnone] at hurl; cases hurl) haccepted

theorem inv_consume (h : Inv sha256 s) (hready : Ready sha256 maxRetries s c e)
    (hstep : step sha256 maxRetries s (.consume c e) = some t) : Inv sha256 t := by
  obtain rfl := Option.some.inj hstep
  have howner : s.hookOf c ≠ none →
      (s.store.hooks ⟨none, c.alert.customerId⟩).target = s.hookOf c := by
    intro hhook
    unfold hookOf
    rw [(hready.tenant hhook).1]
  rcases processAlert_cases sha256 maxRetries s.store c.alert e with ⟨hskip, hanswer⟩ |
    ⟨hcustomer, hmarked, ⟨post, htarget, hok, hanswer⟩ | ⟨hfail, failed, hanswer⟩ |
      ⟨htarget, hraised, hanswer⟩⟩
  · rw [hanswer]
    refine h.silent rfl fun hhook _ => ?_
    obtain ⟨htenant, hcustomer⟩ := hready.tenant hhook
    have hlive := hskip.resolve_left hcustomer
    cases hkey : s.store.transitions (transitionKey sha256 c.alert) with
    | none =>
      unfold Store.marked at hlive
      rw [hkey] at hlive
      cases hlive
    | some expiry =>
      -- the key was set for this transition, and for no other
      obtain ⟨d, hd, hpost, hsame⟩ := h.posted _ expiry hkey
      have htransition := hready.own d hd hpost hsame
      obtain ⟨p, hp⟩ := Option.ne_none_iff_exists'.mp hpost
      have hnone : d.consumed.tenant = none := by
        rw [← htenant]
        exact congrArg BudgetTransition.tenant htransition
      exact ⟨d, hd, htransition, p, hp, h.own d hd hnone p hp⟩
  · obtain ⟨-, hunposted⟩ := h.unposted hready hmarked
    rw [hanswer]
    constructor
    case posted =>
      intro key expiry hkey
      by_cases hsame : key = transitionKey sha256 c.alert
      · exact ⟨_, List.mem_cons_self, Option.some_ne_none post, hsame.symm⟩
      · dsimp only [Store.mark] at hkey
        rw [Function.update_of_ne hsame] at hkey
        obtain ⟨d, hd, hpost⟩ := h.posted key expiry hkey
        exact ⟨d, List.mem_cons_of_mem _ hd, hpost⟩
    case marked =>
      intro d hd hpost
      dsimp only [Store.mark]
      by_cases hsame : transitionKey sha256 d.consumed.alert = transitionKey sha256 c.alert
      · rw [hsame, Function.update_self]
        exact Option.some_ne_none _
      · rw [Function.update_of_ne hsame]
        rcases List.mem_cons.mp hd with rfl | hd
        · exact absurd rfl hsame
        · exact h.marked d hd hpost
    case own =>
      intro d hd htenant p hp
      rcases List.mem_cons.mp hd with rfl | hd
      · obtain rfl := Option.some.inj hp
        unfold hookOf
        rw [htenant]
        exact htarget
      · exact h.own d hd htenant p hp
    case per =>
      refine ⟨fun url hurl _ => Or.inr ⟨post, rfl, ?_⟩, ?_, h.per⟩
      · have hhook : s.hookOf c = some url := hurl
        have htarget' := howner (by rw [hhook]; exact Option.some_ne_none url)
        rw [htarget, hhook] at htarget'
        exact Option.some.inj htarget'
      · rintro ⟨d, hd, hsame, hpost⟩
        exact absurd (hunposted d hd hsame) hpost
  · obtain ⟨hnone, -⟩ := h.unposted hready hmarked
    rw [hanswer]
    refine h.silent ?_ fun hhook haccepted => ?_
    · dsimp only [Store.unmark]
      rw [← hnone, Function.update_eq_self]
    · -- the receiver accepts, so nothing failed
      exfalso
      rcases hfail with hmissing | hrefused
      · rw [howner hhook] at hmissing
        exact hhook hmissing
      · rw [hrefused] at haccepted
        exact absurd haccepted (by decide)
  · exact absurd (raises_of_deliverWebhook hraised) (hready.handled htarget)

/-- In every run whose alerts line up with their keys, each transition whose webhook is configured and
accepts is delivered, and once. -/
theorem per_transition {hooks : BudgetKey → Hook} {ops : List DeliveryOp}
    (haligned : Guarded (step sha256 maxRetries) (Aligned sha256 maxRetries)
      ⟨{ hooks }, []⟩ ops)
    (hrun : run (step sha256 maxRetries) ⟨{ hooks }, []⟩ ops = some s) :
    PerTransition s.history := by
  have hinit : Inv sha256 ⟨{ hooks }, []⟩ :=
    ⟨fun _ _ hkey => absurd hkey (Option.some_ne_none _).symm,
      fun _ hd => absurd hd List.not_mem_nil, fun _ hd => absurd hd List.not_mem_nil, trivial⟩
  refine (guarded_invariant (P := Inv sha256) (fun u op v hu hok hstep => ?_) hinit haligned hrun).per
  cases op with
  | configure r tenantId customerId url secret =>
    obtain rfl := Option.some.inj hstep
    exact hu.configure
  | consume c e => exact inv_consume hu hok hstep

/-- SHA-256 on the transitions of the first window of `c1` and of `c2`. -/
def sampleSha256 (text : String) : String :=
  if text = "c1|BUDGET_EXHAUSTED|0|" then
    "ba519f1d80249e3f7bd23116566093873cebf9d24ec3d6a84fbcc5a0972468b9"
  else "3de4735f296e3d1f6c811c22fe914dab79a53b9088245fb78a6f9e3cf1f8081a"

/-- A budget of the customer `c1`. -/
def budgetOf (tenant : Option String) : Redis :=
  { budgets := fun k => if k = ⟨tenant, "c1"⟩ then { balanceUsd := some 10 } else {} }

/-- A window of `c1` that exhausts its budget. -/
def exhausting (tenantId : Option String) (modelId : String) : Consumed :=
  .sent { customerId := some "c1", tenantId, modelId := some modelId, windowEnd := 10000 } 10
    .budgetExhausted 0

/-- The receiver answers with these status codes. -/
def answering (now : ℤ) (statuses : List ℕ) : Surroundings :=
  ⟨now, fun i => (statuses[i]?.map .response).getD .httpError⟩

/-- The receiver is down for one alert, which comes again twice. -/
theorem per_transition_retried : ∃ s, run (step sampleSha256 3) ⟨{ hooks := fun _ => {} }, []⟩
      [.configure (budgetOf none) none "c1" "https://a" none,
        .consume (exhausting none "m") (answering 10 [503, 503, 503]),
        .consume (exhausting none "m") (answering 40 [503, 200]),
        .consume (exhausting none "m") (answering 70 [200])] = some s ∧
    s.history.map (fun d => d.post.map Post.url) = [none, some "https://a", none] ∧
    PerTransition s.history := by
  have haligned : Guarded (step sampleSha256 3) (Aligned sampleSha256 3) ⟨{ hooks := fun _ => {} }, []⟩
      [.configure (budgetOf none) none "c1" "https://a" none,
        .consume (exhausting none "m") (answering 10 [503, 503, 503]),
        .consume (exhausting none "m") (answering 40 [503, 200]),
        .consume (exhausting none "m") (answering 70 [200])] := by
    decide +kernel
  exact ⟨_, rfl, by decide +kernel, per_transition haligned rfl⟩

/-- The webhook of `c1` is configured. -/
def hooked : Store := { hooks := Function.update (fun _ => {}) ⟨none, "c1"⟩ { url := some "https://a" } }

/-- The webhook of a tenant is not found; a second model of the same window is taken for a
redelivery; and so is an alert whose first delivery raised. -/
theorem not_per_transition :
    (∀ sha256, ∃ s, run (step sha256 3) {}
        [.configure (budgetOf (some "t1")) (some "t1") "c1" "https://a" none,
          .consume (exhausting (some "t1") "m") (answering 10 [200])] = some s ∧
      ¬ PerTransition s.history) ∧
    (∀ sha256, ∃ s, run (step sha256 3) {}
        [.configure (budgetOf none) none "c1" "https://a" none,
          .consume (exhausting none "m1") (answering 10 [200]),
          .consume (exhausting none "m2") (answering 11 [200])] = some s ∧
      ¬ PerTransition s.history) ∧
    ∀ sha256, ∃ s, run (step sha256 3) {}
        [.configure (budgetOf none) none "c1" "https://a" none,
          .consume (exhausting none "m") ⟨10, fun _ => .raised⟩,
          .consume (exhausting none "m") (answering 40 [200])] = some s ∧
      ¬ PerTransition s.history := by
  refine ⟨fun sha256 => ⟨_, rfl, fun h => ?_⟩, fun sha256 => ⟨_, rfl, fun h => ?_⟩,
    fun sha256 => ⟨_, rfl, fun h => ?_⟩⟩
  · obtain ⟨d, hd, -⟩ | ⟨p, hp, -⟩ := h.1 "https://a" rfl rfl
    · cases hd
    · cases (show (none : Option Post) = some p from hp)
  · have hskipped := @processAlert_marked sha256 3
      (hooked.mark (transitionKey sha256 (exhausting none "m1").alert) 10)
      (exhausting none "m2").alert (answering 11 [200]) (mark_marked _ _ (by decide))
    obtain ⟨d, hd, hsame, -⟩ | ⟨p, hp, -⟩ := h.1 "https://a" rfl rfl
    · obtain rfl := List.mem_singleton.mp hd
      have hmodel := congrArg BudgetTransition.modelId hsame
      exact absurd hmodel (show some "m1" ≠ some "m2" by decide)
    · cases (congrArg (fun r => r.2.post) hskipped).symm.trans hp
  · have hskipped := @processAlert_marked sha256 3
      (hooked.mark (transitionKey sha256 (exhausting none "m").alert) 10)
      (exhausting none "m").alert (answering 40 [200]) (mark_marked _ _ (by decide))
    obtain ⟨d, hd, -, p, hp, -⟩ | ⟨p, hp, -⟩ := h.1 "https://a" rfl rfl
    · obtain rfl := List.mem_singleton.mp hd
      cases (show (none : Option Post) = some p from hp)
    · cases (congrArg (fun r => r.2.post) hskipped).symm.trans hp

end Deliveries

end FluxMeter.Api.Webhooks
