import FluxMeter.Api.Auth
import FluxMeter.Transition.Keyed
import FluxMeter.Transition.Runs
import Mathlib.Algebra.Order.Field.Rat

/-! Revocations and caps of one customer API key: `revoke_customer_api_key`, `set_api_key_budget` and
`resolve_key_context` of any number of clients, command by command on the text `apikey:meta:{key_id}`
that holds both the flag and the caps. -/
namespace FluxMeter.Api.KeyRevocation
open FluxMeter.Custody Transition

/-- The text under `apikey:meta:{key_id}`. -/
structure KeyMeta where
  customerId : Option String
  revoked : Bool := false
  dailyBudgetUsd : Option ℚ := none
  monthlyBudgetUsd : Option ℚ := none
  deriving DecidableEq

inductive Client
  | idle
  /-- A revocation that has read the text. -/
  | revoking (info : KeyMeta)
  /-- A revocation that has written it. -/
  | removing (customerId : Option String)
  /-- A `set_api_key_budget` that has read the text. -/
  | budgeting (info : KeyMeta) (dailyBudgetUsd monthlyBudgetUsd : Option ℚ)
  /-- A `resolve_key_context` that has read the record of the key. -/
  | resolving
  deriving DecidableEq

structure State where
  storedMeta : Option KeyMeta
  /-- The key is among the keys of its customer. -/
  listed : Bool := true
  clients : ℕ → Client := fun _ => .idle

inductive Action
  /-- `GET` of a revocation. -/
  | revoke (client : ℕ)
  /-- `GET` of a `set_api_key_budget`. -/
  | setBudget (client : ℕ) (dailyBudgetUsd monthlyBudgetUsd : Option ℚ)
  /-- `SET` of either. -/
  | write (client : ℕ)
  /-- `SREM` of a revocation, which then returns true. -/
  | finish (client : ℕ)
  /-- `GET apikey:{hash}` of a `resolve_key_context`. -/
  | resolve (client : ℕ)
  /-- Its `GET` of the text. -/
  | answer (client : ℕ)
  deriving DecidableEq

/-- The text that a `set_api_key_budget` writes. -/
def KeyMeta.withBudget (info : KeyMeta) (daily monthly : Option ℚ) : KeyMeta :=
  { info with
    dailyBudgetUsd := daily.or info.dailyBudgetUsd
    monthlyBudgetUsd := monthly.or info.monthlyBudgetUsd }

/-- What a `resolve_key_context` answers; a record without `key_id` needs no text. -/
def answerOf (record : KeyRecord) (storedMeta : Option KeyMeta) : Option String × Option String :=
  if !Custody.given record.keyId then (record.customerId, record.keyId)
  else
    match storedMeta with
    | some info => if info.revoked then (none, none) else (record.customerId, record.keyId)
    | none => (record.customerId, record.keyId)

section Model
variable (record : KeyRecord)

/-- The commands; `record` is the text under `apikey:{hash}`, which no call changes. -/
def step (s : State) : Action → Option State
  | .revoke i =>
    match s.clients i with
    | .idle => some { s with
        clients := Function.update s.clients i
          (match s.storedMeta with
            | some info => .revoking info
            | none => .idle) }
    | _ => none
  | .setBudget i daily monthly =>
    match s.clients i with
    | .idle => some { s with
        clients := Function.update s.clients i
          (match s.storedMeta with
            | some info => .budgeting info daily monthly
            | none => .idle) }
    | _ => none
  | .write i =>
    match s.clients i with
    | .revoking info => some { s with
        storedMeta := some { info with revoked := true }
        clients := Function.update s.clients i (.removing info.customerId) }
    | .budgeting info daily monthly => some { s with
        storedMeta := some (info.withBudget daily monthly)
        clients := Function.update s.clients i .idle }
    | _ => none
  | .finish i =>
    match s.clients i with
    | .removing customerId => some { s with
        listed := if Custody.given customerId then false else s.listed
        clients := Function.update s.clients i .idle }
    | _ => none
  | .resolve i =>
    match s.clients i with
    | .idle => some { s with
        clients := Function.update s.clients i
          (if Custody.given record.keyId then .resolving else .idle) }
    | _ => none
  | .answer i =>
    match s.clients i with
    | .resolving => some { s with clients := Function.update s.clients i .idle }
    | _ => none

/-- The answer of the `resolve_key_context` that returns with the action. -/
def reply (s : State) : Action → Option (Option String × Option String)
  | .resolve i =>
    match s.clients i with
    | .idle => if Custody.given record.keyId then none else some (answerOf record s.storedMeta)
    | _ => none
  | .answer i =>
    match s.clients i with
    | .resolving => some (answerOf record s.storedMeta)
    | _ => none
  | _ => none

/-- The client whose `set_api_key_budget` returns with the action. -/
def setsBudget (s : State) : Action → Option ℕ
  | .write i =>
    match s.clients i with
    | .budgeting .. => some i
    | _ => none
  | _ => none

/-- A daily and a monthly cap, where they are given. -/
structure Caps where
  daily : Option ℚ := none
  monthly : Option ℚ := none
  deriving DecidableEq

/-- The caps that the latest calls were asked to set. -/
def Action.ask (asked : ℕ → Caps) : Action → ℕ → Caps
  | .setBudget i daily monthly => Function.update asked i ⟨daily, monthly⟩
  | _ => asked

/-- A call that returns sets the caps that it was given. -/
def setCaps (s : State) (asked : ℕ → Caps) (caps : Caps) (a : Action) : Caps :=
  match setsBudget s a with
  | some i => ⟨(asked i).daily.or caps.daily, (asked i).monthly.or caps.monthly⟩
  | none => caps

/-- The caps that the calls of a run that returned have set last. -/
def lastSet (s : State) (asked : ℕ → Caps) (caps : Caps) : List Action → Caps
  | [] => caps
  | a :: as =>
    match step record s a with
    | some t => lastSet t (a.ask asked) (setCaps s asked caps a) as
    | none => caps

/-- Once a revocation has returned true, whoever then reads the text is refused, and the caps that
the run has set last are in force. -/
structure Permanent (s : State) (as : List Action) (t : State) : Prop where
  resolved : ∀ before a rest u i answer, as = before ++ a :: rest →
    run (step record) s before = some u → Action.finish i ∈ before →
    reply record u a = some answer → answer = (none, none)
  daily : ∀ cap ∈ (lastSet record s (fun _ => {}) {} as).daily,
    ∃ info, t.storedMeta = some info ∧ info.dailyBudgetUsd = some cap
  monthly : ∀ cap ∈ (lastSet record s (fun _ => {}) {} as).monthly,
    ∃ info, t.storedMeta = some info ∧ info.monthlyBudgetUsd = some cap

end Model

/-- A resolution at one moment is that of the guards of the read endpoints. -/
theorem answerOf_eq (record : KeyRecord) (storedMeta : Option KeyMeta) (sha256 : String → String)
    {provided : String} (hprovided : provided ≠ "") :
    answerOf record storedMeta =
      resolveKeyContext sha256
        { apiKeys := Function.update (fun _ => none) (sha256 provided) (some (.record record))
          revoked := Function.update (fun _ => none) (record.keyId.getD "")
            (storedMeta.map fun info => .record info.revoked) } (some provided) := by
  have hprovided' : (!Custody.given (some provided)) = false := by simp [Custody.given, hprovided]
  unfold resolveKeyContext
  rw [hprovided', if_neg (by decide), Option.getD_some]
  dsimp only
  rw [Function.update_self]
  dsimp only
  rw [Function.update_self]
  unfold answerOf
  cases storedMeta with
  | none => rfl
  | some info =>
    obtain ⟨customerId, revoked, daily, monthly⟩ := info
    cases revoked <;> rfl

/-- No other call has changed, since the client read the text, what the client is about to write back:
the caps where it revokes, the flag and the caps that it does not set where it sets caps. -/
def Unchanged (storedMeta : Option KeyMeta) : Client → Prop
  | .revoking info => ∃ now ∈ storedMeta,
      now.dailyBudgetUsd = info.dailyBudgetUsd ∧ now.monthlyBudgetUsd = info.monthlyBudgetUsd
  | .budgeting info daily monthly => ∃ now ∈ storedMeta, now.revoked = info.revoked ∧
      (daily = none → now.dailyBudgetUsd = info.dailyBudgetUsd) ∧
      (monthly = none → now.monthlyBudgetUsd = info.monthlyBudgetUsd)
  | _ => True

instance (storedMeta : Option KeyMeta) : DecidablePred (Unchanged storedMeta)
  | .revoking _ => inferInstanceAs (Decidable (∃ now ∈ storedMeta, _ ∧ _))
  | .budgeting .. => inferInstanceAs (Decidable (∃ now ∈ storedMeta, _ ∧ (_ → _) ∧ (_ → _)))
  | .idle | .removing _ | .resolving => isTrue trivial

/-- The texts that are written are put together from what is still stored. -/
def Current (s : State) : Action → Prop
  | .write i => Unchanged s.storedMeta (s.clients i)
  | _ => True

instance (s : State) : DecidablePred (Current s)
  | .write i => inferInstanceAs (Decidable (Unchanged s.storedMeta (s.clients i)))
  | .revoke _ | .setBudget .. | .finish _ | .resolve _ | .answer _ => isTrue trivial

/-- A revocation has written the text. -/
def Revoked (returned : Prop) (s : State) : Prop :=
  returned ∨ ∃ i customerId, s.clients i = .removing customerId

/-- What a run keeps: a call that sets caps has those that it was asked for, the text has the caps set
last, and it says revoked once a revocation has written it. -/
structure Kept (asked : ℕ → Caps) (caps : Caps) (returned : Prop) (s : State) : Prop where
  asked : ∀ i info daily monthly, s.clients i = .budgeting info daily monthly → asked i = ⟨daily, monthly⟩
  daily : ∀ cap ∈ caps.daily, ∃ info, s.storedMeta = some info ∧ info.dailyBudgetUsd = some cap
  monthly : ∀ cap ∈ caps.monthly, ∃ info, s.storedMeta = some info ∧ info.monthlyBudgetUsd = some cap
  revoked : Revoked returned s → ∃ info, s.storedMeta = some info ∧ info.revoked = true

section Step
variable {record : KeyRecord} {asked : ℕ → Caps} {caps : Caps} {returned : Prop} {s t : State}

theorem kept_idle (asked : ℕ → Caps) (h : ∀ i, s.clients i = .idle) : Kept asked {} False s where
  asked i info daily monthly hclient := by
    rw [h] at hclient
    cases hclient
  daily cap hcap := by cases hcap
  monthly cap hcap := by cases hcap
  revoked hdone := by
    rcases hdone with hdone | ⟨i, customerId, hclient⟩
    · exact hdone.elim
    · rw [h] at hclient
      cases hclient

/-- A client that does not remove the key has not just written the flag. -/
theorem Revoked.of_client {r : Option KeyMeta} {i : ℕ} {client : Client} {listed : Bool}
    (hremoving : ∀ customerId, client ≠ .removing customerId)
    (h : Revoked returned ⟨r, listed, Function.update s.clients i client⟩) : Revoked returned s := by
  rcases h with h | ⟨j, customerId, hclient⟩
  · exact Or.inl h
  · rcases of_update_eq hclient with ⟨-, hnew⟩ | hbefore
    · exact absurd hnew (hremoving customerId)
    · exact Or.inr ⟨j, customerId, hbefore⟩

/-- A call that begins or returns leaves the text alone. -/
theorem Kept.client (h : Kept asked caps returned s) {i : ℕ} {client : Client} {listed : Bool}
    (hremoving : ∀ customerId, client ≠ .removing customerId)
    (hasked : ∀ info daily monthly, client = .budgeting info daily monthly → asked i = ⟨daily, monthly⟩) :
    Kept asked caps returned ⟨s.storedMeta, listed, Function.update s.clients i client⟩ where
  asked j info daily monthly hclient := by
    rcases of_update_eq hclient with ⟨rfl, hnew⟩ | hbefore
    · exact hasked info daily monthly hnew
    · exact h.asked j info daily monthly hbefore
  daily := h.daily
  monthly := h.monthly
  revoked hdone := h.revoked (hdone.of_client hremoving)

/-- The `SET` of a revocation keeps the caps and sets the flag. -/
theorem Kept.revoke (h : Kept asked caps returned s) {i : ℕ} {info : KeyMeta}
    (hunchanged : Unchanged s.storedMeta (.revoking info)) :
    Kept asked caps returned { s with
      storedMeta := some { info with revoked := true }
      clients := Function.update s.clients i (.removing info.customerId) } := by
  obtain ⟨now, hnow, hdaily, hmonthly⟩ := hunchanged
  refine ⟨fun j info' daily monthly hclient => ?_, fun cap hcap => ?_, fun cap hcap => ?_,
    fun _ => ⟨_, rfl, rfl⟩⟩
  · rcases of_update_eq hclient with ⟨-, hnew⟩ | hbefore
    · cases hnew
    · exact h.asked j info' daily monthly hbefore
  · obtain ⟨info', hinfo', hcap'⟩ := h.daily cap hcap
    obtain rfl := Option.some.inj (hnow.symm.trans hinfo')
    exact ⟨_, rfl, hdaily ▸ hcap'⟩
  · obtain ⟨info', hinfo', hcap'⟩ := h.monthly cap hcap
    obtain rfl := Option.some.inj (hnow.symm.trans hinfo')
    exact ⟨_, rfl, hmonthly ▸ hcap'⟩

/-- The `SET` of the caps keeps the flag and the cap that was not given. -/
theorem Kept.setBudget (h : Kept asked caps returned s) {i : ℕ} {info : KeyMeta}
    {daily monthly : Option ℚ} (hunchanged : Unchanged s.storedMeta (.budgeting info daily monthly)) :
    Kept asked ⟨daily.or caps.daily, monthly.or caps.monthly⟩ returned { s with
      storedMeta := some (info.withBudget daily monthly)
      clients := Function.update s.clients i .idle } := by
  obtain ⟨now, hnow, hrevoked, hdaily, hmonthly⟩ := hunchanged
  refine ⟨fun j info' daily' monthly' hclient => ?_, fun cap hcap => ⟨_, rfl, ?_⟩,
    fun cap hcap => ⟨_, rfl, ?_⟩, fun hdone => ?_⟩
  · rcases of_update_eq hclient with ⟨-, hnew⟩ | hbefore
    · cases hnew
    · exact h.asked j info' daily' monthly' hbefore
  · cases daily with
    | some d => exact hcap
    | none =>
      obtain ⟨info', hinfo', hcap'⟩ := h.daily cap hcap
      obtain rfl := Option.some.inj (hnow.symm.trans hinfo')
      exact (hdaily rfl).symm.trans hcap'
  · cases monthly with
    | some d => exact hcap
    | none =>
      obtain ⟨info', hinfo', hcap'⟩ := h.monthly cap hcap
      obtain rfl := Option.some.inj (hnow.symm.trans hinfo')
      exact (hmonthly rfl).symm.trans hcap'
  · obtain ⟨info', hinfo', htrue⟩ := h.revoked (hdone.of_client (by simp))
    obtain rfl := Option.some.inj (hnow.symm.trans hinfo')
    exact ⟨_, rfl, hrevoked ▸ htrue⟩

theorem Kept.weaken {returned' : Prop} (h : Kept asked caps returned s) (hreturned : returned' → returned) :
    Kept asked caps returned' s :=
  ⟨h.asked, h.daily, h.monthly, fun hdone => h.revoked (hdone.imp_left hreturned)⟩

theorem kept_step (h : Kept asked caps returned s) {a : Action} (hcurrent : Current s a)
    (hstep : step record s a = some t) :
    Kept (a.ask asked) (setCaps s asked caps a) (returned ∨ ∃ i, a = .finish i) t := by
  cases a with
  | write i =>
    refine Kept.weaken ?_ fun hdone => hdone.resolve_right (by simp)
    have hunchanged : Unchanged s.storedMeta (s.clients i) := hcurrent
    unfold step at hstep
    unfold setCaps setsBudget
    dsimp only at hstep ⊢
    cases hclient : s.clients i with
    | revoking info =>
      rw [hclient] at hstep hunchanged
      obtain rfl := Option.some.inj hstep
      exact h.revoke hunchanged
    | budgeting info daily monthly =>
      rw [hclient] at hstep hunchanged
      obtain rfl := Option.some.inj hstep
      dsimp only
      rw [h.asked i info daily monthly hclient]
      exact h.setBudget hunchanged
    | _ =>
      rw [hclient] at hstep
      cases hstep
  | finish i =>
    unfold step at hstep
    dsimp only at hstep
    split at hstep
    next customerId hclient =>
      obtain rfl := Option.some.inj hstep
      have hidle : Kept asked caps returned
          ⟨s.storedMeta, if Custody.given customerId then false else s.listed,
            Function.update s.clients i .idle⟩ := h.client (by simp) (by simp)
      exact ⟨hidle.asked, h.daily, h.monthly, fun _ => h.revoked (Or.inr ⟨i, customerId, hclient⟩)⟩
    next => cases hstep
  | setBudget i daily monthly =>
    refine Kept.weaken ?_ fun hdone => hdone.resolve_right (by simp)
    unfold step at hstep
    dsimp only at hstep
    split at hstep
    next hidle =>
      obtain rfl := Option.some.inj hstep
      have hasks : Kept (Function.update asked i ⟨daily, monthly⟩) caps returned s := by
        refine ⟨fun j info daily' monthly' hclient => ?_, h.daily, h.monthly, h.revoked⟩
        rw [Function.update_of_ne]
        · exact h.asked j info daily' monthly' hclient
        · rintro rfl
          rw [hidle] at hclient
          cases hclient
      refine hasks.client (fun customerId => ?_) fun info daily' monthly' hnext => ?_
      · split <;> simp
      · split at hnext
        next => cases hnext; exact Function.update_self i _ asked
        next => cases hnext
    next => cases hstep
  | revoke i =>
    refine Kept.weaken ?_ fun hdone => hdone.resolve_right (by simp)
    unfold step at hstep
    dsimp only at hstep
    split at hstep
    next =>
      obtain rfl := Option.some.inj hstep
      refine h.client (fun customerId => ?_) fun info daily monthly hnext => ?_
      · split <;> simp
      · split at hnext <;> cases hnext
    next => cases hstep
  | resolve i =>
    refine Kept.weaken ?_ fun hdone => hdone.resolve_right (by simp)
    unfold step at hstep
    dsimp only at hstep
    split at hstep
    next =>
      obtain rfl := Option.some.inj hstep
      refine h.client (fun customerId => ?_) fun info daily monthly hnext => ?_
      · split <;> simp
      · split at hnext <;> cases hnext
    next => cases hstep
  | answer i =>
    refine Kept.weaken ?_ fun hdone => hdone.resolve_right (by simp)
    unfold step at hstep
    dsimp only at hstep
    split at hstep
    next =>
      obtain rfl := Option.some.inj hstep
      exact h.client (by simp) (by simp)
    next => cases hstep

theorem kept_run {as : List Action} (h : Kept asked caps returned s)
    (hcurrent : Guarded (step record) Current s as) (hrun : run (step record) s as = some t) :
    ∃ asked', Kept asked' (lastSet record s asked caps as)
      (returned ∨ ∃ i, Action.finish i ∈ as) t := by
  induction as generalizing s asked caps returned with
  | nil =>
    obtain rfl := Option.some.inj hrun
    exact ⟨asked, h.weaken (Or.rec id (by simp))⟩
  | cons a as ih =>
    obtain ⟨u, hu, hrest⟩ := run_cons_eq_some.mp hrun
    obtain ⟨asked', hkept⟩ := ih (kept_step h hcurrent.1 hu) (hcurrent.2 u hu) hrest
    refine ⟨asked', ?_⟩
    rw [lastSet, hu]
    refine hkept.weaken ?_
    rintro (hdone | ⟨i, hmem⟩)
    · exact Or.inl (Or.inl hdone)
    · rcases List.mem_cons.mp hmem with heq | hmem
      · exact Or.inl (Or.inr ⟨i, heq.symm⟩)
      · exact Or.inr ⟨i, hmem⟩

private theorem reply_of_revoked (hkey : Custody.given record.keyId = true) {info : KeyMeta}
    (hstored : s.storedMeta = some info) (hrevoked : info.revoked = true) {a : Action}
    {answer : Option String × Option String} (hreply : reply record s a = some answer) :
    answer = (none, none) := by
  have hanswer : answerOf record s.storedMeta = (none, none) := by
    unfold answerOf
    rw [hkey, hstored]
    exact if_pos hrevoked
  unfold reply at hreply
  split at hreply
  next =>
    split at hreply
    next => rw [if_pos hkey] at hreply; cases hreply
    next => cases hreply
  next =>
    split at hreply
    next => exact (Option.some.inj hreply).symm.trans hanswer
    next => cases hreply
  next => cases hreply

end Step

/-- In every run in which each call writes back what is current, revocations are permanent and caps
stay in force. -/
theorem revocation_permanent (record : KeyRecord) (hkey : Custody.given record.keyId = true)
    {s t : State} {as : List Action} (hidle : ∀ i, s.clients i = .idle)
    (hcurrent : Guarded (step record) Current s as) (hrun : run (step record) s as = some t) :
    Permanent record s as t where
  resolved before a rest u i answer has hbefore hfinish hreply := by
    subst has
    obtain ⟨asked, hkept⟩ := kept_run (kept_idle (fun _ => {}) hidle) hcurrent.append.1 hbefore
    obtain ⟨info, hstored, hrevoked⟩ := hkept.revoked (Or.inl (Or.inr ⟨i, hfinish⟩))
    exact reply_of_revoked hkey hstored hrevoked hreply
  daily := by
    obtain ⟨asked, hkept⟩ := kept_run (kept_idle (fun _ => {}) hidle) hcurrent hrun
    exact hkept.daily
  monthly := by
    obtain ⟨asked, hkept⟩ := kept_run (kept_idle (fun _ => {}) hidle) hcurrent hrun
    exact hkept.monthly

/-- A key of the customer `c1`. -/
def recordOfC1 : KeyRecord := ⟨some "c1", some "k1"⟩

/-- The key as it was created, and nothing under way. -/
def created : State := { storedMeta := some { customerId := some "c1" } }

theorem revocation_permanent_serial :
    let calls := [Action.setBudget 0 (some 5) none, .write 0, .revoke 1, .write 1, .finish 1,
      .resolve 2, .answer 2]
    ∃ t, run (step recordOfC1) created calls = some t ∧ Permanent recordOfC1 created calls t := by
  intro calls
  obtain ⟨t, hrun⟩ : ∃ t, run (step recordOfC1) created calls = some t :=
    Option.isSome_iff_exists.mp (by decide +kernel)
  exact ⟨t, hrun, revocation_permanent recordOfC1 (by decide) (fun _ => rfl) (by decide +kernel) hrun⟩

/-- A call that sets a cap reads the text before a revocation writes it and writes it back after the
revocation has returned: the key resolves again. And a revocation that reads the text before a cap is
set writes it back without the cap. -/
theorem not_revocation_permanent :
    let revived := [Action.setBudget 0 (some 5) none, .revoke 1, .write 1, .finish 1, .write 0, .resolve 2]
    let dropped := [Action.revoke 1, .setBudget 0 (some 5) none, .write 0, .write 1]
    (∀ i, created.clients i = .idle) ∧
    ((run (step recordOfC1) created revived).bind fun u => reply recordOfC1 u (.answer 2)) =
      some (some "c1", some "k1") ∧
    lastSet recordOfC1 created (fun _ => {}) {} dropped = ⟨some 5, none⟩ ∧
    ((run (step recordOfC1) created dropped).bind State.storedMeta).map KeyMeta.dailyBudgetUsd =
      some none := by
  intro revived dropped
  exact ⟨fun _ => rfl, by decide +kernel, by decide +kernel, by decide +kernel⟩

end FluxMeter.Api.KeyRevocation
