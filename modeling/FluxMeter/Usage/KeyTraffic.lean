import FluxMeter.Usage.ApiKeyCaps
import FluxMeter.Usage.BillingMonotone
import Mathlib.Algebra.BigOperators.Group.List.Basic
import Mathlib.Data.List.Perm.Basic

/-! Calls of API keys that are checked first and whose events reach the sinks later, in any order: how
far a key gets over a cap. -/
namespace FluxMeter.Usage
open FluxMeter.Budget FluxMeter.Keys FluxMeter.Model Transition

/-- A call of a key: what its check is asked, and the event that it is billed with. -/
structure KeyCall where
  keyId : String
  estimate : ℚ
  nowMs : ℤ
  event : TokenEvent

/-- The call costs what it was checked for at most, in the day of its check. -/
structure KeyCall.Covered (P : Projection) (before : TokenEvent → ℤ) (c : KeyCall) : Prop where
  key : c.event.apiKeyId = some c.keyId
  cost : eventCost P before c.event ≤ max c.estimate 0
  day : dayUtc (Projection.accountingTime c.event) = dayUtc c.nowMs

/-- The store, and the calls that were let through and whose events are still to come. -/
structure KeyTraffic where
  store : Keyspace
  underWay : List KeyCall := []

inductive KeyAction
  /-- The check of a call. -/
  | check (c : KeyCall)
  /-- The event of a call under way is projected. -/
  | project (i : ℕ) (clock : String)
  /-- A call under way ends without an event. -/
  | drop (i : ℕ)
  /-- A window, an event without an API key, or a replay. -/
  | sink (a : SinkStep)

namespace KeyTraffic
variable (P : Projection) (before : TokenEvent → ℤ) (caps : String → Option ApiKeyCaps)

/-- The step is no first projection of an event of a key. -/
def Unkeyed (s : Keyspace) : SinkStep → Prop
  | .window _ => True
  | .event e clock => e.apiKeyId = none ∨ (SinkStep.event e clock).skipped P s = true

instance (s : Keyspace) : DecidablePred (Unkeyed P s)
  | .window _ => isTrue trivial
  | .event _ _ => inferInstanceAs (Decidable (_ ∨ _))

def step (w : KeyTraffic) : KeyAction → Option KeyTraffic
  | .check c =>
    match checkApiKeyBudget (desk caps w.store) c.keyId c.estimate c.nowMs with
    | some _ => some w
    | none => some { w with underWay := c :: w.underWay }
  | .project i clock =>
    (w.underWay[i]?).map fun c =>
      { store := (SinkStep.event c.event clock).run P before w.store
        underWay := w.underWay.eraseIdx i }
  | .drop i => (w.underWay[i]?).map fun _ => { w with underWay := w.underWay.eraseIdx i }
  | .sink a =>
    if Unkeyed P w.store a then some { w with store := a.run P before w.store } else none

def Asks (keyId : String) (p : CapPeriod) (period : String) (c : KeyCall) : Prop :=
  c.keyId = keyId ∧ p.text c.nowMs = period

instance (keyId : String) (p : CapPeriod) (period : String) :
    DecidablePred (Asks keyId p period) := fun _ => inferInstanceAs (Decidable (_ ∧ _))

/-- What the calls under way were checked for. -/
def underWayUsd (w : KeyTraffic) (keyId : String) (p : CapPeriod) (period : String) : ℚ :=
  ((w.underWay.filter fun c => Asks keyId p period c).map fun c => max c.estimate 0).sum

instance (c : KeyCall) : Decidable (c.Covered P before) :=
  decidable_of_iff (c.event.apiKeyId = some c.keyId ∧ eventCost P before c.event ≤ max c.estimate 0 ∧
      dayUtc (Projection.accountingTime c.event) = dayUtc c.nowMs)
    ⟨fun ⟨key, cost, day⟩ => ⟨key, cost, day⟩, fun ⟨key, cost, day⟩ => ⟨key, cost, day⟩⟩

/-- Every call is covered, and those of the key in the period that are under way when one more is
checked were checked for `bound` at most. -/
def Bounded (keyId : String) (p : CapPeriod) (period : String) (bound : ℚ) (w : KeyTraffic) :
    KeyAction → Prop
  | .check c => c.Covered P before ∧
      (Asks keyId p period c → w.underWayUsd keyId p period ≤ bound)
  | _ => True

instance (keyId : String) (p : CapPeriod) (period : String) (bound : ℚ) (w : KeyTraffic) :
    DecidablePred (Bounded P before keyId p period bound w)
  | .check _ => inferInstanceAs (Decidable (_ ∧ _))
  | .project _ _ | .drop _ | .sink _ => isTrue trivial

variable {P before caps} {keyId period : String} {p : CapPeriod} {w w' : KeyTraffic} {bound : ℚ}

theorem text_eq {c : KeyCall} (h : c.Covered P before) (p : CapPeriod) :
    p.text (Projection.accountingTime c.event) = p.text c.nowMs := by
  cases p with
  | day => exact h.day
  | month =>
    have hstarts : (monthUtc c.nowMs).toList <+: (dayUtc c.nowMs).toList :=
      monthUtc_prefix_dayUtc.mpr rfl
    rw [← h.day] at hstarts
    exact monthUtc_prefix_dayUtc.mp hstarts

theorem ofKey_iff {c : KeyCall} (h : c.Covered P before) :
    OfKey keyId p period c.event ↔ Asks keyId p period c := by
  unfold OfKey Asks
  rw [h.key, text_eq h, Option.some.injEq]

theorem spentUsd_event (hperiod : ':' ∉ period.toList) (s : Keyspace) (e : TokenEvent)
    (clock : String) : spentUsd ((SinkStep.event e clock).run P before s) keyId p period =
      spentUsd s keyId p period +
        if (SinkStep.event e clock).skipped P s = false ∧ OfKey keyId p period e then
          eventCost P before e else 0 := by
  have hrun := @spentUsd_run P before s [.event e clock] keyId period p hperiod
  refine hrun.trans (congrArg _ ?_)
  unfold keyEvents ran
  cases hskipped : (SinkStep.event e clock).skipped P s with
  | true =>
    rw [if_pos rfl, if_neg fun h => by cases h.1]
    rfl
  | false =>
    have hevents : projectedEvents (.event e clock :: ran P before
        ((SinkStep.event e clock).run P before s) []) = [e] := rfl
    rw [if_neg Bool.false_ne_true, hevents]
    by_cases hkey : OfKey keyId p period e
    · rw [if_pos ⟨rfl, hkey⟩, List.filter_cons_of_pos (by simpa using hkey)]
      simp
    · rw [if_neg fun h => hkey h.2, List.filter_cons_of_neg (by simpa using hkey)]
      rfl

theorem spentUsd_sink (hperiod : ':' ∉ period.toList) {s : Keyspace} {a : SinkStep}
    (h : Unkeyed P s a) :
    spentUsd (a.run P before s) keyId p period = spentUsd s keyId p period := by
  cases a with
  | window agg =>
    have hrun := @spentUsd_run P before s [.window agg] keyId period p hperiod
    refine hrun.trans ?_
    have hnone : keyEvents P before s [.window agg] keyId p period = [] := by
      unfold keyEvents ran
      split_ifs <;> rfl
    rw [hnone, List.map_nil, List.sum_nil, add_zero]
  | event e clock =>
    rw [spentUsd_event hperiod, if_neg, add_zero]
    rintro ⟨hfresh, hkey, -⟩
    rcases h with hnone | hskipped
    · rw [hnone] at hkey
      cases hkey
    · rw [hfresh] at hskipped
      cases hskipped

theorem underWayUsd_erase {i : ℕ} {c : KeyCall} (hc : w.underWay[i]? = some c) (s : Keyspace) :
    w.underWayUsd keyId p period = (if Asks keyId p period c then max c.estimate 0 else 0) +
      underWayUsd { store := s, underWay := w.underWay.eraseIdx i } keyId p period := by
  obtain ⟨hi, rfl⟩ := List.getElem?_eq_some_iff.mp hc
  have hperm := (List.getElem_cons_eraseIdx_perm hi).symm
  unfold underWayUsd
  rw [((hperm.filter _).map _).sum_eq]
  by_cases hasks : Asks keyId p period w.underWay[i]
  · rw [if_pos hasks, List.filter_cons_of_pos (by simpa using hasks), List.map_cons, List.sum_cons]
  · rw [if_neg hasks, List.filter_cons_of_neg (by simpa using hasks), zero_add]

/-- What a run keeps: the calls under way are covered, and what the key has spent and what its calls
under way were checked for stay within `limit`. -/
structure Within (P : Projection) (before : TokenEvent → ℤ) (keyId : String) (p : CapPeriod)
    (period : String) (limit : ℚ) (w : KeyTraffic) : Prop where
  covered : ∀ c ∈ w.underWay, c.Covered P before
  limit : spentUsd w.store keyId p period + w.underWayUsd keyId p period ≤ limit

theorem within_check {limit cap : ℚ} {k : ApiKeyCaps} (hk : caps keyId = some k)
    (hcap : p.cap k = some cap) (hlimit : cap + bound ≤ limit)
    (h : Within P before keyId p period limit w) {c : KeyCall}
    (hok : Bounded P before keyId p period bound w (.check c))
    (hstep : step P before caps w (.check c) = some w') : Within P before keyId p period limit w' := by
  obtain ⟨hcovered, hbound⟩ := hok
  unfold step at hstep
  dsimp only at hstep
  split at hstep
  · cases hstep
    exact h
  next hallowed =>
    cases hstep
    constructor
    case covered => exact List.forall_mem_cons.mpr ⟨hcovered, h.covered⟩
    case limit =>
      show spentUsd w.store keyId p period + ((List.filter _ (c :: w.underWay)).map _).sum ≤ limit
      by_cases hasks : Asks keyId p period c
      · rw [List.filter_cons_of_pos (by simpa using hasks), List.map_cons, List.sum_cons]
        obtain ⟨rfl, rfl⟩ := hasks
        have hfits := fits_of_allowed hallowed hk p hcap
        have hrest : ((w.underWay.filter fun c' => Asks c.keyId p (p.text c.nowMs) c').map
            fun c' => max c'.estimate 0).sum ≤ bound := hbound ⟨rfl, rfl⟩
        linarith
      · rw [List.filter_cons_of_neg (by simpa using hasks)]
        exact h.limit

private theorem within_project (hperiod : ':' ∉ period.toList) {limit : ℚ}
    (h : Within P before keyId p period limit w) {i : ℕ} {clock : String}
    (hstep : step P before caps w (.project i clock) = some w') :
    Within P before keyId p period limit w' := by
  obtain ⟨c, hc, rfl⟩ := Option.map_eq_some_iff.mp hstep
  have hcovered := h.covered c (List.mem_of_getElem? hc)
  constructor
  case covered => exact fun c' hc' => h.covered c' (List.mem_of_mem_eraseIdx hc')
  case limit =>
    have hsum := @underWayUsd_erase keyId period p w i c hc
      ((SinkStep.event c.event clock).run P before w.store)
    have hspent : (if (SinkStep.event c.event clock).skipped P w.store = false ∧
        OfKey keyId p period c.event then eventCost P before c.event else 0) ≤
        if Asks keyId p period c then max c.estimate 0 else 0 := by
      by_cases hasks : Asks keyId p period c
      · rw [if_pos hasks]
        split_ifs
        · exact hcovered.cost
        · exact le_max_right _ _
      · rw [if_neg hasks, if_neg fun hboth => hasks ((ofKey_iff hcovered).mp hboth.2)]
    have hlimit := h.limit
    rw [hsum] at hlimit
    rw [spentUsd_event hperiod]
    linarith

private theorem within_drop {limit : ℚ} (h : Within P before keyId p period limit w) {i : ℕ}
    (hstep : step P before caps w (.drop i) = some w') : Within P before keyId p period limit w' := by
  obtain ⟨c, hc, rfl⟩ := Option.map_eq_some_iff.mp hstep
  constructor
  case covered => exact fun c' hc' => h.covered c' (List.mem_of_mem_eraseIdx hc')
  case limit =>
    have hsum := @underWayUsd_erase keyId period p w i c hc w.store
    have hestimate : 0 ≤ if Asks keyId p period c then max c.estimate 0 else 0 := by
      split_ifs
      · exact le_max_right _ _
      · exact le_rfl
    have hlimit := h.limit
    rw [hsum] at hlimit
    show spentUsd w.store keyId p period + _ ≤ limit
    linarith

/-- However the checks of a key, the events and the ends of its calls, windows and replays follow each
other: what the key has spent in a period, with what its calls under way were checked for, gets over
the cap by what was under way at a check at most. -/
theorem api_key_overrun {s : Keyspace} {actions : List KeyAction} {k : ApiKeyCaps} {cap : ℚ}
    (hrun : run (step P before caps) { store := s } actions = some w) (hk : caps keyId = some k)
    (hcap : p.cap k = some cap) (t : ℤ)
    (hguard : Guarded (step P before caps) (Bounded P before keyId p (p.text t) bound)
      { store := s } actions) :
    spentUsd w.store keyId p (p.text t) + w.underWayUsd keyId p (p.text t) ≤
      max (spentUsd s keyId p (p.text t)) (cap + bound) := by
  have hwithin : Within P before keyId p (p.text t)
      (max (spentUsd s keyId p (p.text t)) (cap + bound)) w := by
    refine guarded_invariant (fun w a w' h hok hstep => ?_) ?_ hguard hrun
    · cases a with
      | check c => exact within_check hk hcap (le_max_right _ _) h hok hstep
      | project i clock => exact within_project (colon_notMem_text p t) h hstep
      | drop i => exact within_drop h hstep
      | sink a =>
        unfold step at hstep
        dsimp only at hstep
        split_ifs at hstep with hunkeyed
        cases hstep
        refine ⟨h.covered, ?_⟩
        show spentUsd (a.run P before w.store) keyId p (p.text t) + w.underWayUsd keyId p _ ≤ _
        rw [spentUsd_sink (colon_notMem_text p t) hunkeyed]
        exact h.limit
    · refine ⟨List.forall_mem_nil _, ?_⟩
      show spentUsd s keyId p (p.text t) + 0 ≤ _
      rw [add_zero]
      exact le_max_left _ _
  exact hwithin.limit

/-- A call of the key `k1` for sixty cents. -/
def sixtyCents (eventId : String) : KeyCall where
  keyId := "k1"
  estimate := 3 / 5
  nowMs := 2000
  event := { usedTokens 600000 with eventId := some eventId, apiKeyId := some "k1" }

/-- Two calls of sixty cents are both checked before one is projected: a cap of a dollar does not
hold, but a dollar and sixty cents does. -/
theorem api_key_overrun_twice :
    let caps := fun _ => some { dailyBudgetUsd := some 1, monthlyBudgetUsd := none : ApiKeyCaps }
    let actions := [.check (sixtyCents "e1"), .check (sixtyCents "e2"), .project 1 "2000",
      .project 0 "2001"]
    ∃ w, run (step flatProjection (fun _ => 0) caps) { store := prepaid } actions = some w ∧
      spentUsd w.store "k1" .day (dayUtc 2000) = 6 / 5 ∧
      spentUsd w.store "k1" .day (dayUtc 2000) + w.underWayUsd "k1" .day (dayUtc 2000) ≤
        max (spentUsd prepaid "k1" .day (dayUtc 2000)) (1 + 3 / 5) := by
  intro caps actions
  have hruns : ((run (step flatProjection (fun _ => 0) caps) { store := prepaid } actions).map
      fun w => spentUsd w.store "k1" .day (dayUtc 2000)) = some (6 / 5) := by decide +kernel
  obtain ⟨w, hrun, hspent⟩ := Option.map_eq_some_iff.mp hruns
  have hguard : Guarded (step flatProjection (fun _ => 0) caps)
      (Bounded flatProjection (fun _ => 0) "k1" .day (dayUtc 2000) (3 / 5)) { store := prepaid }
      actions := by decide +kernel
  exact ⟨w, hrun, hspent, api_key_overrun hrun rfl rfl 2000 hguard⟩

end KeyTraffic

end FluxMeter.Usage
