import FluxMeter.Budget.Check
import FluxMeter.Transition.Runs
import FluxMeter.Usage.PeriodTotals

/-! The caps of an API key: what `check_api_key_budget` reads of a day and of a month is what the
events of the key cost, and how far a key can get over a cap while its calls are under way. -/
namespace FluxMeter.Usage
open FluxMeter.Budget FluxMeter.Keys FluxMeter.Model Collections Transition

/-! ### What a key has spent -/

/-- The periods that have a cap. -/
inductive CapPeriod
  | day
  | month
  deriving DecidableEq

namespace CapPeriod

def mark : CapPeriod → String
  | day => "d"
  | month => "m"

def text : CapPeriod → ℤ → String
  | day => dayUtc
  | month => monthUtc

def cap (caps : ApiKeyCaps) : CapPeriod → Option ℚ
  | day => caps.dailyBudgetUsd
  | month => caps.monthlyBudgetUsd

def reason : CapPeriod → String
  | day => "api_key_daily_budget"
  | month => "api_key_monthly_budget"

end CapPeriod

def spentKey (keyId : String) (p : CapPeriod) (period : String) : String :=
  "apikey:" ++ keyId ++ ":spent:" ++ p.mark ++ ":" ++ period

/-- The dollars that the store has for a key in a period. -/
def spentUsd (s : Keyspace) (keyId : String) (p : CapPeriod) (period : String) : ℚ :=
  number (s.usage.floats (spentKey keyId p period))

/-- The event is one of the key, in the period of its accounting. -/
def OfKey (keyId : String) (p : CapPeriod) (period : String) (e : TokenEvent) : Prop :=
  e.apiKeyId = some keyId ∧ p.text (Projection.accountingTime e) = period

instance (keyId : String) (p : CapPeriod) (period : String) (e : TokenEvent) :
    Decidable (OfKey keyId p period e) :=
  inferInstanceAs (Decidable (_ ∧ _))

theorem colon_notMem_text (p : CapPeriod) (t : ℤ) : ':' ∉ (p.text t).toList := by
  cases p with
  | day => exact colon_notMem_dayUtc t
  | month => exact colon_notMem_monthUtc t

theorem spentKey_inj {k k' period period' : String} {p p' : CapPeriod}
    (h : ':' ∉ period.toList) (h' : ':' ∉ period'.toList) :
    spentKey k p period = spentKey k' p' period' ↔ k = k' ∧ p = p' ∧ period = period' := by
  constructor
  · intro heq
    obtain ⟨hfront, hperiod⟩ := last_part h h' heq
    have hmark : ∀ p : CapPeriod, ':' ∉ p.mark.toList := by
      intro p
      cases p <;> decide
    have hsplit : ∀ (k : String) (p : CapPeriod), "apikey:" ++ k ++ ":spent:" ++ p.mark =
        ("apikey:" ++ k ++ ":spent") ++ ":" ++ p.mark := by
      intro k p
      have hspent : ":spent:" ++ p.mark = ":spent" ++ (":" ++ p.mark) := by
        cases p <;> decide
      rw [String.append_assoc, hspent, ← String.append_assoc, ← String.append_assoc]
    rw [hsplit, hsplit] at hfront
    obtain ⟨hkey, hmarks⟩ := last_part (hmark p) (hmark p') hfront
    refine ⟨?_, ?_, hperiod⟩
    · rw [String.append_assoc, String.append_assoc, String.append_right_inj,
        String.append_left_inj] at hkey
      exact hkey
    · cases p <;> cases p' <;> first | rfl | exact absurd hmarks (by decide)
  · rintro ⟨rfl, rfl, rfl⟩
    rfl

theorem headOf_spentKey (k : String) (p : CapPeriod) (period : String) :
    headOf (spentKey k p period) = some 'a' := by
  have hhead : headOf "apikey:" = some 'a' := rfl
  unfold spentKey
  simp [hhead]

theorem spentKey_literal (k period : String) (p : CapPeriod) :
    "apikey:" ++ k ++ (":spent:" ++ p.mark ++ ":") ++ period = spentKey k p period := by
  unfold spentKey
  rw [← String.append_assoc, ← String.append_assoc]

section Runs
variable {P : Projection} {before : TokenEvent → ℤ} {s : Keyspace} {steps : List SinkStep}
  {keyId period : String} {p : CapPeriod}

/-- The counters that an event of a key adds to. -/
theorem keys_apiKey (e : TokenEvent) :
    (P.keys e).apiKeyDay = e.apiKeyId.map (fun k =>
        spentKey k .day (CapPeriod.day.text (Projection.accountingTime e))) ∧
      (P.keys e).apiKeyMonth = e.apiKeyId.map fun k =>
        spentKey k .month (CapPeriod.month.text (Projection.accountingTime e)) := by
  have hday : ":spent:d:" = ":spent:" ++ CapPeriod.day.mark ++ ":" := by decide
  have hmonth : ":spent:m:" = ":spent:" ++ CapPeriod.month.mark ++ ":" := by decide
  unfold Projection.keys
  dsimp only
  rw [hday, hmonth]
  exact ⟨congrArg e.apiKeyId.map (funext fun k => spentKey_literal k _ .day),
    congrArg e.apiKeyId.map (funext fun k => spentKey_literal k _ .month)⟩

private theorem spent_keyWrites (hperiod : ':' ∉ period.toList) (key : Option String) (t : ℤ)
    (cost : ℚ) :
    (((key.map fun k => spentKey k .day (CapPeriod.day.text t)).toList ++
        (key.map fun k => spentKey k .month (CapPeriod.month.text t)).toList).map fun counter =>
      Write.incrByFloat counter cost).filterMap (Write.floatAt (spentKey keyId p period)) =
      if key = some keyId ∧ p.text t = period then [cost] else [] := by
  cases key with
  | none =>
    rw [if_neg fun h => by cases h.1]
    rfl
  | some k =>
    simp only [Option.map_some, Option.toList_some, List.cons_append, List.nil_append,
      List.map_cons, List.map_nil, List.filterMap_cons, List.filterMap_nil, Write.floatAt,
      spentKey_inj (colon_notMem_text _ _) hperiod, Option.some.injEq]
    cases p with
    | day =>
      by_cases h : k = keyId ∧ CapPeriod.day.text t = period
      · simp [h]
      · simp [h]
    | month =>
      by_cases h : k = keyId ∧ CapPeriod.month.text t = period
      · simp [h]
      · simp [h]

private theorem spent_event (hperiod : ':' ∉ period.toList) (e : TokenEvent) (clock : String) :
    ((SinkStep.event e clock).writes P before).filterMap (Write.floatAt (spentKey keyId p period)) =
      if OfKey keyId p period e then [eventCost P before e] else [] := by
  have hhead := headOf_spentKey keyId p period
  have hsession := @floatAt_session P before (spentKey keyId p period) e clock
    (by rw [hhead]; decide)
  have hmodel : (modelRollupWrites (P.args e (before e) clock) (P.keys e).modelRollup ++
      [Write.draw (P.keys e).package (P.args e (before e) clock)]).filterMap
        (Write.floatAt (spentKey keyId p period)) = [] := rfl
  have hdims : ((P.dims e).flatMap (dimTotalsWrites (P.args e (before e) clock))).filterMap
      (Write.floatAt (spentKey keyId p period)) = [] := by
    refine Write.filterMap_floatAt fun w hw hspent => ?_
    obtain ⟨dim, hdim, hw⟩ := List.mem_flatMap.mp hw
    have htarget : headOf w.target = some 'd' := by
      have hd : headOf "dim:" = some 'd' := rfl
      simp only [Projection.dims, List.mem_flatMap, List.mem_cons, List.not_mem_nil, or_false] at hdim
      obtain ⟨entry, -, rfl | rfl⟩ := hdim <;>
        simp only [dimTotalsWrites, List.mem_cons, List.not_mem_nil, or_false] at hw <;>
        rcases hw with rfl | rfl <;> simp [Write.target, hd]
    rw [hspent, hhead] at htarget
    exact absurd htarget (by decide)
  have hkeys : (((P.keys e).apiKeyDay.toList ++ (P.keys e).apiKeyMonth.toList).map fun key =>
      Write.incrByFloat key (P.args e (before e) clock).costUsd).filterMap
        (Write.floatAt (spentKey keyId p period)) =
      if OfKey keyId p period e then [eventCost P before e] else [] := by
    rw [(keys_apiKey e).1, (keys_apiKey e).2]
    exact spent_keyWrites hperiod _ _ _
  unfold SinkStep.writes projectionWrites
  dsimp only
  rw [List.append_assoc (List.flatMap _ _) _ [_], List.filterMap_append, List.filterMap_append,
    List.filterMap_append, hsession, hmodel, hkeys]
  show _ ++ ((P.dims e).flatMap _).filterMap _ = _
  rw [hdims, List.append_nil, List.nil_append, List.nil_append]

/-- The events of a key in a period that a run projects: no replay counts. -/
def keyEvents (P : Projection) (before : TokenEvent → ℤ) (s : Keyspace) (steps : List SinkStep)
    (keyId : String) (p : CapPeriod) (period : String) : List TokenEvent :=
  (projectedEvents (ran P before s steps)).filter fun e => OfKey keyId p period e

theorem spentUsd_run (hperiod : ':' ∉ period.toList) :
    spentUsd (runSinks P before s steps) keyId p period = spentUsd s keyId p period +
      ((keyEvents P before s steps keyId p period).map (eventCost P before)).sum := by
  have hcharges : (ran P before s steps).flatMap (fun a =>
      (a.writes P before).filterMap (Write.floatAt (spentKey keyId p period))) =
      (keyEvents P before s steps keyId p period).map (eventCost P before) := by
    unfold keyEvents
    rw [← flatMap_ite]
    refine flatMap_projectedEvents _ ?_ fun e clock _ => spent_event hperiod e clock
    intro agg _
    refine SinkStep.floatAt_untouched fun hkey => ?_
    have hletters := headOf_window hkey
    rw [headOf_spentKey] at hletters
    revert hletters
    decide
  unfold spentUsd
  rw [floats_runSinks, hcharges]
  exact getD_tally _ _

end Runs

/-! ### The check -/

/-- The store that a check reads, with the caps of the keys. -/
def desk (caps : String → Option ApiKeyCaps) (s : Keyspace) : Desk :=
  { s.toRedis with apiKeys := caps }

/-- The denial of a cap to a key that has spent an amount. -/
def CapPeriod.denial (p : CapPeriod) (keyId period : String) (spent estimate : ℚ)
    (caps : ApiKeyCaps) : Option KeyDenial :=
  (p.cap caps).bind fun cap =>
    if cap < spent + max estimate 0 then some ⟨p.reason, keyId, spent, cap, period⟩ else none

theorem checkApiKeyBudget_desk (caps : String → Option ApiKeyCaps) (s : Keyspace) (keyId : String)
    (estimate : ℚ) (nowMs : ℤ) : checkApiKeyBudget (desk caps s) keyId estimate nowMs =
      (caps keyId).bind fun c =>
        CapPeriod.day.denial keyId (CapPeriod.day.text nowMs)
            (spentUsd s keyId .day (CapPeriod.day.text nowMs)) estimate c <|>
          CapPeriod.month.denial keyId (CapPeriod.month.text nowMs)
            (spentUsd s keyId .month (CapPeriod.month.text nowMs)) estimate c := rfl

/-- After every run of the sinks, whatever its order and its replays, the check of a key weighs its
caps against what the events of the key cost in the day and in the month of the check. -/
theorem api_key_check_exact (P : Projection) (before : TokenEvent → ℤ) (s : Keyspace)
    (steps : List SinkStep) (caps : String → Option ApiKeyCaps) (keyId : String) (estimate : ℚ)
    (nowMs : ℤ) :
    let spent := fun p : CapPeriod => spentUsd s keyId p (p.text nowMs) +
      ((keyEvents P before s steps keyId p (p.text nowMs)).map (eventCost P before)).sum
    checkApiKeyBudget (desk caps (runSinks P before s steps)) keyId estimate nowMs =
      (caps keyId).bind fun c =>
        CapPeriod.day.denial keyId (dayUtc nowMs) (spent .day) estimate c <|>
          CapPeriod.month.denial keyId (monthUtc nowMs) (spent .month) estimate c := by
  rw [checkApiKeyBudget_desk, spentUsd_run (colon_notMem_text .day nowMs),
    spentUsd_run (colon_notMem_text .month nowMs)]
  rfl

/-- A call that is let through fits under each cap. -/
theorem fits_of_allowed {caps : String → Option ApiKeyCaps} {s : Keyspace} {keyId : String}
    {estimate : ℚ} {nowMs : ℤ} (h : checkApiKeyBudget (desk caps s) keyId estimate nowMs = none)
    {c : ApiKeyCaps} (hc : caps keyId = some c) (p : CapPeriod) {cap : ℚ}
    (hcap : p.cap c = some cap) :
    spentUsd s keyId p (p.text nowMs) + max estimate 0 ≤ cap := by
  rw [checkApiKeyBudget_desk, hc, Option.bind_some, Option.orElse_eq_none] at h
  have hdenial : p.denial keyId (p.text nowMs) (spentUsd s keyId p (p.text nowMs)) estimate c =
      none := by
    cases p with
    | day => exact h.1
    | month => exact h.2
  unfold CapPeriod.denial at hdenial
  rw [hcap, Option.bind_some] at hdenial
  split_ifs at hdenial with hover
  exact not_lt.mp hover

end FluxMeter.Usage
