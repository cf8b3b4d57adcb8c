import FluxMeter.Keys.CivilCalendar
import FluxMeter.Transition.Counting
import FluxMeter.Usage.ReplayOrder
import FluxMeter.Usage.UsageQuery

/-! The monthly rollups of a customer and of its models: what a window and an event add to each of
their fields, and which of their keys can be equal. -/
namespace FluxMeter.Usage
open FluxMeter.Budget FluxMeter.Job FluxMeter.Keys FluxMeter.Model Transition

inductive RollupField
  | inputTokens
  | outputTokens
  | totalTokens
  | eventCount
  | costUsd
  deriving DecidableEq

namespace RollupField

def name : RollupField → String
  | .inputTokens => "input_tokens"
  | .outputTokens => "output_tokens"
  | .totalTokens => "total_tokens"
  | .eventCount => "event_count"
  | .costUsd => "cost_usd"

def read (u : UsageStore) (key : String) : RollupField → ℚ
  | .costUsd => number (u.hashFloats key "cost_usd")
  | field => integer (u.hashInts key field.name)

def ofEvent (price : ℤ) (e : TokenEvent) : RollupField → ℚ
  | .inputTokens => e.inputTokens
  | .outputTokens => e.outputTokens
  | .totalTokens => e.getTotalTokens
  | .eventCount => 1
  | .costUsd => price / 1000000

def ofWindow (agg : UsageAggregate) : RollupField → ℚ
  | .inputTokens => agg.inputTokens
  | .outputTokens => agg.outputTokens
  | .totalTokens => agg.totalTokens
  | .eventCount => agg.eventCount
  | .costUsd => agg.getCostUsd

def ofWrite (key : String) : RollupField → Write → ℚ
  | .costUsd, .hincrByFloat k f q => if k = key ∧ f = "cost_usd" then q else 0
  | .costUsd, _ => 0
  | field, .hincrBy k f n => if k = key ∧ f = field.name then n else 0
  | _, _ => 0

variable (field : RollupField) (key : String)

private theorem read_run (u : UsageStore) (w : Write) :
    field.read (w.run u) key = field.read u key + field.ofWrite key w := by
  have hints : ∀ (k f name : String) (n : ℤ),
      (integer ((u.hincrBy k f n).hashInts key name) : ℚ) =
        integer (u.hashInts key name) + if k = key ∧ f = name then (n : ℚ) else 0 := by
    intro k f name n
    unfold UsageStore.hincrBy integer
    dsimp only
    by_cases hk : k = key
    · subst hk
      by_cases hf : f = name
      · subst hf
        simp
      · simp [hf, Function.update_of_ne (Ne.symm hf)]
    · simp [hk, Function.update_of_ne (Ne.symm hk)]
  have hfloats : ∀ (k f : String) (q : ℚ),
      number ((u.hincrByFloat k f q).hashFloats key "cost_usd") =
        number (u.hashFloats key "cost_usd") + if k = key ∧ f = "cost_usd" then q else 0 := by
    intro k f q
    unfold UsageStore.hincrByFloat
    dsimp only
    by_cases hk : k = key
    · subst hk
      by_cases hf : f = "cost_usd"
      · subst hf
        simp
      · simp [hf, Function.update_of_ne (Ne.symm hf)]
    · simp [hk, Function.update_of_ne (Ne.symm hk)]
  cases w with
  | hincrBy k f n =>
    cases field with
    | costUsd => exact (add_zero _).symm
    | _ => exact hints k f _ n
  | hincrByFloat k f q =>
    cases field with
    | costUsd => exact hfloats k f q
    | _ => exact (add_zero _).symm
  | _ =>
    rw [Write.run_eq]
    cases field <;> exact (add_zero _).symm

theorem read_foldl (ws : List Write) (u : UsageStore) :
    field.read (ws.foldl Write.run u) key =
      field.read u key + (ws.map (field.ofWrite key)).sum := by
  induction ws generalizing u with
  | nil => exact (add_zero _).symm
  | cons w ws ih => rw [List.foldl_cons, ih, read_run, List.map_cons, List.sum_cons, add_assoc]

end RollupField

/-! ### The two scripts -/

namespace RollupField
variable (field : RollupField) (key : String)

def ofSink (a : SinkArgs) : RollupField → ℚ
  | .inputTokens => a.inputTokens
  | .outputTokens => a.outputTokens
  | .totalTokens => a.totalTokens
  | .eventCount => a.eventCount
  | .costUsd => a.costUsd

def ofProjection (a : ProjectionArgs) : RollupField → ℚ
  | .inputTokens => a.inputTokens
  | .outputTokens => a.outputTokens
  | .totalTokens => a.totalTokens
  | .eventCount => 1
  | .costUsd => a.costUsd

/-- Commands on plain numbers and sets. -/
def OffHashes : Write → Prop
  | .hincrBy .. => False
  | .hincrByFloat .. => False
  | _ => True

theorem sum_offHashes {ws : List Write} (h : ∀ w ∈ ws, OffHashes w) :
    (ws.map (field.ofWrite key)).sum = 0 := by
  apply List.sum_eq_zero
  intro q hq
  obtain ⟨w, hw, rfl⟩ := List.mem_map.mp hq
  have hoff := h w hw
  cases w with
  | hincrBy k f n => exact hoff.elim
  | hincrByFloat k f q => exact hoff.elim
  | _ => cases field <;> rfl

theorem offHashes_positive (k : String) (n : ℤ) :
    ∀ w ∈ Write.positive n (.incrBy k n), OffHashes w := by
  unfold Write.positive
  split_ifs <;> simp [OffHashes]

private theorem sum_rollupWrites (a : SinkArgs) (k : String) :
    ((rollupWrites a k).map (field.ofWrite key)).sum = if k = key then field.ofSink a else 0 := by
  have hdetail : ∀ (n : ℤ) (f : String), f ≠ field.name →
      ((Write.positive n (.hincrBy k f n)).map (field.ofWrite key)).sum = 0 := by
    intro n f hf
    have hzero : field.ofWrite key (.hincrBy k f n) = 0 := by
      cases field with
      | costUsd => rfl
      | _ => exact if_neg fun h => hf h.2
    unfold Write.positive
    split_ifs
    · rw [List.map_singleton, List.sum_singleton, hzero]
    · rfl
  have hread : "cache_read_tokens" ≠ field.name := by cases field <;> decide
  have hreason : "reasoning_tokens" ≠ field.name := by cases field <;> decide
  unfold rollupWrites
  rw [List.map_append, List.map_append, List.sum_append, List.sum_append, hdetail _ _ hread,
    hdetail _ _ hreason, add_zero, add_zero]
  cases field <;> simp [ofWrite, ofSink, name]

theorem sum_windowWrites (k : SinkKeys) (a : SinkArgs) :
    ((windowWrites k a).map (field.ofWrite key)).sum =
      (if k.periodRollup = key then field.ofSink a else 0) +
        if k.dayRollup = key then field.ofSink a else 0 := by
  have hdetail : ∀ (k : String) (n : ℤ),
      ((Write.positive n (.incrBy k n)).map (field.ofWrite key)).sum = 0 :=
    fun k n => field.sum_offHashes key (offHashes_positive k n)
  unfold windowWrites restWrites
  simp only [List.map_append, List.sum_append, sum_rollupWrites, hdetail]
  have hindex : ([Write.sadd k.periodCustomers a.customerId].map (field.ofWrite key)).sum = 0 :=
    field.sum_offHashes key (by simp [OffHashes])
  rw [hindex, field.sum_offHashes key (by simp [OffHashes]),
    field.sum_offHashes key (by simp [OffHashes])]
  ring

private theorem sum_modelRollupWrites (a : ProjectionArgs) (k : String) :
    ((modelRollupWrites a k).map (field.ofWrite key)).sum =
      if k = key then field.ofProjection a else 0 := by
  unfold modelRollupWrites
  cases field <;> simp [ofWrite, ofProjection, name]

theorem sum_projectionWrites (k : ProjectionKeys) (a : ProjectionArgs) :
    ((projectionWrites k a).map (field.ofWrite key)).sum =
      if k.modelRollup = key then field.ofProjection a else 0 := by
  have hsession : ∀ w ∈ k.session.toList.flatMap (sessionWrites a), OffHashes w := by
    intro w hw
    obtain ⟨session, -, hw⟩ := List.mem_flatMap.mp hw
    unfold sessionWrites at hw
    simp only [List.mem_append] at hw
    obtain (hw | hw) | hw := hw
    · revert hw
      simp only [List.mem_cons, List.not_mem_nil, or_false]
      rintro (rfl | rfl | rfl | rfl | rfl) <;> trivial
    · exact offHashes_positive _ _ w hw
    · exact offHashes_positive _ _ w hw
  have hapiKeys : ∀ w ∈ (k.apiKeyDay.toList ++ k.apiKeyMonth.toList).map
      (fun key => Write.incrByFloat key a.costUsd), OffHashes w := by
    intro w hw
    obtain ⟨key, -, rfl⟩ := List.mem_map.mp hw
    trivial
  have hdims : ∀ w ∈ k.dims.flatMap (dimTotalsWrites a), OffHashes w := by
    intro w hw
    obtain ⟨dim, -, hw⟩ := List.mem_flatMap.mp hw
    unfold dimTotalsWrites at hw
    revert hw
    simp only [List.mem_cons, List.not_mem_nil, or_false]
    rintro (rfl | rfl) <;> trivial
  have hdraw : ([Write.draw k.package a].map (field.ofWrite key)).sum = 0 :=
    field.sum_offHashes key (by simp [OffHashes])
  unfold projectionWrites
  iterate 4 rw [List.map_append, List.sum_append]
  rw [field.sum_offHashes key hsession, field.sum_offHashes key hapiKeys,
    field.sum_offHashes key hdims, hdraw, sum_modelRollupWrites]
  ring

end RollupField

/-- A window or an event on its way into its sink. -/
inductive SinkStep
  | window (agg : UsageAggregate)
  | event (e : TokenEvent) (clock : String)

/-- The store after a step of either sink; `before` is the volume stamped on each event. -/
def SinkStep.run (P : Projection) (before : TokenEvent → ℤ) (s : Keyspace) : SinkStep → Keyspace
  | .window agg => applyWindow s agg
  | .event e clock => (P.apply s e (before e) clock).1

def SinkStep.windowKey : SinkStep → Option String
  | .window agg => some (idOf agg)
  | .event .. => none

def SinkStep.eventKey (P : Projection) : SinkStep → Option String
  | .window _ => none
  | .event e _ => some (P.projectionKey e.eventId)

section Steps
variable (field : RollupField) (key : String) (s : Keyspace)

theorem applied_applyWindow (agg : UsageAggregate) (id : String) :
    (applyWindow s agg).applied id = true ↔ id = idOf agg ∨ s.applied id = true := by
  have hinvoke : (applyWindow s agg).toRedis =
      guarded (fun r id => Redis.applied r id) idOf windowBody s.toRedis agg := invoke_eq _ _
  rw [hinvoke]
  exact done_guarded marks_windowBody s.toRedis agg id

theorem read_applyWindow (agg : UsageAggregate) :
    field.read (applyWindow s agg).usage key = field.read s.usage key +
      if s.applied (idOf agg) then 0
      else (if (sinkKeys agg).periodRollup = key then field.ofWindow agg else 0) +
        if (sinkKeys agg).dayRollup = key then field.ofWindow agg else 0 := by
  have husage : (applyWindow s agg).usage =
      if s.applied (idOf agg) then s.usage else s.usage.applyWindow (sinkKeys agg) (sinkArgs agg) :=
    (sinkScript_guarded s.toRedis (sinkKeys agg) (sinkArgs agg)).1
  have hamount : field.ofSink (sinkArgs agg) = field.ofWindow agg := by cases field <;> rfl
  rw [husage]
  split_ifs
  · exact (add_zero _).symm
  all_goals
    rw [← foldl_windowWrites, field.read_foldl, field.sum_windowWrites, hamount]
    simp [*]

variable (P : Projection)

theorem projected_apply (e : TokenEvent) (before : ℤ) (clock k : String) :
    (P.apply s e before clock).1.projected k = true ↔
      k = P.projectionKey e.eventId ∨ s.projected k = true := by
  have hdeliver : (P.apply s e before clock).1 = P.deliver s (⟨e, before⟩, clock) := rfl
  rw [hdeliver, P.deliver_eq]
  split_ifs with hdone
  · constructor
    · exact Or.inr
    · rintro (rfl | hk)
      · exact hdone
      · exact hk
  · show Function.update s.projected (P.projectionKey e.eventId) true k = true ↔ _
    by_cases hk : k = P.projectionKey e.eventId
    · simp [hk]
    · simp [hk]

theorem applied_apply (e : TokenEvent) (before : ℤ) (clock : String) :
    (P.apply s e before clock).1.applied = s.applied := by
  have hdeliver : (P.apply s e before clock).1 = P.deliver s (⟨e, before⟩, clock) := rfl
  rw [hdeliver, P.deliver_eq]
  split_ifs
  · rfl
  · have houtside := outsideUsage_projectionBody s (P.keys e) (P.args e before clock)
    have happlied := congrArg Redis.applied houtside
    exact happlied

theorem read_apply (e : TokenEvent) (before : ℤ) (clock : String) :
    field.read (P.apply s e before clock).1.usage key = field.read s.usage key +
      if s.projected (P.projectionKey e.eventId) then 0
      else if (P.keys e).modelRollup = key then
        field.ofEvent (P.catalog.calculateEventCostMicro e before) e
      else 0 := by
  have hdeliver : (P.apply s e before clock).1 = P.deliver s (⟨e, before⟩, clock) := rfl
  have hamount : field.ofProjection (P.args e before clock) =
      field.ofEvent (P.catalog.calculateEventCostMicro e before) e := by cases field <;> rfl
  rw [hdeliver, P.deliver_eq]
  dsimp only
  split_ifs with hdone hkey
  · exact (add_zero _).symm
  · rw [usage_projectionBody, field.read_foldl, field.sum_projectionWrites, if_pos hkey, hamount]
  · rw [usage_projectionBody, field.read_foldl, field.sum_projectionWrites, if_neg hkey]

end Steps

/-! ### Keys -/

theorem last_part {a a' p p' : String} (hp : ':' ∉ p.toList) (hp' : ':' ∉ p'.toList)
    (h : a ++ ":" ++ p = a' ++ ":" ++ p') : a = a' ∧ p = p' := by
  have hlist : a.toList ++ ':' :: p.toList = a'.toList ++ ':' :: p'.toList := by
    have hchars := congrArg String.toList h
    simpa [String.toList_append] using hchars
  rcases List.append_eq_append_iff.mp hlist with ⟨more, hmore, hrest⟩ | ⟨more, hmore, hrest⟩
  · cases more with
    | nil =>
      rw [List.append_nil] at hmore
      rw [List.nil_append, List.cons.injEq] at hrest
      exact ⟨String.ext hmore.symm, String.ext hrest.2⟩
    | cons c more =>
      rw [List.cons_append, List.cons.injEq] at hrest
      exact absurd (hrest.2 ▸ by simp) hp
  · cases more with
    | nil =>
      rw [List.append_nil] at hmore
      rw [List.nil_append, List.cons.injEq] at hrest
      exact ⟨String.ext hmore, String.ext hrest.2.symm⟩
    | cons c more =>
      rw [List.cons_append, List.cons.injEq] at hrest
      exact absurd (hrest.2 ▸ by simp) hp'

theorem rollupMonthKey_eq (c p : String) :
    rollupMonthKey c p = "rollup:" ++ c ++ ":period" ++ ":" ++ p := by
  have hword : ":period:" = ":period" ++ ":" := rfl
  unfold rollupMonthKey
  rw [hword]
  simp only [String.append_assoc]

theorem rollupDayKey_eq (c d : String) : rollupDayKey c d = "rollup:" ++ c ++ ":d" ++ ":" ++ d := by
  have hword : ":d:" = ":d" ++ ":" := rfl
  unfold rollupDayKey
  rw [hword]
  simp only [String.append_assoc]

theorem modelPeriodKey_eq (c m p : String) :
    modelPeriodKey c m p = rollupMonthKey (c ++ ":model:" ++ m) p := by
  unfold modelPeriodKey rollupMonthKey
  simp only [String.append_assoc]

theorem rollupMonthKey_iff {c c' : String} {t t' : ℤ} :
    rollupMonthKey c (monthUtc t) = rollupMonthKey c' (monthUtc t') ↔
      c = c' ∧ monthUtc t = monthUtc t' := by
  constructor
  · intro h
    rw [rollupMonthKey_eq, rollupMonthKey_eq] at h
    obtain ⟨hfront, hmonth⟩ := last_part (colon_notMem_monthUtc t) (colon_notMem_monthUtc t') h
    have hname : "rollup:" ++ c = "rollup:" ++ c' := (String.append_left_inj ":period").mp hfront
    exact ⟨(String.append_right_inj "rollup:").mp hname, hmonth⟩
  · rintro ⟨rfl, hmonth⟩
    rw [hmonth]

theorem rollupDayKey_ne (c c' : String) (t t' : ℤ) :
    rollupDayKey c (dayUtc t) ≠ rollupMonthKey c' (monthUtc t') := by
  intro h
  rw [rollupDayKey_eq, rollupMonthKey_eq] at h
  have hfront := (last_part (colon_notMem_dayUtc t) (colon_notMem_monthUtc t') h).1
  have hends := congrArg endOf hfront
  rw [endOf_append _ (by decide), endOf_append _ (by decide)] at hends
  revert hends
  decide

end FluxMeter.Usage
