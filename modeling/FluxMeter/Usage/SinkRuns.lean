import FluxMeter.Collections.Glob
import FluxMeter.Collections.Tally
import FluxMeter.Keys.ColonParts
import FluxMeter.Usage.Noninterference
import FluxMeter.Usage.Rollups

/-! The writes of a run of the two sinks: those of the steps that are not replays, in their order.
What a cell of the store holds after the run is read off this list. -/
namespace FluxMeter.Usage
open FluxMeter.Budget FluxMeter.Keys FluxMeter.Model Collections Collections.Glob

namespace SinkStep
variable (P : Projection) (before : TokenEvent → ℤ)

/-- The guard of the step is set. -/
def skipped (s : Keyspace) : SinkStep → Bool
  | .window agg => s.applied (idOf agg)
  | .event e _ => s.projected (P.projectionKey e.eventId)

def writes : SinkStep → List Write
  | .window agg => windowWrites (sinkKeys agg) (sinkArgs agg)
  | .event e clock => projectionWrites (P.keys e) (P.args e (before e) clock)

def stamped : SinkStep → UsageStep
  | .window agg => .window agg
  | .event e clock => .project e (before e) clock

def touched (a : SinkStep) : List String :=
  (a.stamped before).tenantWrites P ++ (a.stamped before).sharedWrites P

variable {P before}

theorem run_eq_apply (s : Keyspace) (a : SinkStep) :
    a.run P before s = (a.stamped before).apply P s := by
  cases a <;> rfl

theorem usage_run (s : Keyspace) (a : SinkStep) : (a.run P before s).usage =
    if a.skipped P s then s.usage else (a.writes P before).foldl Write.run s.usage := by
  cases a with
  | window agg =>
    have husage := (sinkScript_guarded s.toRedis (sinkKeys agg) (sinkArgs agg)).1
    refine husage.trans ?_
    unfold skipped writes
    dsimp only
    rw [foldl_windowWrites]
    rfl
  | event e clock =>
    have hdeliver : (P.apply s e (before e) clock).1 = P.deliver s (⟨e, before e⟩, clock) := rfl
    show (P.apply s e (before e) clock).1.usage = _
    unfold skipped writes
    dsimp only
    rw [hdeliver, P.deliver_eq]
    dsimp only
    split_ifs
    · rfl
    · exact usage_projectionBody s (P.keys e) (P.args e (before e) clock)

theorem sameAt_run {key : String} (hbeat : key ≠ heartbeatKey) {a : SinkStep}
    (hkey : key ∉ a.touched P before) (s : Keyspace) :
    SameAt key (a.run P before s).usage s.usage := by
  obtain ⟨htenant, hshared⟩ := not_or.mp fun h => hkey (List.mem_append.mpr h)
  rw [run_eq_apply]
  exact (apply_frame htenant hshared hbeat s).usage

end SinkStep

def ran (P : Projection) (before : TokenEvent → ℤ) : Keyspace → List SinkStep → List SinkStep
  | _, [] => []
  | s, a :: steps =>
    if a.skipped P s then ran P before (a.run P before s) steps
    else a :: ran P before (a.run P before s) steps

def appliedWindows (steps : List SinkStep) : List UsageAggregate :=
  steps.filterMap fun a => match a with
    | .window agg => some agg
    | .event .. => none

def projectedEvents (steps : List SinkStep) : List TokenEvent :=
  steps.filterMap fun a => match a with
    | .window _ => none
    | .event e _ => some e

theorem mem_appliedWindows {steps : List SinkStep} {agg : UsageAggregate} :
    agg ∈ appliedWindows steps ↔ .window agg ∈ steps := by
  unfold appliedWindows
  rw [List.mem_filterMap]
  constructor
  · rintro ⟨a, ha, hagg⟩
    cases a with
    | window agg' => exact Option.some.inj hagg ▸ ha
    | event e clock => cases hagg
  · exact fun h => ⟨_, h, rfl⟩

theorem mem_projectedEvents {steps : List SinkStep} {e : TokenEvent} :
    e ∈ projectedEvents steps ↔ ∃ clock, .event e clock ∈ steps := by
  unfold projectedEvents
  rw [List.mem_filterMap]
  constructor
  · rintro ⟨a, ha, he⟩
    cases a with
    | window agg => cases he
    | event e' clock => exact ⟨clock, Option.some.inj he ▸ ha⟩
  · rintro ⟨clock, h⟩
    exact ⟨_, h, rfl⟩

theorem flatMap_projectedEvents {β : Type*} {f : SinkStep → List β} (g : TokenEvent → List β)
    {steps : List SinkStep} (hwindow : ∀ agg, .window agg ∈ steps → f (.window agg) = [])
    (hevent : ∀ e clock, .event e clock ∈ steps → f (.event e clock) = g e) :
    steps.flatMap f = (projectedEvents steps).flatMap g := by
  induction steps with
  | nil => rfl
  | cons a steps ih =>
    have hrest := ih (fun agg h => hwindow agg (List.mem_cons_of_mem a h))
      fun e clock h => hevent e clock (List.mem_cons_of_mem a h)
    rw [List.flatMap_cons, hrest]
    cases a with
    | window agg =>
      rw [hwindow agg List.mem_cons_self]
      rfl
    | event e clock =>
      rw [hevent e clock List.mem_cons_self]
      rfl

theorem flatMap_appliedWindows {β : Type*} {f : SinkStep → List β} (g : UsageAggregate → List β)
    {steps : List SinkStep} (hwindow : ∀ agg, .window agg ∈ steps → f (.window agg) = g agg)
    (hevent : ∀ e clock, .event e clock ∈ steps → f (.event e clock) = []) :
    steps.flatMap f = (appliedWindows steps).flatMap g := by
  induction steps with
  | nil => rfl
  | cons a steps ih =>
    have hrest := ih (fun agg h => hwindow agg (List.mem_cons_of_mem a h))
      fun e clock h => hevent e clock (List.mem_cons_of_mem a h)
    rw [List.flatMap_cons, hrest]
    cases a with
    | window agg =>
      rw [hwindow agg List.mem_cons_self]
      rfl
    | event e clock =>
      rw [hevent e clock List.mem_cons_self]
      rfl

def runSinks (P : Projection) (before : TokenEvent → ℤ) (s : Keyspace) (steps : List SinkStep) :
    Keyspace :=
  steps.foldl (SinkStep.run P before) s

section Runs
variable {P : Projection} {before : TokenEvent → ℤ}

theorem ran_subset (s : Keyspace) (steps : List SinkStep) : ran P before s steps ⊆ steps := by
  induction steps generalizing s with
  | nil => exact List.Subset.refl _
  | cons a steps ih =>
    rw [ran]
    split_ifs
    · exact List.subset_cons_of_subset a (ih _)
    · exact List.cons_subset_cons a (ih _)

theorem usage_runSinks (s : Keyspace) (steps : List SinkStep) :
    (runSinks P before s steps).usage =
      ((ran P before s steps).flatMap (SinkStep.writes P before)).foldl Write.run s.usage := by
  induction steps generalizing s with
  | nil => rfl
  | cons a steps ih =>
    have hnext : runSinks P before s (a :: steps) =
        runSinks P before (a.run P before s) steps := rfl
    rw [hnext, ih, ran, SinkStep.usage_run]
    split_ifs
    · rfl
    · rw [List.flatMap_cons, List.foldl_append]

end Runs

/-! ### Cells -/

namespace Write

/-- What a write adds to a counter. -/
def intAt (key : String) : Write → Option ℤ
  | .incrBy k n => if k = key then some n else none
  | _ => none

/-- What a write adds to an amount. -/
def floatAt (key : String) : Write → Option ℚ
  | .incrByFloat k q => if k = key then some q else none
  | _ => none

/-- A write that does more to a counter than adding to it. -/
def Overwrites (key : String) : Write → Prop
  | .setInt k _ => k = key
  | .draw k _ => key = k ∨ key = k ++ ":debt"
  | _ => False

/-- The key that a write names. -/
def target : Write → String
  | .incrBy k _ | .incrByFloat k _ | .setInt k _ | .hincrBy k _ _ | .hincrByFloat k _ _ | .sadd k _ |
    .draw k _ => k

private theorem target_of_floatAt {w : Write} {key : String} {q : ℚ} (h : w.floatAt key = some q) :
    w.target = key := by
  unfold floatAt at h
  split at h
  · split_ifs at h with hk
    exact hk
  · cases h

private theorem target_of_intAt {w : Write} {key : String} {n : ℤ} (h : w.intAt key = some n) :
    w.target = key := by
  unfold intAt at h
  split at h
  · split_ifs at h with hk
    exact hk
  · cases h

theorem filterMap_floatAt {ws : List Write} {key : String} (h : ∀ w ∈ ws, w.target ≠ key) :
    ws.filterMap (floatAt key) = [] := by
  refine List.filterMap_eq_nil_iff.mpr fun w hw => ?_
  exact Option.eq_none_iff_forall_ne_some.mpr fun q hq => h w hw (target_of_floatAt hq)

theorem filterMap_intAt {ws : List Write} {key : String} (h : ∀ w ∈ ws, w.target ≠ key) :
    ws.filterMap (intAt key) = [] := by
  refine List.filterMap_eq_nil_iff.mpr fun w hw => ?_
  exact Option.eq_none_iff_forall_ne_some.mpr fun n hn => h w hw (target_of_intAt hn)

theorem mem_positive {n : ℤ} {w w' : Write} : w' ∈ positive n w ↔ 0 < n ∧ w' = w := by
  unfold positive
  split_ifs with hn
  · simp [hn]
  · simp [hn]

theorem floats_foldl (ws : List Write) (u : UsageStore) (key : String) :
    (ws.foldl run u).floats key = tally (u.floats key) (ws.filterMap (floatAt key)) := by
  induction ws generalizing u with
  | nil => rfl
  | cons w ws ih =>
    rw [List.foldl_cons, ih]
    have hfloats : (w.run u).floats = w.onFloats u.floats := by rw [run_eq]
    rw [hfloats]
    cases w with
    | incrByFloat k q =>
      unfold onFloats
      dsimp only
      by_cases hk : k = key
      · subst hk
        rw [adjust_self, List.filterMap_cons_some (by rw [floatAt, if_pos rfl])]
        rfl
      · rw [adjust_of_ne _ _ (Ne.symm hk), List.filterMap_cons_none (by rw [floatAt, if_neg hk])]
    | _ => rfl

theorem ints_foldl {ws : List Write} (u : UsageStore) {key : String}
    (h : ∀ w ∈ ws, ¬ w.Overwrites key) :
    (ws.foldl run u).ints key = tally (u.ints key) (ws.filterMap (intAt key)) := by
  induction ws generalizing u with
  | nil => rfl
  | cons w ws ih =>
    obtain ⟨hw, hws⟩ := List.forall_mem_cons.mp h
    rw [List.foldl_cons, ih _ hws]
    have hints : (w.run u).ints = w.onInts u.ints := by rw [run_eq]
    rw [hints]
    cases w with
    | incrBy k n =>
      unfold onInts
      dsimp only
      by_cases hk : k = key
      · subst hk
        rw [adjust_self, List.filterMap_cons_some (by rw [intAt, if_pos rfl])]
        rfl
      · rw [adjust_of_ne _ _ (Ne.symm hk), List.filterMap_cons_none (by rw [intAt, if_neg hk])]
    | setInt k n =>
      have hset : onInts u.ints (.setInt k n) key = u.ints key :=
        Function.update_of_ne (Ne.symm hw) _ _
      rw [hset]
      rfl
    | draw k a =>
      have hdraw : onInts u.ints (.draw k a) key = u.ints key :=
        (local_drawn k a.totalTokens).frame u.ints key fun hk => hw hk
      rw [hdraw]
      rfl
    | _ => rfl

theorem mem_sets_foldl (ws : List Write) (u : UsageStore) (key member : String) :
    member ∈ (ws.foldl run u).sets key ↔ member ∈ u.sets key ∨ .sadd key member ∈ ws := by
  induction ws generalizing u with
  | nil => simp
  | cons w ws ih =>
    have hsets : (w.run u).sets = w.onSets u.sets := by rw [run_eq]
    rw [List.foldl_cons, ih, hsets, mem_onSets, List.mem_cons, or_assoc]
    refine or_congr_right (or_congr_left ?_)
    constructor
    · rintro ⟨k, m, rfl, rfl, rfl⟩
      rfl
    · rintro rfl
      exact ⟨key, member, rfl, rfl, rfl⟩

end Write

theorem SinkStep.target_mem_touched {P : Projection} {before : TokenEvent → ℤ} {a : SinkStep}
    {w : Write} (hw : w ∈ a.writes P before) : w.target ∈ a.touched P before := by
  cases a with
  | window agg =>
    unfold touched
    simp only [stamped, UsageStep.tenantWrites, windowTenantWrites, UsageStep.sharedWrites,
      windowSharedWrites, countSuffixes, modelSuffixes, detailSuffixes, globalSuffixes,
      List.map_cons, List.map_nil, List.mem_append, List.mem_cons, List.not_mem_nil, or_false]
    simp only [writes, windowWrites, restWrites, rollupWrites, List.mem_append, List.mem_cons,
      Write.mem_positive, List.not_mem_nil, or_false] at hw
    casesm* _ ∨ _, _ ∧ _ <;> subst_vars <;> simp [Write.target]
  | event e clock =>
    unfold touched
    simp only [writes, projectionWrites, List.mem_append, List.mem_flatMap, List.mem_map] at hw
    simp only [stamped, UsageStep.tenantWrites, projectionTenantWrites, UsageStep.sharedWrites,
      projectionSharedWrites, List.mem_append, List.mem_flatMap, List.mem_cons]
    rcases hw with (((⟨session, hsession, hw⟩ | hw) | hw) | ⟨key, hkey, rfl⟩) | ⟨dim, hdim, hw⟩
    · left
      left
      left
      refine ⟨session, hsession, ?_⟩
      simp only [sessionWrites, List.mem_append, List.mem_cons, Write.mem_positive,
        List.not_mem_nil, or_false] at hw
      casesm* _ ∨ _, _ ∧ _ <;> subst_vars <;> simp [Write.target, countSuffixes, detailSuffixes]
    · right
      left
      simp only [modelRollupWrites, List.mem_cons, List.not_mem_nil, or_false] at hw
      casesm* _ ∨ _ <;> subst_vars <;> rfl
    · left
      left
      right
      left
      rw [List.mem_singleton.mp hw]
      rfl
    · right
      right
      left
      exact hkey
    · right
      right
      right
      refine ⟨dim, hdim, ?_⟩
      simp only [dimTotalsWrites, List.mem_cons, List.not_mem_nil, or_false] at hw
      casesm* _ ∨ _ <;> subst_vars <;> simp [Write.target, dimWrites]

theorem SinkStep.floatAt_untouched {P : Projection} {before : TokenEvent → ℤ} {a : SinkStep}
    {key : String} (h : key ∉ a.touched P before) :
    (a.writes P before).filterMap (Write.floatAt key) = [] :=
  Write.filterMap_floatAt fun _ hw htarget => h (htarget ▸ target_mem_touched hw)

theorem SinkStep.intAt_untouched {P : Projection} {before : TokenEvent → ℤ} {a : SinkStep}
    {key : String} (h : key ∉ a.touched P before) :
    (a.writes P before).filterMap (Write.intAt key) = [] :=
  Write.filterMap_intAt fun _ hw htarget => h (htarget ▸ target_mem_touched hw)

theorem SinkStep.touched_of_overwrites {P : Projection} {before : TokenEvent → ℤ} {a : SinkStep}
    {w : Write} {key : String} (hw : w ∈ a.writes P before) (h : w.Overwrites key) :
    key ∈ a.touched P before := by
  cases w with
  | setInt k n =>
    have hkey : k = key := h
    exact hkey ▸ target_mem_touched hw
  | draw k args =>
    have hkey : key = k ∨ key = k ++ ":debt" := h
    cases a with
    | window agg =>
      simp [writes, windowWrites, restWrites, rollupWrites, Write.mem_positive] at hw
    | event e clock =>
      have hpackage : k = (P.keys e).package := by
        simp [writes, projectionWrites, sessionWrites, modelRollupWrites, dimTotalsWrites,
          Write.mem_positive] at hw
        exact hw.1
      refine List.mem_append_left _ (List.mem_append_left _ (List.mem_append_right _ ?_))
      rw [← hpackage]
      simpa using hkey
  | _ => exact h.elim

theorem SinkStep.sadd_mem_writes {P : Projection} {before : TokenEvent → ℤ} {a : SinkStep}
    {key member : String} : .sadd key member ∈ a.writes P before ↔
      ∃ agg, a = .window agg ∧ key = (sinkKeys agg).periodCustomers ∧
        member = TokenEvent.orNull agg.customerId := by
  cases a with
  | window agg =>
    have hwrite : .sadd key member ∈ (SinkStep.window agg).writes P before ↔
        key = (sinkKeys agg).periodCustomers ∧ member = (sinkArgs agg).customerId := by
      simp [writes, windowWrites, restWrites, rollupWrites, Write.mem_positive]
    rw [hwrite]
    constructor
    · exact fun h => ⟨agg, rfl, h⟩
    · rintro ⟨agg', hagg, h⟩
      obtain rfl := SinkStep.window.inj hagg
      exact h
  | event e clock =>
    have hnot : .sadd key member ∉ (SinkStep.event e clock).writes P before := by
      simp [writes, projectionWrites, sessionWrites, modelRollupWrites, dimTotalsWrites,
        Write.mem_positive]
    constructor
    · exact fun h => absurd h hnot
    · rintro ⟨agg, hagg, -⟩
      cases hagg

/-- The key is there. The other keys of the store, which are addressed by their parts, are none that
the readers of usage scan for. -/
def UsageStore.Has (u : UsageStore) (key : String) : Prop :=
  u.ints key ≠ none ∨ u.floats key ≠ none ∨ (∃ field, u.hashInts key field ≠ none) ∨
    (∃ field, u.hashFloats key field ≠ none) ∨ u.sets key ≠ []

/-- The keys that a complete `SCAN` of a store at rest returns: those that match the pattern, in any
order, and any of them more than once. -/
def Scans (s : Keyspace) (pattern : String) (keys : List String) : Prop :=
  ∀ key, key ∈ keys ↔ UsageStore.Has s.usage key ∧ globMatch pattern key = true

section Cells
variable {P : Projection} {before : TokenEvent → ℤ} {s : Keyspace} {key : String}

theorem has_congr {u u' : UsageStore} (h : SameAt key u u') :
    UsageStore.Has u key ↔ UsageStore.Has u' key := by
  unfold UsageStore.Has
  rw [h.ints, h.floats, h.hashInts, h.hashFloats, h.sets]

/-- A key that is there after a run was there before or was written by a step of it. -/
theorem has_runSinks (hbeat : key ≠ heartbeatKey) {steps : List SinkStep}
    (h : UsageStore.Has (runSinks P before s steps).usage key) :
    UsageStore.Has s.usage key ∨ ∃ a ∈ ran P before s steps, key ∈ a.touched P before := by
  induction steps generalizing s with
  | nil => exact Or.inl h
  | cons a steps ih =>
    rw [ran]
    rcases ih h with hnext | ⟨b, hb, hkey⟩
    · by_cases hskip : a.skipped P s = true
      · rw [SinkStep.usage_run, if_pos hskip] at hnext
        exact Or.inl hnext
      · rw [if_neg hskip]
        by_cases hkey : key ∈ a.touched P before
        · exact Or.inr ⟨a, List.mem_cons_self, hkey⟩
        · exact Or.inl ((has_congr (SinkStep.sameAt_run hbeat hkey s)).mp hnext)
    · right
      split_ifs
      · exact ⟨b, hb, hkey⟩
      · exact ⟨b, List.mem_cons_of_mem a hb, hkey⟩

/-- A complete scan after a run from the empty store, read off the keys that its steps touch. -/
theorem scans_of_touched {steps : List SinkStep} {pattern : String} {keys : List String}
    (hbeat : globMatch pattern heartbeatKey = false)
    (htouched : ∀ key ∈ steps.flatMap (SinkStep.touched P before),
      globMatch pattern key = true → key ∈ keys)
    (hkeys : ∀ key ∈ keys, UsageStore.Has (runSinks P before {} steps).usage key ∧
      globMatch pattern key = true) :
    Scans (runSinks P before {} steps) pattern keys := by
  intro key
  refine ⟨hkeys key, fun ⟨hthere, hmatch⟩ => ?_⟩
  have hne : key ≠ heartbeatKey := by
    rintro rfl
    rw [hbeat] at hmatch
    cases hmatch
  rcases has_runSinks hne hthere with hbefore | ⟨a, ha, hkey⟩
  · exact absurd hbefore (by simp [UsageStore.Has])
  · exact htouched key (List.mem_flatMap.mpr ⟨a, ran_subset _ _ ha, hkey⟩) hmatch

theorem floats_runSinks (steps : List SinkStep) : (runSinks P before s steps).usage.floats key =
    tally (s.usage.floats key) ((ran P before s steps).flatMap fun a =>
      (a.writes P before).filterMap (Write.floatAt key)) := by
  rw [usage_runSinks, Write.floats_foldl, List.filterMap_flatMap]

theorem ints_runSinks {steps : List SinkStep}
    (h : ∀ a ∈ ran P before s steps, ∀ w ∈ a.writes P before, ¬ w.Overwrites key) :
    (runSinks P before s steps).usage.ints key =
      tally (s.usage.ints key) ((ran P before s steps).flatMap fun a =>
        (a.writes P before).filterMap (Write.intAt key)) := by
  rw [usage_runSinks, Write.ints_foldl, List.filterMap_flatMap]
  intro w hw
  obtain ⟨a, ha, hw⟩ := List.mem_flatMap.mp hw
  exact h a ha w hw

/-- A field of a rollup after a run: what its windows and its events add. -/
theorem read_runSinks (field : RollupField) (steps : List SinkStep) :
    field.read (runSinks P before s steps).usage key = field.read s.usage key +
      (((appliedWindows (ran P before s steps)).map fun agg =>
          (if (sinkKeys agg).periodRollup = key then field.ofWindow agg else 0) +
            if (sinkKeys agg).dayRollup = key then field.ofWindow agg else 0).sum +
        ((projectedEvents (ran P before s steps)).map fun e =>
          if (P.keys e).modelRollup = key then
            field.ofEvent (P.catalog.calculateEventCostMicro e (before e)) e
          else 0).sum) := by
  rw [usage_runSinks, field.read_foldl]
  congr 1
  induction ran P before s steps with
  | nil => exact (add_zero _).symm
  | cons a as ih =>
    rw [List.flatMap_cons, List.map_append, List.sum_append, ih]
    cases a with
    | window agg =>
      have hamount : field.ofSink (sinkArgs agg) = field.ofWindow agg := by cases field <;> rfl
      have hsum := field.sum_windowWrites key (sinkKeys agg) (sinkArgs agg)
      rw [hamount] at hsum
      have hwindows : appliedWindows (.window agg :: as) = agg :: appliedWindows as := rfl
      have hevents : projectedEvents (.window agg :: as) = projectedEvents as := rfl
      rw [hwindows, hevents, List.map_cons, List.sum_cons, add_assoc, SinkStep.writes, hsum]
    | event e clock =>
      have hamount : field.ofProjection (P.args e (before e) clock) =
          field.ofEvent (P.catalog.calculateEventCostMicro e (before e)) e := by cases field <;> rfl
      have hsum := field.sum_projectionWrites key (P.keys e) (P.args e (before e) clock)
      rw [hamount] at hsum
      have hwindows : appliedWindows (.event e clock :: as) = appliedWindows as := rfl
      have hevents : projectedEvents (.event e clock :: as) = e :: projectedEvents as := rfl
      rw [hwindows, hevents, List.map_cons, List.sum_cons, SinkStep.writes, hsum, add_left_comm]

theorem mem_sets_runSinks {member : String} (steps : List SinkStep) :
    member ∈ (runSinks P before s steps).usage.sets key ↔ member ∈ s.usage.sets key ∨
      ∃ a ∈ ran P before s steps, .sadd key member ∈ a.writes P before := by
  rw [usage_runSinks, Write.mem_sets_foldl, List.mem_flatMap]

end Cells

/-! ### The first letters of the keys -/

section Heads
variable {P : Projection} {before : TokenEvent → ℤ} {key : String}

private theorem headOf_inTenant (t : Option String) (rest : String) :
    headOf (inTenant t rest) = some 't' ∨ headOf (inTenant t rest) = headOf rest := by
  unfold inTenant
  cases t with
  | none => exact Or.inr rfl
  | some t =>
    dsimp only
    split_ifs
    · left
      simp only [headOf_append]
      rfl
    · exact Or.inr rfl

/-- A key in front of which a prefix of a tenant stands, or a family without one. -/
theorem headOf_inTenant_append (t : Option String) {rest : String} {c : Char}
    (hrest : headOf rest = some c) (tail : String) :
    headOf (inTenant t rest ++ tail) ∈ [some 't', some c] := by
  rw [headOf_append]
  rcases headOf_inTenant t rest with h | h
  · rw [h]
    exact List.mem_cons_self
  · rw [h, hrest]
    exact List.mem_cons_of_mem _ List.mem_cons_self

theorem headOf_customerPrefix (t : Option String) (c tail : String) :
    headOf (customerPrefix t c ++ tail) ∈ [some 't', some 'c'] :=
  headOf_inTenant_append t (by rw [headOf_append]; rfl) tail

theorem headOf_tenantWrites {a : SinkStep} (hkey : key ∈ (a.stamped before).tenantWrites P) :
    headOf key ∈ [some 't', some 'c', some 'g', some 's', some 'p'] := by
  have hwiden : ∀ {l : List (Option Char)} {h : Option Char}, h ∈ l →
      l ⊆ [some 't', some 'c', some 'g', some 's', some 'p'] →
      h ∈ [some 't', some 'c', some 'g', some 's', some 'p'] := fun hmem hsub => hsub hmem
  cases a with
  | window agg =>
    have hmodel : (sinkKeys agg).model = (sinkKeys agg).customer ++
        (":model:" ++ TokenEvent.orNull agg.modelId) := String.append_assoc
    have hglobal : ∀ suffix, headOf ((sinkKeys agg).global suffix) ∈ [some 't', some 'g'] := by
      intro suffix
      have h := @headOf_inTenant_append agg.tenantId ("global:" ++ suffix) _
        (by rw [headOf_append]; rfl) ""
      rwa [String.append_empty] at h
    have hvolume : headOf (sinkKeys agg).periodVolume ∈ [some 't', some 'c'] := by
      show headOf (periodVolumeKey _ _ _ _) ∈ _
      unfold periodVolumeKey
      simp only [String.append_assoc]
      exact headOf_customerPrefix _ _ _
    simp only [SinkStep.stamped, UsageStep.tenantWrites, windowTenantWrites, List.mem_append,
      List.mem_map, List.mem_singleton] at hkey
    rcases hkey with (((⟨suffix, -, rfl⟩ | ⟨suffix, -, rfl⟩) | ⟨suffix, -, rfl⟩) | ⟨suffix, -, rfl⟩) |
      rfl
    · exact hwiden (headOf_customerPrefix _ _ suffix) (by decide)
    · rw [hmodel, String.append_assoc]
      exact hwiden (headOf_customerPrefix _ _ _) (by decide)
    · exact hwiden (headOf_customerPrefix _ _ suffix) (by decide)
    · exact hwiden (hglobal suffix) (by decide)
    · exact hwiden hvolume (by decide)
  | event e clock =>
    have hsession : ∀ p ∈ (P.keys e).session.toList, ∀ tail,
        headOf (p ++ tail) ∈ [some 't', some 's'] := by
      intro p hp tail
      simp only [Projection.keys, Option.mem_toList, Option.map_eq_some_iff] at hp
      obtain ⟨id, -, rfl⟩ := hp
      exact headOf_inTenant_append e.tenantId
        (by rw [headOf_append, headOf_append]; rfl) tail
    have hpackage : ∀ tail, headOf ((P.keys e).package ++ tail) ∈ [some 't', some 'p'] :=
      fun tail => headOf_inTenant_append e.tenantId (by rw [headOf_append, headOf_append]; rfl) tail
    simp only [SinkStep.stamped, UsageStep.tenantWrites, projectionTenantWrites, List.mem_append,
      List.mem_flatMap, List.mem_cons, List.not_mem_nil, or_false] at hkey
    rcases hkey with (⟨p, hp, hmem⟩ | rfl | rfl) | hmem
    · obtain ⟨suffix, -, rfl⟩ := List.mem_map.mp hmem
      exact hwiden (hsession p hp suffix) (by decide)
    · have h := hpackage ""
      rw [String.append_empty] at h
      exact hwiden h (by decide)
    · exact hwiden (hpackage ":debt") (by decide)
    · obtain ⟨p, hp, rfl⟩ := List.mem_map.mp hmem
      exact hwiden (hsession p hp ":customer_id") (by decide)

theorem headOf_window {agg : UsageAggregate} (hkey : key ∈ (SinkStep.window agg).touched P before) :
    headOf key ∈ [some 't', some 'c', some 'g', some 's', some 'p', some 'r', some 'i'] := by
  rcases List.mem_append.mp hkey with htenant | hshared
  · exact List.mem_append_left [some 'r', some 'i'] (headOf_tenantWrites htenant)
  · have hr : headOf "rollup:" = some 'r' := rfl
    have hi : headOf "idx:period:" = some 'i' := rfl
    simp only [SinkStep.stamped, UsageStep.sharedWrites, windowSharedWrites, sinkKeys, List.mem_cons,
      List.not_mem_nil, or_false] at hshared
    rcases hshared with rfl | rfl | rfl <;> simp [hr, hi]

theorem floatAt_session {e : TokenEvent} (clock : String)
    (hhead : headOf key ∉ [some 't', some 'c', some 'g', some 's', some 'p']) :
    ((P.keys e).session.toList.flatMap (sessionWrites (P.args e (before e) clock))).filterMap
      (Write.floatAt key) = [] := by
  refine Write.filterMap_floatAt fun w hw htarget => hhead ?_
  obtain ⟨session, hsession, hw⟩ := List.mem_flatMap.mp hw
  have hmem : w.target ∈ (countSuffixes ++ detailSuffixes).map (session ++ ·) := by
    simp only [sessionWrites, List.mem_append, List.mem_cons, Write.mem_positive,
      List.not_mem_nil, or_false] at hw
    casesm* _ ∨ _, _ ∧ _ <;> subst_vars <;> simp [Write.target, countSuffixes, detailSuffixes]
  have hwrites : w.target ∈ ((SinkStep.event e clock).stamped before).tenantWrites P :=
    List.mem_append_left _ (List.mem_append_left _ (List.mem_flatMap.mpr ⟨_, hsession, hmem⟩))
  exact htarget ▸ headOf_tenantWrites hwrites

end Heads

end FluxMeter.Usage
