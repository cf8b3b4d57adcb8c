import FluxMeter.Budget.Settlement
import FluxMeter.Transition.Unwinding
import FluxMeter.Usage.UsageQuery

/-! Which keys the two sinks write, as footprints over the rendered keys of the usage store. -/
namespace FluxMeter.Usage
open FluxMeter.Budget FluxMeter.Keys FluxMeter.Model Transition

/-- The two stores agree on everything a usage reader can find at the key. -/
structure SameAt (key : String) (u u' : UsageStore) : Prop where
  ints : u.ints key = u'.ints key
  floats : u.floats key = u'.floats key
  hashInts : u.hashInts key = u'.hashInts key
  hashFloats : u.hashFloats key = u'.hashFloats key
  sets : u.sets key = u'.sets key

theorem sameAt_equivalence (key : String) : Equivalence (SameAt key) where
  refl _ := ⟨rfl, rfl, rfl, rfl, rfl⟩
  symm h := ⟨h.ints.symm, h.floats.symm, h.hashInts.symm, h.hashFloats.symm, h.sets.symm⟩
  trans h h' := ⟨h.ints.trans h'.ints, h.floats.trans h'.floats, h.hashInts.trans h'.hashInts,
    h.hashFloats.trans h'.hashFloats, h.sets.trans h'.sets⟩

/-! ### The single commands -/

/-- An operation that writes at one key only what it computes from the value there. -/
theorem footprint_of_key {key : String} {f : UsageStore → UsageStore}
    (hframe : ∀ k, k ≠ key → ∀ u, SameAt k (f u) u)
    (hcongr : ∀ u u', SameAt key u u' → SameAt key (f u) (f u')) :
    Footprint SameAt [key] [] f where
  frame k hk := hframe k fun h => hk (List.mem_singleton.mpr h)
  congr k _ u u' h := by
    by_cases hk : k = key
    · subst hk
      exact hcongr u u' h
    · have hsame := sameAt_equivalence k
      exact hsame.trans (hframe k hk u) (hsame.trans h (hsame.symm (hframe k hk u')))

theorem footprint_incrBy (key : String) (n : ℤ) :
    Footprint SameAt [key] [] fun u => u.incrBy key n := by
  apply footprint_of_key
  · intro k hk u
    exact ⟨Function.update_of_ne hk _ _, rfl, rfl, rfl, rfl⟩
  · intro u u' h
    refine ⟨?_, h.floats, h.hashInts, h.hashFloats, h.sets⟩
    show Function.update u.ints key _ key = Function.update u'.ints key _ key
    rw [Function.update_self, Function.update_self, h.ints]

theorem footprint_incrByPositive (key : String) (n : ℤ) :
    Footprint SameAt [key] [] fun u => u.incrByPositive key n := by
  unfold UsageStore.incrByPositive
  by_cases hn : 0 < n
  · simp only [if_pos hn]
    exact footprint_incrBy key n
  · simp only [if_neg hn]
    exact (Footprint.id sameAt_equivalence).mono (List.nil_subset _) (List.nil_subset _)

theorem footprint_incrByFloat (key : String) (q : ℚ) :
    Footprint SameAt [key] [] fun u => u.incrByFloat key q := by
  apply footprint_of_key
  · intro k hk u
    exact ⟨rfl, Function.update_of_ne hk _ _, rfl, rfl, rfl⟩
  · intro u u' h
    refine ⟨h.ints, ?_, h.hashInts, h.hashFloats, h.sets⟩
    show Function.update u.floats key _ key = Function.update u'.floats key _ key
    rw [Function.update_self, Function.update_self, h.floats]

theorem footprint_setInt (key : String) (n : ℤ) :
    Footprint SameAt [key] [] fun u => u.setInt key n := by
  apply footprint_of_key
  · intro k hk u
    exact ⟨Function.update_of_ne hk _ _, rfl, rfl, rfl, rfl⟩
  · intro u u' h
    refine ⟨?_, h.floats, h.hashInts, h.hashFloats, h.sets⟩
    show Function.update u.ints key _ key = Function.update u'.ints key _ key
    rw [Function.update_self, Function.update_self]

theorem footprint_hincrBy (key field : String) (n : ℤ) :
    Footprint SameAt [key] [] fun u => u.hincrBy key field n := by
  apply footprint_of_key
  · intro k hk u
    exact ⟨rfl, rfl, Function.update_of_ne hk _ _, rfl, rfl⟩
  · intro u u' h
    refine ⟨h.ints, h.floats, ?_, h.hashFloats, h.sets⟩
    show Function.update u.hashInts key _ key = Function.update u'.hashInts key _ key
    rw [Function.update_self, Function.update_self, h.hashInts]

theorem footprint_hincrByFloat (key field : String) (q : ℚ) :
    Footprint SameAt [key] [] fun u => u.hincrByFloat key field q := by
  apply footprint_of_key
  · intro k hk u
    exact ⟨rfl, rfl, rfl, Function.update_of_ne hk _ _, rfl⟩
  · intro u u' h
    refine ⟨h.ints, h.floats, h.hashInts, ?_, h.sets⟩
    show Function.update u.hashFloats key _ key = Function.update u'.hashFloats key _ key
    rw [Function.update_self, Function.update_self, h.hashFloats]

theorem footprint_sadd (key member : String) :
    Footprint SameAt [key] [] fun u => u.sadd key member := by
  apply footprint_of_key
  · intro k hk u
    exact ⟨rfl, rfl, rfl, rfl, Function.update_of_ne hk _ _⟩
  · intro u u' h
    refine ⟨h.ints, h.floats, h.hashInts, h.hashFloats, ?_⟩
    show Function.update u.sets key _ key = Function.update u'.sets key _ key
    rw [Function.update_self, Function.update_self, h.sets]

/-! ### The window sink -/

/-- The suffixes of the counters under a customer or a session prefix. -/
def countSuffixes : List String := [":input_tokens", ":output_tokens", ":total_tokens", ":event_count"]

def detailSuffixes : List String := [":cost_usd", ":cache_read_tokens", ":reasoning_tokens"]

def modelSuffixes : List String :=
  [":input_tokens", ":output_tokens", ":total_tokens", ":cost_usd"]

def globalSuffixes : List String :=
  ["total_tokens", "input_tokens", "output_tokens", "total_events", "total_cost_usd",
    "last_window_end"]

/-- The keys the window script writes under the prefix of the window's tenant. -/
def windowTenantWrites (k : SinkKeys) : List String :=
  countSuffixes.map (k.customer ++ ·) ++ modelSuffixes.map (k.model ++ ·) ++
    detailSuffixes.map (k.customer ++ ·) ++ globalSuffixes.map k.global ++ [k.periodVolume]

/-- The keys the window script writes that carry no tenant. -/
def windowSharedWrites (k : SinkKeys) : List String :=
  [k.periodRollup, k.dayRollup, k.periodCustomers]

theorem footprint_rollup (a : SinkArgs) (key : String) :
    Footprint SameAt [key] [] fun u => u.rollup a key := by
  have hpositive : ∀ field n, Footprint SameAt [key] []
      fun u => if 0 < n then u.hincrBy key field n else u := by
    intro field n
    by_cases hn : 0 < n
    · simp only [if_pos hn]
      exact footprint_hincrBy key field n
    · simp only [if_neg hn]
      exact (Footprint.id sameAt_equivalence).mono (List.nil_subset _) (List.nil_subset _)
  have h := ((((((footprint_hincrBy key "input_tokens" a.inputTokens).comp sameAt_equivalence
    (footprint_hincrBy key "output_tokens" a.outputTokens)).comp sameAt_equivalence
    (footprint_hincrBy key "total_tokens" a.totalTokens)).comp sameAt_equivalence
    (footprint_hincrBy key "event_count" a.eventCount)).comp sameAt_equivalence
    (footprint_hincrByFloat key "cost_usd" a.costUsd)).comp sameAt_equivalence
    (hpositive "cache_read_tokens" a.cacheReadTokens)).comp sameAt_equivalence
    (hpositive "reasoning_tokens" a.reasoningTokens)
  exact h.mono (by simp) (by simp)

theorem footprint_applyWindow (k : SinkKeys) (a : SinkArgs) :
    Footprint SameAt (windowTenantWrites k ++ windowSharedWrites k) []
      fun u => u.applyWindow k a := by
  have hcustomer := (((footprint_incrBy (k.customer ++ ":input_tokens") a.inputTokens).comp
    sameAt_equivalence (footprint_incrBy (k.customer ++ ":output_tokens") a.outputTokens)).comp
    sameAt_equivalence (footprint_incrBy (k.customer ++ ":total_tokens") a.totalTokens)).comp
    sameAt_equivalence (footprint_incrBy (k.customer ++ ":event_count") a.eventCount)
  have hmodel := (((hcustomer.comp sameAt_equivalence
    (footprint_incrBy (k.model ++ ":input_tokens") a.inputTokens)).comp sameAt_equivalence
    (footprint_incrBy (k.model ++ ":output_tokens") a.outputTokens)).comp sameAt_equivalence
    (footprint_incrBy (k.model ++ ":total_tokens") a.totalTokens)).comp sameAt_equivalence
    (footprint_incrByFloat (k.model ++ ":cost_usd") a.costUsd)
  have hdetail := ((hmodel.comp sameAt_equivalence
    (footprint_incrByFloat (k.customer ++ ":cost_usd") a.costUsd)).comp sameAt_equivalence
    (footprint_incrByPositive (k.customer ++ ":cache_read_tokens") a.cacheReadTokens)).comp
    sameAt_equivalence
    (footprint_incrByPositive (k.customer ++ ":reasoning_tokens") a.reasoningTokens)
  have hglobal := (((((hdetail.comp sameAt_equivalence
    (footprint_incrBy (k.global "total_tokens") a.totalTokens)).comp sameAt_equivalence
    (footprint_incrBy (k.global "input_tokens") a.inputTokens)).comp sameAt_equivalence
    (footprint_incrBy (k.global "output_tokens") a.outputTokens)).comp sameAt_equivalence
    (footprint_incrBy (k.global "total_events") a.eventCount)).comp sameAt_equivalence
    (footprint_incrByFloat (k.global "total_cost_usd") a.costUsd)).comp sameAt_equivalence
    (footprint_setInt (k.global "last_window_end") a.windowEnd)
  have hall := (((hglobal.comp sameAt_equivalence
    (footprint_incrBy k.periodVolume a.totalTokens)).comp sameAt_equivalence
    (footprint_rollup a k.periodRollup)).comp sameAt_equivalence
    (footprint_rollup a k.dayRollup)).comp sameAt_equivalence
    (footprint_sadd k.periodCustomers a.customerId)
  apply hall.mono
  · intro key hkey
    simp only [windowTenantWrites, windowSharedWrites, countSuffixes, modelSuffixes,
      detailSuffixes, globalSuffixes, List.map_cons, List.map_nil, List.cons_append,
      List.nil_append] at hkey ⊢
    exact hkey
  · simp

private theorem settleOne_usage (b : BudgetKey) (r : Redis) (rid : String) :
    (settleOne b r rid).usage = r.usage := by
  have hspan : ∀ (r : Redis) (s : Option SpanKey) q, (releaseSpan r s q).usage = r.usage := by
    intro r s q
    unfold releaseSpan
    cases s with
    | none => rfl
    | some s => dsimp only; split_ifs <;> rfl
  unfold settleOne releaseHold
  dsimp only
  show (releaseSpan _ _ _).usage = r.usage
  rw [hspan]
  split_ifs <;> rfl

theorem settleWindow_guarded (r : Redis) (k : SinkKeys) :
    (settleWindow r k).usage = r.usage ∧ (settleWindow r k).applied = r.applied := by
  refine ⟨?_, (settleAll_frame k.budget r _).1⟩
  show ((r.windowReservations k.windowId).foldl (settleOne k.budget) r).usage = r.usage
  apply List.foldlRecOn (motive := fun r₁ : Redis => r₁.usage = r.usage)
  · rfl
  · intro r₁ h₁ rid _
    rw [settleOne_usage, h₁]

/-- Of the counters and guards, the window script writes the usage of a fresh window. -/
theorem sinkScript_guarded (r : Redis) (k : SinkKeys) (a : SinkArgs) :
    (sinkScript r k a).1.usage = (if r.applied k.windowId then r.usage else r.usage.applyWindow k a) ∧
      (sinkScript r k a).1.applied =
        (if r.applied k.windowId then r.applied else Function.update r.applied k.windowId true) := by
  have hsettled := settleWindow_guarded (recordWindow r k a) k
  rcases sinkScript_cases r k a with ⟨happlied, heq⟩ | ⟨hfresh, -, heq⟩ | ⟨_, hfresh, -, heq⟩
  · rw [heq, if_pos happlied, if_pos happlied]
    exact ⟨rfl, rfl⟩
  · rw [heq, if_neg (by simp [hfresh]), if_neg (by simp [hfresh])]
    exact hsettled
  · rw [heq, if_neg (by simp [hfresh]), if_neg (by simp [hfresh])]
    exact hsettled

/-! ### The event projection -/

/-- The keys the projection writes under the prefix of the event's tenant. -/
def projectionTenantWrites (k : ProjectionKeys) : List String :=
  (k.session.toList.flatMap fun key => (countSuffixes ++ detailSuffixes).map (key ++ ·)) ++
    [k.package, k.package ++ ":debt"]

def dimWrites (key : String) : List String := [key ++ ":cost_usd", key ++ ":event_count"]

/-- The keys the projection writes that carry no tenant. -/
def projectionSharedWrites (k : ProjectionKeys) : List String :=
  k.modelRollup :: (k.apiKeyDay.toList ++ k.apiKeyMonth.toList ++ k.dims.flatMap dimWrites)

/-- The package reads the balance it charges the debt for. -/
def packageKeys (k : ProjectionKeys) : List String := [k.package, k.package ++ ":debt"]

private theorem footprint_sessionCounters (a : ProjectionArgs) (key : String) :
    Footprint SameAt ((countSuffixes ++ detailSuffixes).map (key ++ ·)) [] fun u =>
      sessionCounters u a key := by
  have h := ((((((footprint_incrBy (key ++ ":input_tokens") a.inputTokens).comp sameAt_equivalence
    (footprint_incrBy (key ++ ":output_tokens") a.outputTokens)).comp sameAt_equivalence
    (footprint_incrBy (key ++ ":total_tokens") a.totalTokens)).comp sameAt_equivalence
    (footprint_incrBy (key ++ ":event_count") 1)).comp sameAt_equivalence
    (footprint_incrByFloat (key ++ ":cost_usd") a.costUsd)).comp sameAt_equivalence
    (footprint_incrByPositive (key ++ ":cache_read_tokens") a.cacheReadTokens)).comp
    sameAt_equivalence
    (footprint_incrByPositive (key ++ ":reasoning_tokens") a.reasoningTokens)
  exact h.mono (fun _ hkey => hkey) (by simp)

theorem footprint_sessionUsage (a : ProjectionArgs) (key : Option String) :
    Footprint SameAt (key.toList.flatMap fun key => (countSuffixes ++ detailSuffixes).map (key ++ ·))
      [] fun u => sessionUsage u a key := by
  cases key with
  | none => exact Footprint.id sameAt_equivalence
  | some key =>
    rw [Option.toList_some, List.flatMap_singleton]
    exact footprint_sessionCounters a key

theorem footprint_modelRollup (a : ProjectionArgs) (key : String) :
    Footprint SameAt [key] [] fun u => modelRollup u a key := by
  have h := ((((footprint_hincrByFloat key "cost_usd" a.costUsd).comp sameAt_equivalence
    (footprint_hincrBy key "event_count" 1)).comp sameAt_equivalence
    (footprint_hincrBy key "total_tokens" a.totalTokens)).comp sameAt_equivalence
    (footprint_hincrBy key "input_tokens" a.inputTokens)).comp sameAt_equivalence
    (footprint_hincrBy key "output_tokens" a.outputTokens)
  exact h.mono (by simp) (by simp)

theorem footprint_drawPackage (a : ProjectionArgs) (key : String) :
    Footprint SameAt [key, key ++ ":debt"] [key, key ++ ":debt"] fun u => drawPackage u a key := by
  apply Footprint.of_frame sameAt_equivalence
  intro k hk u
  simp only [List.mem_cons, List.not_mem_nil, or_false, not_or] at hk
  have hset := fun u n => (footprint_setInt key n).frame k (by simpa using hk.1) u
  have hdebt := fun u n => (footprint_incrBy (key ++ ":debt") n).frame k (by simpa using hk.2) u
  unfold drawPackage
  cases u.ints key with
  | none => exact (sameAt_equivalence k).refl u
  | some remaining =>
    dsimp only
    split_ifs with hnext
    · exact (sameAt_equivalence k).trans (hset _ _) (hdebt _ _)
    · exact hset _ _

theorem footprint_spendApiKey (a : ProjectionArgs) (key : Option String) :
    Footprint SameAt key.toList [] fun u => spendApiKey u a key := by
  cases key with
  | none => exact Footprint.id sameAt_equivalence
  | some key => exact footprint_incrByFloat key a.costUsd

theorem footprint_dimTotals (a : ProjectionArgs) (key : String) :
    Footprint SameAt (dimWrites key) [] fun u => dimTotals u a key :=
  (footprint_incrByFloat (key ++ ":cost_usd") a.costUsd).comp sameAt_equivalence
    (footprint_incrBy (key ++ ":event_count") 1)

theorem footprint_projectUsage (k : ProjectionKeys) (a : ProjectionArgs) :
    Footprint SameAt (projectionTenantWrites k ++ projectionSharedWrites k) (packageKeys k)
      fun u => projectUsage u k a := by
  have hsession := footprint_sessionUsage a k.session
  have hdims := Footprint.foldl sameAt_equivalence (footprint_dimTotals a) k.dims
  have hall := ((((hsession.comp sameAt_equivalence
    (footprint_modelRollup a k.modelRollup)).comp sameAt_equivalence
    (footprint_drawPackage a k.package)).comp sameAt_equivalence
    (footprint_spendApiKey a k.apiKeyDay)).comp sameAt_equivalence
    (footprint_spendApiKey a k.apiKeyMonth)).comp sameAt_equivalence hdims
  apply hall.mono
  · intro key hkey
    simp only [projectionTenantWrites, projectionSharedWrites, List.mem_append, List.mem_cons,
      List.not_mem_nil, or_false] at hkey ⊢
    tauto
  · simp [packageKeys]

end FluxMeter.Usage
