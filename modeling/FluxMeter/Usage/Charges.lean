import FluxMeter.Keys.Shapes
import FluxMeter.Usage.Footprints

/-! Scripts that only ever charge: counters and costs grow, balances and packages shrink. -/
namespace FluxMeter.Usage
open FluxMeter.Budget FluxMeter.Keys FluxMeter.Model

/-- The key holds a count that is summed up, neither a package nor the time of the last window. -/
structure CounterKey (key : String) : Prop where
  package : ∀ t c, key ≠ packageKey t c
  lastWindow : ∀ t, key ≠ globalKey t "last_window_end"

/-- No counter and no cost went down, no package went up. -/
structure Grown (u u' : UsageStore) : Prop where
  ints : ∀ key, CounterKey key → integer (u.ints key) ≤ integer (u'.ints key)
  floats : ∀ key, number (u.floats key) ≤ number (u'.floats key)
  hashInts : ∀ key field, integer (u.hashInts key field) ≤ integer (u'.hashInts key field)
  hashFloats : ∀ key field, number (u.hashFloats key field) ≤ number (u'.hashFloats key field)
  packages : ∀ t c, ∀ n' ∈ u'.ints (packageKey t c), ∃ n ∈ u.ints (packageKey t c), n' ≤ n

/-- Nothing that is owed was given back: usage grew, no balance went up, and what a budget has
paid or owes did not go down. -/
structure Charged (s s' : Keyspace) : Prop where
  usage : Grown s.usage s'.usage
  balances : ∀ b, ∀ q' ∈ (s'.budgets b).balanceUsd, ∃ q ∈ (s.budgets b).balanceUsd, q' ≤ q
  deducted : ∀ b, number (s.budgets b).totalDeductedUsd ≤ number (s'.budgets b).totalDeductedUsd
  debts : ∀ b, number (s.budgets b).debtUsd ≤ number (s'.budgets b).debtUsd

namespace Grown
variable {u u' u'' : UsageStore}

theorem refl (u : UsageStore) : Grown u u where
  ints _ _ := le_refl _
  floats _ := le_refl _
  hashInts _ _ := le_refl _
  hashFloats _ _ := le_refl _
  packages _ _ n' hn := ⟨n', hn, le_refl _⟩

theorem trans (h : Grown u u') (h' : Grown u' u'') : Grown u u'' where
  ints key hkey := (h.ints key hkey).trans (h'.ints key hkey)
  floats key := (h.floats key).trans (h'.floats key)
  hashInts key field := (h.hashInts key field).trans (h'.hashInts key field)
  hashFloats key field := (h.hashFloats key field).trans (h'.hashFloats key field)
  packages t c n'' hn := by
    obtain ⟨n', hn', hle'⟩ := h'.packages t c n'' hn
    obtain ⟨n, hn, hle⟩ := h.packages t c n' hn'
    exact ⟨n, hn, hle'.trans hle⟩

end Grown

/-- A key whose last letters are not those of a package. -/
theorem ne_packageKey_of_end {key : String} (h : endOf key ≠ endOf ":tokens_remaining")
    (t : Option String) (c : String) : key ≠ packageKey t c := by
  obtain ⟨⟨p, hp⟩, -⟩ := packageKey_shape t c
  rintro rfl
  apply h
  rw [hp, endOf_append p (by decide)]

section Commands
variable (u : UsageStore) {key : String}

/-- A write to one integer key leaves the packages alone when the key is none. -/
theorem packages_of_update {ints : String → Option ℤ} {v : Option ℤ}
    (hkey : ∀ t c, key ≠ packageKey t c) (t : Option String) (c : String) :
    ∀ n' ∈ Function.update ints key v (packageKey t c), ∃ n ∈ ints (packageKey t c), n' ≤ n := by
  intro n' hn
  rw [Function.update_of_ne (hkey t c).symm] at hn
  exact ⟨n', hn, le_refl _⟩

theorem grown_incrBy {n : ℤ} (hn : 0 ≤ n) (hkey : ∀ t c, key ≠ packageKey t c) :
    Grown u (u.incrBy key n) where
  ints j _ := by
    show integer (u.ints j) ≤ integer (Function.update u.ints key _ j)
    by_cases hj : j = key
    · subst hj
      rw [Function.update_self]
      show integer (u.ints j) ≤ integer (u.ints j) + n
      omega
    · rw [Function.update_of_ne hj]
  floats _ := le_refl _
  hashInts _ _ := le_refl _
  hashFloats _ _ := le_refl _
  packages := packages_of_update hkey

theorem grown_incrByPositive (n : ℤ) (hkey : ∀ t c, key ≠ packageKey t c) :
    Grown u (u.incrByPositive key n) := by
  unfold UsageStore.incrByPositive
  split_ifs with hn
  · exact grown_incrBy u hn.le hkey
  · exact Grown.refl u

theorem grown_incrByFloat (key : String) {q : ℚ} (hq : 0 ≤ q) : Grown u (u.incrByFloat key q) where
  ints _ _ := le_refl _
  floats j := by
    show number (u.floats j) ≤ number (Function.update u.floats key _ j)
    by_cases hj : j = key
    · subst hj
      rw [Function.update_self, number_incrByFloat]
      exact le_add_of_nonneg_right hq
    · rw [Function.update_of_ne hj]
  hashInts _ _ := le_refl _
  hashFloats _ _ := le_refl _
  packages _ _ n' hn := ⟨n', hn, le_refl _⟩

theorem grown_hincrBy (key field : String) {n : ℤ} (hn : 0 ≤ n) :
    Grown u (u.hincrBy key field n) where
  ints _ _ := le_refl _
  floats _ := le_refl _
  hashInts j f := by
    show integer (u.hashInts j f) ≤ integer (Function.update u.hashInts key _ j f)
    by_cases hj : j = key
    · subst hj
      rw [Function.update_self]
      by_cases hf : f = field
      · subst hf
        rw [Function.update_self]
        show integer (u.hashInts j f) ≤ integer (u.hashInts j f) + n
        omega
      · rw [Function.update_of_ne hf]
    · rw [Function.update_of_ne hj]
  hashFloats _ _ := le_refl _
  packages _ _ n' hn := ⟨n', hn, le_refl _⟩

theorem grown_hincrByFloat (key field : String) {q : ℚ} (hq : 0 ≤ q) :
    Grown u (u.hincrByFloat key field q) where
  ints _ _ := le_refl _
  floats _ := le_refl _
  hashInts _ _ := le_refl _
  hashFloats j f := by
    show number (u.hashFloats j f) ≤ number (Function.update u.hashFloats key _ j f)
    by_cases hj : j = key
    · subst hj
      rw [Function.update_self]
      by_cases hf : f = field
      · subst hf
        rw [Function.update_self, number_incrByFloat]
        exact le_add_of_nonneg_right hq
      · rw [Function.update_of_ne hf]
    · rw [Function.update_of_ne hj]
  packages _ _ n' hn := ⟨n', hn, le_refl _⟩

theorem grown_sadd (key member : String) : Grown u (u.sadd key member) where
  ints _ _ := le_refl _
  floats _ := le_refl _
  hashInts _ _ := le_refl _
  hashFloats _ _ := le_refl _
  packages _ _ n' hn := ⟨n', hn, le_refl _⟩

theorem grown_setInt {n : ℤ} (hcounter : ¬ CounterKey key)
    (hkey : ∀ t c, key ≠ packageKey t c) : Grown u (u.setInt key n) where
  ints j hj := by
    have hne : j ≠ key := by
      rintro rfl
      exact hcounter hj
    show integer (u.ints j) ≤ integer (Function.update u.ints key _ j)
    rw [Function.update_of_ne hne]
  floats _ := le_refl _
  hashInts _ _ := le_refl _
  hashFloats _ _ := le_refl _
  packages := packages_of_update hkey

end Commands

/-! ### The scripts -/

/-- The counts and the cost of a window or of an event are not negative. -/
structure Chargeable (inputTokens outputTokens totalTokens eventCount : ℤ) (costUsd : ℚ) :
    Prop where
  input : 0 ≤ inputTokens
  output : 0 ≤ outputTokens
  total : 0 ≤ totalTokens
  events : 0 ≤ eventCount
  cost : 0 ≤ costUsd

section Scripts
variable (u : UsageStore)

/-- A counter key, which ends in a suffix that no package has. -/
theorem ne_packageKey_suffix (p : String) {suffix : String} (hlong : 2 ≤ suffix.toList.length)
    (hend : endOf suffix ≠ endOf ":tokens_remaining") (t : Option String) (c : String) :
    p ++ suffix ≠ packageKey t c :=
  ne_packageKey_of_end (by rw [endOf_append p hlong]; exact hend) t c

theorem grown_rollup {a : SinkArgs} (key : String)
    (h : Chargeable a.inputTokens a.outputTokens a.totalTokens a.eventCount a.costUsd) :
    Grown u (u.rollup a key) := by
  have hpositive : ∀ (u : UsageStore) field n,
      Grown u (if 0 < n then u.hincrBy key field n else u) := by
    intro u field n
    split_ifs with hn
    · exact grown_hincrBy u key field hn.le
    · exact Grown.refl u
  unfold UsageStore.rollup
  dsimp only
  apply ((((Grown.trans (grown_hincrBy u key _ h.input) (grown_hincrBy _ key _ h.output)).trans
    (grown_hincrBy _ key _ h.total)).trans (grown_hincrBy _ key _ h.events)).trans
    (grown_hincrByFloat _ key _ h.cost)).trans
  exact (hpositive _ _ _).trans (hpositive _ _ _)

theorem globalKey_end (t : Option String) {suffix : String} (hlong : 2 ≤ suffix.toList.length) :
    endOf (globalKey t suffix) = endOf suffix := by
  have hplain : endOf ("global:" ++ suffix) = endOf suffix := endOf_append _ hlong
  unfold globalKey inTenant
  cases t with
  | none => exact hplain
  | some t =>
    dsimp only
    split_ifs
    · rw [endOf_append _ (by rw [String.toList_append, List.length_append]; omega)]
      exact hplain
    · exact hplain

theorem grown_applyWindow {k : SinkKeys} {a : SinkArgs} {t : Option String}
    (hglobal : k.global = globalKey t)
    (hvolume : ∃ p, k.periodVolume = p ++ ":volume_tokens")
    (h : Chargeable a.inputTokens a.outputTokens a.totalTokens a.eventCount a.costUsd) :
    Grown u (u.applyWindow k a) := by
  have hkey : ∀ (p suffix : String), 2 ≤ suffix.toList.length →
      endOf suffix ≠ endOf ":tokens_remaining" → ∀ t c, p ++ suffix ≠ packageKey t c :=
    fun p suffix hlong hend => ne_packageKey_suffix p hlong hend
  have hglobalKey : ∀ suffix : String, 2 ≤ suffix.toList.length →
      endOf suffix ≠ endOf ":tokens_remaining" → ∀ t' c, k.global suffix ≠ packageKey t' c := by
    intro suffix hlong hend
    rw [hglobal]
    exact ne_packageKey_of_end (by rw [globalKey_end t hlong]; exact hend)
  obtain ⟨p, hp⟩ := hvolume
  have hvolumeKey : ∀ t c, k.periodVolume ≠ packageKey t c := by
    rw [hp]
    exact hkey p ":volume_tokens" (by decide) (by decide)
  have hlast : ¬ CounterKey (k.global "last_window_end") := by
    intro hcounter
    exact hcounter.lastWindow t (by rw [hglobal])
  unfold UsageStore.applyWindow
  dsimp only
  refine Grown.trans ?_ (grown_sadd _ _ _)
  refine Grown.trans (Grown.trans ?_ (grown_rollup _ k.periodRollup h)) (grown_rollup _ k.dayRollup h)
  refine Grown.trans ?_ (grown_incrBy _ h.total hvolumeKey)
  refine Grown.trans ?_ (grown_setInt _ hlast (hglobalKey _ (by decide) (by decide)))
  refine Grown.trans ?_ (grown_incrByFloat _ _ h.cost)
  refine Grown.trans ?_ (grown_incrBy _ h.events (hglobalKey _ (by decide) (by decide)))
  refine Grown.trans ?_ (grown_incrBy _ h.output (hglobalKey _ (by decide) (by decide)))
  refine Grown.trans ?_ (grown_incrBy _ h.input (hglobalKey _ (by decide) (by decide)))
  refine Grown.trans ?_ (grown_incrBy _ h.total (hglobalKey _ (by decide) (by decide)))
  refine Grown.trans ?_ (grown_incrByPositive _ _ (hkey _ _ (by decide) (by decide)))
  refine Grown.trans ?_ (grown_incrByPositive _ _ (hkey _ _ (by decide) (by decide)))
  refine Grown.trans ?_ (grown_incrByFloat _ _ h.cost)
  refine Grown.trans ?_ (grown_incrByFloat _ _ h.cost)
  refine Grown.trans ?_ (grown_incrBy _ h.total (hkey _ _ (by decide) (by decide)))
  refine Grown.trans ?_ (grown_incrBy _ h.output (hkey _ _ (by decide) (by decide)))
  refine Grown.trans ?_ (grown_incrBy _ h.input (hkey _ _ (by decide) (by decide)))
  refine Grown.trans ?_ (grown_incrBy _ h.events (hkey _ _ (by decide) (by decide)))
  refine Grown.trans ?_ (grown_incrBy _ h.total (hkey _ _ (by decide) (by decide)))
  refine Grown.trans ?_ (grown_incrBy _ h.output (hkey _ _ (by decide) (by decide)))
  exact grown_incrBy _ h.input (hkey _ _ (by decide) (by decide))

theorem grown_sessionCounters {a : ProjectionArgs} (key : String)
    (h : Chargeable a.inputTokens a.outputTokens a.totalTokens 1 a.costUsd) :
    Grown u (sessionCounters u a key) := by
  have hkey : ∀ (suffix : String), 2 ≤ suffix.toList.length →
      endOf suffix ≠ endOf ":tokens_remaining" → ∀ t c, key ++ suffix ≠ packageKey t c :=
    fun suffix hlong hend => ne_packageKey_suffix key hlong hend
  unfold sessionCounters
  refine Grown.trans ?_ (grown_incrByPositive _ _ (hkey _ (by decide) (by decide)))
  refine Grown.trans ?_ (grown_incrByPositive _ _ (hkey _ (by decide) (by decide)))
  refine Grown.trans ?_ (grown_incrByFloat _ _ h.cost)
  refine Grown.trans ?_ (grown_incrBy _ h.events (hkey _ (by decide) (by decide)))
  refine Grown.trans ?_ (grown_incrBy _ h.total (hkey _ (by decide) (by decide)))
  refine Grown.trans ?_ (grown_incrBy _ h.output (hkey _ (by decide) (by decide)))
  exact grown_incrBy _ h.input (hkey _ (by decide) (by decide))

theorem grown_modelRollup {a : ProjectionArgs} (key : String)
    (h : Chargeable a.inputTokens a.outputTokens a.totalTokens 1 a.costUsd) :
    Grown u (modelRollup u a key) := by
  unfold modelRollup
  exact ((((grown_hincrByFloat u key _ h.cost).trans (grown_hincrBy _ key _ h.events)).trans
    (grown_hincrBy _ key _ h.total)).trans (grown_hincrBy _ key _ h.input)).trans
    (grown_hincrBy _ key _ h.output)

theorem grown_drawPackage {a : ProjectionArgs} (t : Option String) (c : String)
    (hfunded : ∀ n ∈ u.ints (packageKey t c), 0 ≤ n) (htotal : 0 ≤ a.totalTokens) :
    Grown u (drawPackage u a (packageKey t c)) := by
  have hdebt : ∀ t' c', packageKey t c ++ ":debt" ≠ packageKey t' c' :=
    ne_packageKey_suffix (packageKey t c) (by decide) (by decide)
  -- overwriting the package with at most what it had
  have hset : ∀ (u : UsageStore) (n next : ℤ), u.ints (packageKey t c) = some n → next ≤ n →
      Grown u (u.setInt (packageKey t c) next) := by
    intro u n next hn hle
    refine ⟨fun j hj => ?_, fun _ => le_refl _, fun _ _ => le_refl _, fun _ _ => le_refl _, ?_⟩
    · show integer (u.ints j) ≤ integer (Function.update u.ints (packageKey t c) _ j)
      rw [Function.update_of_ne (hj.package t c)]
    · intro t' c' n' hn'
      by_cases hsame : packageKey t' c' = packageKey t c
      · have hnext : next = n' := by
          have hmem : Function.update u.ints (packageKey t c) (some next) (packageKey t' c') =
              some n' := hn'
          rw [hsame, Function.update_self] at hmem
          exact Option.some.inj hmem
        exact ⟨n, hsame ▸ hn, hnext ▸ hle⟩
      · have hmem : Function.update u.ints (packageKey t c) (some next) (packageKey t' c') =
            some n' := hn'
        rw [Function.update_of_ne hsame] at hmem
        exact ⟨n', hmem, le_refl _⟩
  unfold drawPackage
  cases hn : u.ints (packageKey t c) with
  | none => exact Grown.refl u
  | some n =>
    have hpositive : 0 ≤ n := hfunded n hn
    dsimp only
    split_ifs with hnext
    · have hkept : (u.incrBy (packageKey t c ++ ":debt") (-(n - a.totalTokens))).ints
          (packageKey t c) = some n := by
        show Function.update u.ints _ _ (packageKey t c) = some n
        rw [Function.update_of_ne (hdebt t c).symm, hn]
      exact (grown_incrBy u (by omega) hdebt).trans (hset _ n 0 hkept hpositive)
    · exact hset u n _ hn (by omega)

theorem grown_spendApiKey {a : ProjectionArgs} (key : Option String) (hcost : 0 ≤ a.costUsd) :
    Grown u (spendApiKey u a key) := by
  unfold spendApiKey
  cases key with
  | none => exact Grown.refl u
  | some key => exact grown_incrByFloat u key hcost

theorem grown_dimTotals {a : ProjectionArgs} (keys : List String) (hcost : 0 ≤ a.costUsd) :
    Grown u (keys.foldl (fun u key => dimTotals u a key) u) := by
  apply List.foldlRecOn (motive := fun u' => Grown u u')
  · exact Grown.refl u
  · intro u' h key _
    refine h.trans ((grown_incrByFloat u' _ hcost).trans (grown_incrBy _ (by omega) ?_))
    exact ne_packageKey_suffix key (by decide) (by decide)

private theorem grown_sessionUsage {a : ProjectionArgs} (key : Option String)
    (h : Chargeable a.inputTokens a.outputTokens a.totalTokens 1 a.costUsd) :
    Grown u (sessionUsage u a key) := by
  unfold sessionUsage
  cases key with
  | none => exact Grown.refl u
  | some key => exact grown_sessionCounters u key h

theorem session_package (a : ProjectionArgs) (session : Option String) (rollup : String)
    (t : Option String) (c : String) :
    (modelRollup (sessionUsage u a session) a rollup).ints (packageKey t c) =
      u.ints (packageKey t c) := by
  show (sessionUsage u a session).ints (packageKey t c) = u.ints (packageKey t c)
  apply ((footprint_sessionUsage a session).frame (packageKey t c) ?_ u).ints
  intro hmem
  obtain ⟨key, -, hkey⟩ := List.mem_flatMap.mp hmem
  obtain ⟨suffix, hsuffix, heq⟩ := List.mem_map.mp hkey
  have hends : ∀ x ∈ countSuffixes ++ detailSuffixes, 2 ≤ x.toList.length ∧
      endOf x ≠ endOf ":tokens_remaining" := by decide
  exact ne_packageKey_suffix key (hends suffix hsuffix).1 (hends suffix hsuffix).2 t c heq

theorem grown_projectUsage {k : ProjectionKeys} {a : ProjectionArgs} {t : Option String}
    {c : String} (hpackage : k.package = packageKey t c)
    (hfunded : ∀ n ∈ u.ints (packageKey t c), 0 ≤ n)
    (h : Chargeable a.inputTokens a.outputTokens a.totalTokens 1 a.costUsd) :
    Grown u (projectUsage u k a) := by
  have hkept := session_package u a k.session k.modelRollup t c
  unfold projectUsage
  dsimp only
  rw [hpackage]
  refine Grown.trans ?_ (grown_dimTotals _ k.dims h.cost)
  refine Grown.trans ?_ (grown_spendApiKey _ k.apiKeyMonth h.cost)
  refine Grown.trans ?_ (grown_spendApiKey _ k.apiKeyDay h.cost)
  refine Grown.trans ?_ (grown_drawPackage _ t c (by rw [hkept]; exact hfunded) h.total)
  exact (grown_sessionUsage u k.session h).trans (grown_modelRollup _ k.modelRollup h)

end Scripts

end FluxMeter.Usage
