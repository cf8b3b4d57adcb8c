import FluxMeter.Pricing.PricingCatalog
import Mathlib.Algebra.Order.Floor.Ring
import Mathlib.Tactic.Linarith
import Mathlib.Tactic.Positivity

/-! The sign and the size of a price. Where every rate is non-negative and no cost leaves the
range of `long`, the price of an event is not negative as long as its token counts balance
within each rate. -/
namespace FluxMeter.Pricing
open FluxMeter.Model

/-! ### Rounding -/

theorem mathRound_of_small {x : ℚ} {n : ℕ} (hx : |x| ≤ n) (hn : n < 2 ^ 62) :
    mathRound x = ⌊x + 1 / 2⌋ := by
  obtain ⟨hlo, hhi⟩ := abs_le.mp hx
  have hn' : (n : ℚ) < 2 ^ 62 := by exact_mod_cast hn
  have hfloor : ⌊x + 1 / 2⌋ < 2 ^ 63 - 1 := by
    apply Int.floor_lt.mpr
    push_cast
    linarith
  have hfloor' : -(2 ^ 63) < ⌊x + 1 / 2⌋ := by
    apply Int.lt_of_lt_of_le (b := -(2 ^ 62) - 1) (by norm_num)
    apply Int.le_floor.mpr
    push_cast
    linarith
  unfold mathRound
  omega

theorem abs_mathRound_le {x : ℚ} {n : ℕ} (hx : |x| ≤ n) (hn : n < 2 ^ 62) :
    |mathRound x| ≤ n := by
  obtain ⟨hlo, hhi⟩ := abs_le.mp hx
  have hupper : ⌊x + 1 / 2⌋ < n + 1 := by
    apply Int.floor_lt.mpr
    push_cast
    linarith
  have hlower : -(n : ℤ) ≤ ⌊x + 1 / 2⌋ := by
    apply Int.le_floor.mpr
    push_cast
    linarith
  rw [mathRound_of_small hx hn, abs_le]
  omega

theorem mathRound_nonneg {x : ℚ} (hx : 0 ≤ x) : 0 ≤ mathRound x := by
  have hfloor : 0 ≤ ⌊x + 1 / 2⌋ := by
    apply Int.le_floor.mpr
    push_cast
    linarith
  unfold mathRound
  omega

theorem abs_cost_le {t : ℤ} {rate : ℚ} {tokens bound : ℕ} (ht : |t| ≤ tokens) (hr : 0 ≤ rate)
    (hbound : rate ≤ bound) : |(t : ℚ) * rate| ≤ (tokens * bound : ℕ) := by
  have ht' : |(t : ℚ)| ≤ tokens := by exact_mod_cast ht
  rw [abs_mul, abs_of_nonneg hr]
  push_cast
  exact mul_le_mul ht' hbound hr (Nat.cast_nonneg tokens)

/-- Two counts at one rate that are not negative together cost nothing less than zero, although
each cost is rounded for itself. -/
theorem mathRound_pair_nonneg {a b : ℤ} {rate : ℚ} {tokens bound : ℕ} (ha : 0 ≤ a)
    (hab : 0 ≤ a + b) (hatokens : |a| ≤ tokens) (hbtokens : |b| ≤ tokens) (hr : 0 ≤ rate)
    (hbound : rate ≤ bound) (hsize : tokens * bound < 2 ^ 62) :
    0 ≤ mathRound (a * rate) + mathRound (b * rate) := by
  by_cases hb : 0 ≤ b
  · have ha' : (0 : ℚ) ≤ a * rate := mul_nonneg (by exact_mod_cast ha) hr
    have hb' : (0 : ℚ) ≤ b * rate := mul_nonneg (by exact_mod_cast hb) hr
    have hleft := mathRound_nonneg ha'
    have hright := mathRound_nonneg hb'
    omega
  · rw [mathRound_of_small (abs_cost_le hatokens hr hbound) hsize,
      mathRound_of_small (abs_cost_le hbtokens hr hbound) hsize]
    have hle : -((b : ℚ) * rate) ≤ a * rate := by
      have hba : -(b : ℚ) ≤ a := by
        have hneg : -b ≤ a := by omega
        exact_mod_cast hneg
      calc -((b : ℚ) * rate) = -(b : ℚ) * rate := by ring
        _ ≤ a * rate := mul_le_mul_of_nonneg_right hba hr
    -- the two floors lose less than one together
    have hfloors : (-1 : ℚ) < ⌊(a : ℚ) * rate + 1 / 2⌋ + ⌊(b : ℚ) * rate + 1 / 2⌋ := by
      have hfa := Int.lt_floor_add_one ((a : ℚ) * rate + 1 / 2)
      have hfb := Int.lt_floor_add_one ((b : ℚ) * rate + 1 / 2)
      linarith
    have hint : (-1 : ℤ) < ⌊(a : ℚ) * rate + 1 / 2⌋ + ⌊(b : ℚ) * rate + 1 / 2⌋ := by
      exact_mod_cast hfloors
    omega

theorem wrap64_of_small {x : ℤ} (h : |x| < 2 ^ 63) : wrap64 x = x := by
  obtain ⟨hlo, hhi⟩ := abs_lt.mp h
  unfold wrap64
  omega

/-! ### The price of one event -/

/-- Every rate of the model lies between zero and the bound. -/
def ModelPricing.Priced (m : ModelPricing) (cacheReadMultiplier : ℚ) (bound : ℕ) : Prop :=
  ∀ tier ∈ m.flatTier :: m.tiers, ∀ category, 0 ≤ rateFor tier cacheReadMultiplier category ∧
    rateFor tier cacheReadMultiplier category ≤ bound

/-- Every rate the catalog can charge lies between zero and the bound. -/
def PricingCatalog.Priced (catalog : PricingCatalog) (bound : ℕ) : Prop :=
  ∀ m ∈ catalog.defaults :: catalog.models.rows.map Prod.snd,
    m.Priced catalog.cacheReadMultiplier bound

/-- The counts are `int` values. -/
structure IntCounts (c : TokenCounts) : Prop where
  input : |c.input| ≤ (2 ^ 31 : ℕ)
  output : |c.output| ≤ (2 ^ 31 : ℕ)
  cacheRead : |c.cacheRead| ≤ (2 ^ 31 : ℕ)
  cacheWrite : |c.cacheWrite| ≤ (2 ^ 31 : ℕ)
  reasoning : |c.reasoning| ≤ (2 ^ 31 : ℕ)
  embedding : |c.embedding| ≤ (2 ^ 31 : ℕ)

/-- The counts that share a rate are not negative together, and the first of them is not
negative alone. -/
structure Payable (c : TokenCounts) : Prop where
  input : 0 ≤ c.input
  output : 0 ≤ c.output
  cacheRead : 0 ≤ c.cacheRead
  embedding : 0 ≤ c.embedding
  cacheWrite : 0 ≤ c.input + c.cacheWrite
  reasoning : 0 ≤ c.output + c.reasoning

instance (c : TokenCounts) : Decidable (Payable c) :=
  decidable_of_iff (0 ≤ c.input ∧ 0 ≤ c.output ∧ 0 ≤ c.cacheRead ∧ 0 ≤ c.embedding ∧
      0 ≤ c.input + c.cacheWrite ∧ 0 ≤ c.output + c.reasoning)
    ⟨fun ⟨h₁, h₂, h₃, h₄, h₅, h₆⟩ => ⟨h₁, h₂, h₃, h₄, h₅, h₆⟩,
      fun h => ⟨h.input, h.output, h.cacheRead, h.embedding, h.cacheWrite, h.reasoning⟩⟩

/-- The most an event can cost at the bound. -/
def priceBound (bound : ℕ) : ℕ := 6 * (2 ^ 31 * bound)

section Model
variable {m : ModelPricing} {mult : ℚ} {bound : ℕ} {e : TokenEvent}

theorem lastTier_mem (m : ModelPricing) : m.lastTier ∈ m.flatTier :: m.tiers := by
  unfold ModelPricing.lastTier
  cases hlast : m.tiers.getLast? with
  | none => exact List.mem_cons_self
  | some tier => exact List.mem_cons_of_mem _ (List.mem_of_getLast? hlast)

theorem tierAtToken_mem (m : ModelPricing) (i : ℤ) : m.tierAtToken i ∈ m.flatTier :: m.tiers := by
  unfold ModelPricing.tierAtToken
  dsimp only
  cases hfind : m.tiers.find? fun tier => tier.upToTokensM.all (i.tdiv 1000000 < ·) with
  | none => exact lastTier_mem m
  | some tier => exact List.mem_cons_of_mem _ (List.mem_of_find?_eq_some hfind)

theorem selectTier_mem (m : ModelPricing) (i : ℤ) : m.selectTier i ∈ m.flatTier :: m.tiers := by
  unfold ModelPricing.selectTier
  split_ifs
  · exact List.mem_cons_self
  · exact tierAtToken_mem m i

theorem costAtTier_wrap (e : TokenEvent) (tier : Tier) (mult : ℚ) :
    costAtTier e tier mult = wrap64 (mathRound (e.inputTokens * tier.inputPerM) +
      mathRound (e.outputTokens * tier.outputPerM) +
      mathRound (e.cacheReadTokens * (tier.inputPerM * mult)) +
      mathRound (e.reasoningTokens * tier.outputPerM) +
      mathRound (e.cacheWriteTokens * tier.inputPerM) +
      mathRound (e.embeddingTokens * tier.embeddingPerM)) := by
  unfold costAtTier
  dsimp only
  rw [mul_assoc (e.cacheReadTokens : ℚ), zero_add]
  simp only [wrap64_add]

theorem costAtTier_sum {tier : Tier} (htier : tier ∈ m.flatTier :: m.tiers)
    (hm : m.Priced mult bound) (hint : IntCounts e.counts) (hsize : priceBound bound < 2 ^ 63) :
    costAtTier e tier mult = mathRound (e.inputTokens * tier.inputPerM) +
        mathRound (e.outputTokens * tier.outputPerM) +
        mathRound (e.cacheReadTokens * (tier.inputPerM * mult)) +
        mathRound (e.reasoningTokens * tier.outputPerM) +
        mathRound (e.cacheWriteTokens * tier.inputPerM) +
        mathRound (e.embeddingTokens * tier.embeddingPerM) ∧
      |costAtTier e tier mult| ≤ priceBound bound := by
  have hrates := hm tier htier
  have hterm : ∀ (t : ℤ) (category : Category), |t| ≤ (2 ^ 31 : ℕ) →
      |mathRound (t * rateFor tier mult category)| ≤ (2 ^ 31 * bound : ℕ) := by
    intro t category ht
    refine abs_mathRound_le (abs_cost_le ht (hrates category).1 (hrates category).2) ?_
    unfold priceBound at hsize
    omega
  have hin := abs_le.mp (hterm e.inputTokens .input hint.input)
  have hout := abs_le.mp (hterm e.outputTokens .output hint.output)
  have hread := abs_le.mp (hterm e.cacheReadTokens .cacheRead hint.cacheRead)
  have hreason := abs_le.mp (hterm e.reasoningTokens .reasoning hint.reasoning)
  have hwrite := abs_le.mp (hterm e.cacheWriteTokens .cacheWrite hint.cacheWrite)
  have hembed := abs_le.mp (hterm e.embeddingTokens .embedding hint.embedding)
  simp only [rateFor] at hin hout hread hreason hwrite hembed
  unfold priceBound at hsize ⊢
  rw [costAtTier_wrap, wrap64_of_small (abs_lt.mpr (by omega))]
  exact ⟨rfl, abs_le.mpr (by omega)⟩

theorem costAtTier_nonneg {tier : Tier} (htier : tier ∈ m.flatTier :: m.tiers)
    (hm : m.Priced mult bound) (hint : IntCounts e.counts) (hpay : Payable e.counts)
    (hsize : priceBound bound < 2 ^ 63) :
    0 ≤ costAtTier e tier mult ∧ costAtTier e tier mult ≤ priceBound bound := by
  obtain ⟨hsum, habs⟩ := costAtTier_sum htier hm hint hsize
  have hrates := hm tier htier
  have hsmall : 2 ^ 31 * bound < 2 ^ 62 := by
    unfold priceBound at hsize
    omega
  have hinput : 0 ≤ mathRound (e.inputTokens * tier.inputPerM) +
      mathRound (e.cacheWriteTokens * tier.inputPerM) :=
    mathRound_pair_nonneg hpay.input hpay.cacheWrite hint.input hint.cacheWrite
      (hrates .input).1 (hrates .input).2 hsmall
  have houtput : 0 ≤ mathRound (e.outputTokens * tier.outputPerM) +
      mathRound (e.reasoningTokens * tier.outputPerM) :=
    mathRound_pair_nonneg hpay.output hpay.reasoning hint.output hint.reasoning
      (hrates .output).1 (hrates .output).2 hsmall
  have hreadCount : (0 : ℚ) ≤ e.cacheReadTokens := Int.cast_nonneg hpay.cacheRead
  have hembedCount : (0 : ℚ) ≤ e.embeddingTokens := Int.cast_nonneg hpay.embedding
  have hread : 0 ≤ mathRound (e.cacheReadTokens * (tier.inputPerM * mult)) :=
    mathRound_nonneg (mul_nonneg hreadCount (hrates .cacheRead).1)
  have hembed : 0 ≤ mathRound (e.embeddingTokens * tier.embeddingPerM) :=
    mathRound_nonneg (mul_nonneg hembedCount (hrates .embedding).1)
  refine ⟨?_, (abs_le.mp habs).2⟩
  rw [hsum]
  omega

theorem slice_bounds (m : ModelPricing) {remaining : ℤ} (hpos : 0 < remaining) (cursor : ℤ) :
    (m.slice remaining cursor).1 ∈ m.flatTier :: m.tiers ∧
      0 < (m.slice remaining cursor).2 ∧ (m.slice remaining cursor).2 ≤ remaining := by
  unfold ModelPricing.slice
  dsimp only
  split_ifs with hopen hguard hguard
  · exact ⟨lastTier_mem m, hpos, le_refl _⟩
  · exact ⟨tierAtToken_mem m cursor, hpos, le_refl _⟩
  · exact ⟨lastTier_mem m, hpos, le_refl _⟩
  · exact ⟨tierAtToken_mem m cursor, by omega, min_le_left _ _⟩

private theorem graduatedLoop_bounds (hm : m.Priced mult bound) (category : Category) (fuel : ℕ) :
    ∀ (remaining cursor cost : ℤ), remaining ≤ (2 ^ 31 : ℕ) → 0 ≤ cost → 0 ≤ remaining →
      cost + remaining * bound < 2 ^ 62 →
      cost ≤ m.graduatedLoop mult category fuel remaining cursor cost ∧
        m.graduatedLoop mult category fuel remaining cursor cost ≤ cost + remaining * bound := by
  induction fuel with
  | zero =>
    intro remaining cursor cost _ _ hremaining _
    have hnonneg : 0 ≤ remaining * (bound : ℤ) := mul_nonneg hremaining (Int.natCast_nonneg _)
    unfold ModelPricing.graduatedLoop
    omega
  | succ fuel ih =>
    intro remaining cursor cost hint hcost hremaining hsize
    have hnonneg : 0 ≤ remaining * (bound : ℤ) := mul_nonneg hremaining (Int.natCast_nonneg _)
    unfold ModelPricing.graduatedLoop
    split_ifs with hpos
    · obtain ⟨htier, hone, hmost⟩ := slice_bounds m hpos cursor
      dsimp only
      generalize m.slice remaining cursor = s at htier hone hmost ⊢
      obtain ⟨hrate, hbound⟩ := hm s.1 htier category
      have hcount : (0 : ℚ) ≤ s.2 := by exact_mod_cast hone.le
      have hround := mathRound_nonneg (mul_nonneg hcount hrate)
      have hround' : |mathRound (s.2 * rateFor s.1 mult category)| ≤ (s.2.toNat * bound : ℕ) := by
        have habs : |s.2| ≤ s.2.toNat := by rw [abs_le]; omega
        refine abs_mathRound_le (abs_cost_le habs hrate hbound) ?_
        have hle : (s.2.toNat : ℤ) * bound ≤ remaining * bound :=
          mul_le_mul_of_nonneg_right (by omega) (Int.natCast_nonneg _)
        have hcast : ((s.2.toNat * bound : ℕ) : ℤ) < 2 ^ 62 := by
          push_cast
          omega
        exact_mod_cast hcast
      have hstep : mathRound (s.2 * rateFor s.1 mult category) ≤ s.2 * bound := by
        have hle := (abs_le.mp hround').2
        push_cast at hle
        rw [show (s.2.toNat : ℤ) = s.2 by omega] at hle
        exact hle
      have hsplit : (remaining - s.2) * bound = remaining * bound - s.2 * bound := by ring
      have hwrap : wrap64 (cost + mathRound (s.2 * rateFor s.1 mult category)) =
          cost + mathRound (s.2 * rateFor s.1 mult category) := by
        apply wrap64_of_small
        rw [abs_lt]
        have hpart : 0 ≤ (remaining - s.2) * (bound : ℤ) :=
          mul_nonneg (by omega) (Int.natCast_nonneg _)
        omega
      rw [hwrap]
      have hrest := ih (remaining - s.2) (wrap64 (cursor + s.2))
        (cost + mathRound (s.2 * rateFor s.1 mult category)) (by omega) (by omega) (by omega)
        (by omega)
      omega
    · omega

/-- The loop ends before its fuel does: more fuel changes nothing. -/
theorem graduatedLoop_fuel (m : ModelPricing) (mult : ℚ) (category : Category) (fuel extra : ℕ) :
    ∀ remaining cursor cost : ℤ, remaining ≤ fuel →
      m.graduatedLoop mult category (fuel + extra) remaining cursor cost =
        m.graduatedLoop mult category fuel remaining cursor cost := by
  induction fuel with
  | zero =>
    intro remaining cursor cost hdone
    cases extra with
    | zero => rfl
    | succ extra =>
      rw [Nat.zero_add]
      unfold ModelPricing.graduatedLoop
      rw [if_neg (by omega)]
  | succ fuel ih =>
    intro remaining cursor cost hfuel
    rw [Nat.succ_add]
    unfold ModelPricing.graduatedLoop
    split_ifs with hpos
    · obtain ⟨-, hone, -⟩ := slice_bounds m hpos cursor
      exact ih _ _ _ (by omega)
    · rfl

private theorem costCategoryGraduated_bounds (hm : m.Priced mult bound) (category : Category)
    {tokens : ℤ} (htokens : tokens ≤ (2 ^ 31 : ℕ)) (cursor : ℤ) (hsize : 2 ^ 31 * bound < 2 ^ 62) :
    0 ≤ m.costCategoryGraduated tokens cursor mult category ∧
      m.costCategoryGraduated tokens cursor mult category ≤ (2 ^ 31 * bound : ℕ) := by
  unfold ModelPricing.costCategoryGraduated
  by_cases hpos : 0 ≤ tokens
  · have hmost : tokens * (bound : ℤ) ≤ (2 ^ 31 : ℕ) * bound :=
      mul_le_mul_of_nonneg_right htokens (Int.natCast_nonneg _)
    push_cast at hmost ⊢
    have hloop := graduatedLoop_bounds hm category tokens.toNat tokens cursor 0 htokens (le_refl _)
      hpos (by omega)
    omega
  · have hnone : tokens.toNat = 0 := by omega
    rw [hnone]
    unfold ModelPricing.graduatedLoop
    omega

private theorem graduatedFold_bounds (hm : m.Priced mult bound) (hsmall : 2 ^ 31 * bound < 2 ^ 62)
    (l : List (Category × ℤ)) : ∀ s : ℤ × ℤ, (∀ c ∈ l, c.2 ≤ (2 ^ 31 : ℕ)) → 0 ≤ s.2 →
      s.2 + (l.length * (2 ^ 31 * bound) : ℕ) < 2 ^ 63 →
      0 ≤ (l.foldl (fun (s : ℤ × ℤ) (c : Category × ℤ) => (wrap64 (s.1 + c.2),
          wrap64 (s.2 + m.costCategoryGraduated c.2 s.1 mult c.1))) s).2 ∧
        (l.foldl (fun (s : ℤ × ℤ) (c : Category × ℤ) => (wrap64 (s.1 + c.2),
          wrap64 (s.2 + m.costCategoryGraduated c.2 s.1 mult c.1))) s).2 ≤
          s.2 + (l.length * (2 ^ 31 * bound) : ℕ) := by
  induction l with
  | nil =>
    intro s _ hs _
    simp only [List.foldl_nil, List.length_nil]
    omega
  | cons c l ih =>
    intro s hall hs hsize
    rw [List.foldl_cons]
    obtain ⟨hlo, hhi⟩ := costCategoryGraduated_bounds hm c.1 (hall c List.mem_cons_self) s.1 hsmall
    have hlength : ((c :: l).length * (2 ^ 31 * bound) : ℕ) =
        l.length * (2 ^ 31 * bound) + 2 ^ 31 * bound := by
      rw [List.length_cons]
      ring
    rw [hlength] at hsize ⊢
    have hwrap : wrap64 (s.2 + m.costCategoryGraduated c.2 s.1 mult c.1) =
        s.2 + m.costCategoryGraduated c.2 s.1 mult c.1 := by
      apply wrap64_of_small
      rw [abs_lt]
      omega
    rw [hwrap]
    have hrest := ih (wrap64 (s.1 + c.2), s.2 + m.costCategoryGraduated c.2 s.1 mult c.1)
      (fun d hd => hall d (List.mem_cons_of_mem c hd)) (by dsimp only; omega)
      (by dsimp only; omega)
    dsimp only at hrest
    omega

private theorem costGraduated_bounds (hm : m.Priced mult bound) (hint : IntCounts e.counts)
    (hsize : priceBound bound < 2 ^ 63) (before : ℤ) :
    0 ≤ m.costGraduated e before mult ∧ m.costGraduated e before mult ≤ priceBound bound := by
  unfold priceBound at hsize ⊢
  have hall : ∀ c ∈ ModelPricing.categories e, c.2 ≤ (2 ^ 31 : ℕ) := by
    intro c hc
    simp only [ModelPricing.categories, List.mem_cons, List.not_mem_nil, or_false] at hc
    rcases hc with rfl | rfl | rfl | rfl | rfl | rfl
    · exact (abs_le.mp hint.input).2
    · exact (abs_le.mp hint.output).2
    · exact (abs_le.mp hint.cacheRead).2
    · exact (abs_le.mp hint.reasoning).2
    · exact (abs_le.mp hint.cacheWrite).2
    · exact (abs_le.mp hint.embedding).2
  have hlength : (ModelPricing.categories e).length = 6 := rfl
  have hfold := graduatedFold_bounds hm (by omega) (ModelPricing.categories e) (before, 0) hall
    (le_refl _) (by rw [hlength]; dsimp only; omega)
  rw [hlength] at hfold
  unfold ModelPricing.costGraduated
  dsimp only at hfold
  omega

end Model

/-- The price of balanced counts is not negative and within the bound. -/
theorem price_bounds {catalog : PricingCatalog} {bound : ℕ} {e : TokenEvent}
    (hcatalog : catalog.Priced bound) (hint : IntCounts e.counts) (hpay : Payable e.counts)
    (hsize : priceBound bound < 2 ^ 63) (before : ℤ) :
    0 ≤ catalog.calculateEventCostMicro e before ∧
      catalog.calculateEventCostMicro e before ≤ priceBound bound := by
  have hm : (catalog.pricingOf e.modelId).Priced catalog.cacheReadMultiplier bound := by
    apply hcatalog
    unfold PricingCatalog.pricingOf
    cases hget : catalog.models.get (catalog.normalizeModelId e.modelId) with
    | none => exact List.mem_cons_self
    | some m =>
      have hrow := (Collections.Table.get_eq_some_iff _ _ _).mp hget
      exact List.mem_cons_of_mem _ (List.mem_map_of_mem hrow)
  unfold PricingCatalog.calculateEventCostMicro ModelPricing.calculateEventCostMicro
  cases (catalog.pricingOf e.modelId).pricingMode with
  | flat => exact costAtTier_nonneg (selectTier_mem _ before) hm hint hpay hsize
  | volume => exact costAtTier_nonneg (selectTier_mem _ before) hm hint hpay hsize
  | graduated => exact costGraduated_bounds hm hint hsize before

end FluxMeter.Pricing
