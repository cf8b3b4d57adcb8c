import FluxMeter.Pricing.Graduated

/-! The exact charges of an event. Java and Python add up the same ones and round each of them; they
differ where a charge is half a microdollar above an even number and beyond the range of `long`. -/
namespace FluxMeter.Pricing
open Collections FluxMeter.Model FluxMeter.Wire
open Loader (pyRound)

/-! ### Rounding -/

/-- Half a microdollar above an even number, which Java rounds up and Python down. -/
def EvenTie (x : ℚ) : Prop := x - ⌊x⌋ = 1 / 2 ∧ ⌊x⌋ % 2 = 0

instance (x : ℚ) : Decidable (EvenTie x) := inferInstanceAs (Decidable (_ ∧ _))

/-- What Java rounds up more than Python. -/
def tieOf (x : ℚ) : ℤ := if EvenTie x then 1 else 0

theorem tieOf_nonneg (x : ℚ) : 0 ≤ tieOf x := by
  unfold tieOf
  split_ifs <;> omega

theorem tieOf_zero : tieOf 0 = 0 := by norm_num [tieOf, EvenTie]

private theorem floor_half (x : ℚ) : ⌊x + 1 / 2⌋ = pyRound x + tieOf x := by
  unfold pyRound Binary64.nearestEven
  by_cases hhalf : x - ⌊x⌋ = 1 / 2
  · have hup : x + 1 / 2 = ((⌊x⌋ + 1 : ℤ) : ℚ) := by push_cast; linarith
    rw [if_pos hhalf, hup, Int.floor_intCast]
    by_cases heven : ⌊x⌋ % 2 = 0
    · have htie : tieOf x = 1 := if_pos ⟨hhalf, heven⟩
      omega
    · have htie : tieOf x = 0 := if_neg fun h => heven h.2
      omega
  · have htie : tieOf x = 0 := if_neg fun h => hhalf h.1
    rw [if_neg hhalf, htie, add_zero]

theorem pyRound_nonneg {x : ℚ} (hx : 0 ≤ x) : 0 ≤ pyRound x := Binary64.nearestEven_nonneg hx

theorem mathRound_eq {x : ℚ} (hx : 0 ≤ x) (hsize : pyRound x < 2 ^ 63) :
    mathRound x = pyRound x + tieOf x := by
  have hnonneg := pyRound_nonneg hx
  have hsum : pyRound x + tieOf x ≤ 2 ^ 63 - 1 := by
    unfold tieOf
    split_ifs with htie
    · -- rounded down to an even number, there is room for one more
      have hround : pyRound x = ⌊x⌋ + ⌊x⌋ % 2 := if_pos htie.1
      have heven := htie.2
      omega
    · omega
  have htie := tieOf_nonneg x
  unfold mathRound
  rw [floor_half]
  omega

theorem sum_nonneg_map {f : ℚ → ℤ} {xs : List ℚ} (hf : ∀ x ∈ xs, 0 ≤ f x) : 0 ≤ (xs.map f).sum := by
  apply List.sum_nonneg
  intro y hy
  obtain ⟨x, hx, rfl⟩ := List.mem_map.mp hy
  exact hf x hx

theorem le_sum_map {f : ℚ → ℤ} {xs : List ℚ} (hf : ∀ x ∈ xs, 0 ≤ f x) {x : ℚ} (hx : x ∈ xs) :
    f x ≤ (xs.map f).sum := by
  refine List.single_le_sum ?_ (f x) (List.mem_map_of_mem hx)
  intro y hy
  obtain ⟨z, hz, rfl⟩ := List.mem_map.mp hy
  exact hf z hz

theorem sum_tieOf_eq_zero {xs : List ℚ} : (xs.map tieOf).sum = 0 ↔ ∀ x ∈ xs, ¬ EvenTie x := by
  constructor
  · intro hsum x hx htie
    have hle := le_sum_map (fun y _ => tieOf_nonneg y) hx
    rw [hsum] at hle
    unfold tieOf at hle
    rw [if_pos htie] at hle
    omega
  · intro hnone
    apply List.sum_eq_zero
    intro y hy
    obtain ⟨x, hx, rfl⟩ := List.mem_map.mp hy
    exact if_neg (hnone x hx)

theorem sum_mathRound {xs : List ℚ} (hnonneg : ∀ x ∈ xs, 0 ≤ x)
    (hsize : ∀ x ∈ xs, pyRound x < 2 ^ 63) :
    (xs.map mathRound).sum = (xs.map pyRound).sum + (xs.map tieOf).sum := by
  induction xs with
  | nil => rfl
  | cons x xs ih =>
    obtain ⟨hx, hxs⟩ := List.forall_mem_cons.mp hnonneg
    obtain ⟨hsx, hsxs⟩ := List.forall_mem_cons.mp hsize
    simp only [List.map_cons, List.sum_cons]
    rw [ih hxs hsxs, mathRound_eq hx hsx]
    omega

/-- The two sums of rounded charges agree exactly where no charge is an even tie and the sum is a
`long`. -/
theorem rounded_sums_iff {xs : List ℚ} (hnonneg : ∀ x ∈ xs, 0 ≤ x)
    (hties : (xs.map tieOf).sum < 2 ^ 63) :
    wrap64 (xs.map mathRound).sum = (xs.map pyRound).sum ↔
      (∀ x ∈ xs, ¬ EvenTie x) ∧ (xs.map pyRound).sum < 2 ^ 63 := by
  have hround : ∀ x ∈ xs, 0 ≤ pyRound x := fun x hx => pyRound_nonneg (hnonneg x hx)
  have hsum := sum_nonneg_map hround
  have htieSum : 0 ≤ (xs.map tieOf).sum := sum_nonneg_map fun x _ => tieOf_nonneg x
  constructor
  · intro heq
    have hlong : (xs.map pyRound).sum < 2 ^ 63 := by
      rw [← heq]
      unfold wrap64
      omega
    have hsize : ∀ x ∈ xs, pyRound x < 2 ^ 63 := by
      intro x hx
      have hle := le_sum_map hround hx
      omega
    rw [sum_mathRound hnonneg hsize] at heq
    refine ⟨sum_tieOf_eq_zero.mp ?_, hlong⟩
    unfold wrap64 at heq
    omega
  · rintro ⟨hnone, hlong⟩
    have hsize : ∀ x ∈ xs, pyRound x < 2 ^ 63 := by
      intro x hx
      have hle := le_sum_map hround hx
      omega
    rw [sum_mathRound hnonneg hsize, sum_tieOf_eq_zero.mpr hnone, add_zero]
    unfold wrap64
    omega

/-! ### The exact charges -/

/-- The charges of an event before they are rounded: for graduated prices those per token, else one
for each category, at the tier of the monthly volume. -/
def exactCharges (p : Loader.ModelPricing) (mult : ℚ) (cats : List (Category × ℤ)) (before : ℤ) :
    List ℚ :=
  if p.pricingMode = .graduated then (spans before cats).flatMap (Span.charges p.tiers mult)
  else cats.map fun c => c.2 * rateFor (p.tierAtToken before) mult c.1

theorem perTokenCost_eq (round : ℚ → ℤ) (tiers : List Tier) (mult : ℚ) (l : List Span) :
    perTokenCost round tiers mult l = ((l.flatMap (Span.charges tiers mult)).map round).sum := by
  unfold perTokenCost
  induction l with
  | nil => rfl
  | cons s l ih =>
    rw [List.flatMap_cons, List.map_append, List.sum_append, List.map_cons, List.sum_cons, ih]

/-- A tier of the Python catalog with its bound read as a `long`. -/
def Tier.inLong (t : Tier) : Tier := { t with upToTokensM := t.upToTokensM.map wrap64 }

/-- The model of the Java catalog with the prices of a model of the Python one. -/
def ModelPricing.ofLoader (p : Loader.ModelPricing) : ModelPricing :=
  { p.toModelPricing with
    tiers := p.tiers.map Tier.inLong
    tiered := p.tiered.trans List.map_eq_nil_iff.symm }

/-- The bounds that the event reaches are in the range in which Java computes with them. -/
def BoundsReached (p : Loader.ModelPricing) (before total : ℤ) : Prop :=
  ∀ b ∈ tierBrackets p.tiers, ∀ upTo, b.label.upToTokensM = some upTo →
    if p.pricingMode = .graduated then b.start < before + total → upTo * 1000000 < 2 ^ 63
    else b.start ≤ before → upTo < 2 ^ 63

section Prices
variable {p : Loader.ModelPricing} {mult : ℚ} {e : TokenEvent} {before : ℤ}

theorem rateFor_nonneg {tier : Tier} (htier : Loader.Tier.nonneg tier) (hmult : 0 ≤ mult)
    (category : Category) : 0 ≤ rateFor tier mult category := by
  unfold Loader.Tier.nonneg at htier
  simp only [Bool.and_eq_true, decide_eq_true_eq] at htier
  obtain ⟨⟨hinput, houtput⟩, hembedding⟩ := htier
  cases category
  · exact hinput
  · exact houtput
  · exact mul_nonneg hinput hmult
  · exact houtput
  · exact hinput
  · exact hembedding

private theorem lastTier_nonneg (p : Loader.ModelPricing) : Loader.Tier.nonneg p.lastTier := by
  unfold ModelPricing.lastTier
  cases hlast : p.tiers.getLast? with
  | none => exact p.base
  | some tier => exact p.priced tier (List.mem_of_getLast? hlast)

private theorem tierAtToken_nonneg (p : Loader.ModelPricing) (i : ℤ) :
    Loader.Tier.nonneg (p.tierAtToken i) := by
  unfold Loader.ModelPricing.tierAtToken
  split_ifs
  · exact p.base
  · dsimp only
    cases hfind : p.tiers.find? fun tier => tier.upToTokensM.all (i / 1000000 < ·) with
    | none => exact lastTier_nonneg p
    | some tier => exact p.priced tier (List.mem_of_find?_eq_some hfind)

theorem exactCharges_nonneg {cats : List (Category × ℤ)} (hmult : 0 ≤ mult)
    (hcats : ∀ c ∈ cats, 0 ≤ c.2) : ∀ x ∈ exactCharges p mult cats before, 0 ≤ x := by
  intro x hx
  unfold exactCharges at hx
  split_ifs at hx with hmode
  · obtain ⟨s, -, hx⟩ := List.mem_flatMap.mp hx
    obtain ⟨b, hb, rfl⟩ := List.mem_map.mp hx
    have htier := p.priced b.label (label_of_mem b hb).1
    exact mul_nonneg (Nat.cast_nonneg _) (rateFor_nonneg htier hmult s.category)
  · obtain ⟨c, hc, rfl⟩ := List.mem_map.mp hx
    have hcount : (0 : ℚ) ≤ c.2 := Int.cast_nonneg (hcats c hc)
    exact mul_nonneg hcount (rateFor_nonneg (tierAtToken_nonneg p before) hmult c.1)

theorem tiers_ne_nil (hmode : p.pricingMode ≠ .flat) : p.tiers ≠ [] :=
  fun htiers => hmode (p.tiered.mpr htiers)

/-- Java finds the tier of an index whose bounds it reads as they are. -/
theorem tierAtToken_same (htiers : p.tiers ≠ []) {i : ℤ} (hi : 0 ≤ i)
    (hbounds : ∀ b ∈ tierBrackets p.tiers, b.start ≤ i → ∀ upTo,
      b.label.upToTokensM = some upTo → upTo < 2 ^ 63) :
    (ModelPricing.ofLoader p).tierAtToken i = p.tierAtToken i := by
  have hascending : Ascending tierStop 0 p.tiers :=
    ascending_of_valid (p.bounded htiers) (by norm_num)
  -- the bounds are read as they are, and none is negative
  have hread : ∀ b ∈ tierBrackets p.tiers, b.start ≤ i →
      b.label.upToTokensM.map wrap64 = b.label.upToTokensM := by
    intro b hb hstart
    cases hupTo : b.label.upToTokensM with
    | none => rfl
    | some upTo =>
      have hlong := hbounds b hb hstart upTo hupTo
      have hnonneg := upTo_nonneg (p.bounded htiers) b.label (label_of_mem b hb).1 upTo hupTo
      have hwrap : wrap64 upTo = upTo := by unfold wrap64; omega
      rw [Option.map_some, hwrap]
  have hfind : (ModelPricing.ofLoader p).tiers.find?
      (fun tier => tier.upToTokensM.all (i.tdiv 1000000 < ·)) =
      (p.tiers.find? fun tier => (tierStop tier).all (i < ·)).map Tier.inLong := by
    have hmap : (ModelPricing.ofLoader p).tiers = p.tiers.map Tier.inLong := rfl
    rw [hmap, List.find?_map, Int.tdiv_eq_ediv_of_nonneg hi]
    congr 1
    apply find?_of_begun hascending hi
    intro b hb hstart
    rw [Function.comp_apply]
    unfold Tier.inLong
    dsimp only
    rw [hread b hb hstart]
    unfold tierStop
    cases b.label.upToTokensM with
    | none => rfl
    | some upTo =>
      simp only [Option.all_some, Option.map_some, decide_eq_decide]
      omega
  obtain ⟨b, hb, hcontains, hlabel⟩ := exists_contains hascending hi
  unfold ModelPricing.tierAtToken Loader.ModelPricing.tierAtToken
  rw [if_neg htiers]
  dsimp only
  rw [hfind, find_tier, hlabel, Option.map_some, Option.getD_some, Option.getD_some, Tier.inLong,
    hread b hb hcontains.1]

theorem costAtTier_charges (e : TokenEvent) (tier : Tier) (mult : ℚ) :
    costAtTier e tier mult = wrap64 (((ModelPricing.categories e).map fun c =>
      (c.2 : ℚ) * rateFor tier mult c.1).map mathRound).sum := by
  rw [costAtTier_wrap]
  simp only [ModelPricing.categories, rateFor, List.map_cons, List.map_nil, List.sum_cons,
    List.sum_nil, add_zero, add_assoc]

theorem selectTier_flat (htiers : p.tiers = []) :
    (ModelPricing.ofLoader p).selectTier before = p.tierAtToken before := by
  have hlong : (ModelPricing.ofLoader p).tiers = [] := List.map_eq_nil_iff.mpr htiers
  unfold ModelPricing.selectTier Loader.ModelPricing.tierAtToken
  rw [if_pos hlong, if_pos htiers]
  rfl

private theorem selectTier_same (htiers : p.tiers ≠ []) (hbefore : 0 ≤ before)
    (hbounds : ∀ b ∈ tierBrackets p.tiers, b.start ≤ before → ∀ upTo,
      b.label.upToTokensM = some upTo → upTo < 2 ^ 63) :
    (ModelPricing.ofLoader p).selectTier before = p.tierAtToken before := by
  have hlong : (ModelPricing.ofLoader p).tiers ≠ [] :=
    fun hnil => htiers (List.map_eq_nil_iff.mp hnil)
  unfold ModelPricing.selectTier
  rw [if_neg hlong]
  exact tierAtToken_same htiers hbefore hbounds

/-- The loop of Java takes greedy slices where every bound it reaches is a number of tokens that a
`long` holds. -/
private theorem greedy_of_reached (htiers : p.tiers ≠ []) (hbefore : 0 ≤ before)
    (hcats : ∀ c ∈ ModelPricing.categories e, 0 ≤ c.2)
    (hreached : ∀ b ∈ tierBrackets p.tiers,
      b.start < before + totalTokens (ModelPricing.categories e) →
      ∀ upTo, b.label.upToTokensM = some upTo → upTo * 1000000 < 2 ^ 63) :
    ∀ s ∈ spans before (ModelPricing.categories e),
      Greedy (tierBrackets p.tiers) (ModelPricing.ofLoader p).slice s.start (s.start + s.tokens) := by
  have hfinds : ∀ i, before ≤ i → i < before + totalTokens (ModelPricing.categories e) →
      (ModelPricing.ofLoader p).FindsTier (tierBrackets p.tiers) i := by
    intro i hlo hhi
    have hi : 0 ≤ i := by omega
    obtain ⟨b, hb, hcontains, hlabel⟩ := Loader.ModelPricing.tierAtToken_label htiers hi
    have hstart := hcontains.1
    refine ⟨b, hb, hcontains, (label_of_mem b hb).2, ?_, hreached b hb (by omega)⟩
    rw [tierAtToken_same htiers hi, hlabel]
    intro c hc hbegun upTo hupTo
    have hfit := hreached c hc (by omega) upTo hupTo
    omega
  intro s hs
  obtain ⟨hstart, -, hend⟩ := mem_spans hcats s hs
  have hnonneg : 0 ≤ s.start := by omega
  exact ModelPricing.greedy_slice hnonneg fun i hlo hhi =>
    hfinds i (by omega) (by omega)

/-- Java charges the exact charges, each with `Math.round`, in `long` arithmetic. -/
theorem java_price
    (hbounds : BoundsReached p before (totalTokens (ModelPricing.categories e)))
    (hcats : ∀ c ∈ ModelPricing.categories e, 0 ≤ c.2) (hbefore : 0 ≤ before)
    (hsize : before + totalTokens (ModelPricing.categories e) < 2 ^ 63) :
    (ModelPricing.ofLoader p).calculateEventCostMicro e before mult =
      wrap64 ((exactCharges p mult (ModelPricing.categories e) before).map mathRound).sum := by
  unfold ModelPricing.calculateEventCostMicro exactCharges
  unfold BoundsReached at hbounds
  have hlong : (ModelPricing.ofLoader p).pricingMode = p.pricingMode := rfl
  cases hmode : p.pricingMode with
  | flat =>
    rw [hlong, hmode, if_neg (by decide)]
    dsimp only
    rw [selectTier_flat (p.tiered.mp hmode), costAtTier_charges]
  | volume =>
    have hp : p.tiers ≠ [] := tiers_ne_nil (by rw [hmode]; decide)
    have hreached : ∀ b ∈ tierBrackets p.tiers, b.start ≤ before → ∀ upTo,
        b.label.upToTokensM = some upTo → upTo < 2 ^ 63 := by
      intro b hb hstart upTo hupTo
      have hone := hbounds b hb upTo hupTo
      rw [hmode, if_neg (by decide)] at hone
      exact hone hstart
    rw [hlong, hmode, if_neg (by decide)]
    dsimp only
    rw [selectTier_same hp hbefore hreached, costAtTier_charges]
  | graduated =>
    have hp : p.tiers ≠ [] := tiers_ne_nil (by rw [hmode]; decide)
    have hreached : ∀ b ∈ tierBrackets p.tiers,
        b.start < before + totalTokens (ModelPricing.categories e) →
        ∀ upTo, b.label.upToTokensM = some upTo → upTo * 1000000 < 2 ^ 63 := by
      intro b hb hstart upTo hupTo
      have hone := hbounds b hb upTo hupTo
      rw [hmode, if_pos rfl] at hone
      exact hone hstart
    have hgreedy := greedy_of_reached hp hbefore hcats hreached
    rw [hlong, hmode, if_pos rfl]
    dsimp only
    rw [ModelPricing.costGraduated_turns hgreedy hcats hbefore hsize,
      turnsCost_spanTurns mathRound_zero mult (ascending_of_valid (p.bounded hp) (by norm_num))
        hgreedy, perTokenCost_eq]

/-- Python charges the exact charges, each rounded half to even. -/
theorem python_price {event : Dict} (hcats : ∀ c ∈ Loader.categories event, 0 ≤ c.2)
    (hbefore : 0 ≤ before) :
    (if p.pricingMode = .graduated then Loader.costGraduated event p before mult
      else Loader.costAtTier event (p.tierAtToken before) mult) =
      ((exactCharges p mult (Loader.categories event) before).map pyRound).sum := by
  unfold exactCharges
  split_ifs with hmode
  · have hp : p.tiers ≠ [] := tiers_ne_nil (by rw [hmode]; decide)
    rw [Loader.ModelPricing.costGraduated_perToken hp hcats hbefore, perTokenCost_eq]
  · unfold Loader.costAtTier
    rw [mul_assoc (Loader.tokens event "cacheReadTokens" : ℚ)]
    simp only [Loader.categories, rateFor, List.map_cons, List.map_nil, List.sum_cons, List.sum_nil,
      add_zero, add_assoc]

private theorem length_walk_le (slice : ℤ → ℤ → Tier × ℤ) (fuel : ℕ) : ∀ remaining cursor : ℤ,
    (walk slice fuel remaining cursor).length ≤ fuel := by
  induction fuel with
  | zero => intro _ _; exact le_refl 0
  | succ fuel ih =>
    intro remaining cursor
    unfold walk
    split_ifs
    · rw [List.length_cons]
      exact Nat.succ_le_succ (ih _ _)
    · exact Nat.zero_le _

/-- There are no more even ties than tokens. -/
theorem sum_ties_le {cats : List (Category × ℤ)} (hcats : ∀ c ∈ cats, 0 ≤ c.2)
    (hbefore : 0 ≤ before) :
    ((exactCharges p mult cats before).map tieOf).sum ≤ max (cats.length : ℤ) (totalTokens cats) := by
  have hone : ∀ x, tieOf x ≤ 1 := by
    intro x
    unfold tieOf
    split_ifs <;> omega
  have hcount : ∀ xs : List ℚ, (xs.map tieOf).sum ≤ xs.length := by
    intro xs
    induction xs with
    | nil => exact le_refl 0
    | cons x xs ih =>
      have hx := hone x
      simp only [List.map_cons, List.sum_cons, List.length_cons]
      push_cast
      omega
  unfold exactCharges
  split_ifs with hmode
  · have hp : p.tiers ≠ [] := tiers_ne_nil (by rw [hmode]; decide)
    have hgreedy : ∀ s ∈ spans before cats,
        Greedy (tierBrackets p.tiers) p.slice s.start (s.start + s.tokens) := by
      intro s hs
      obtain ⟨hstart, -, -⟩ := mem_spans hcats s hs
      exact Loader.ModelPricing.greedy_slice hp (by omega) _
    rw [← perTokenCost_eq, ← turnsCost_spanTurns tieOf_zero mult
      (ascending_of_valid (p.bounded hp) (by norm_num)) hgreedy]
    -- every turn takes at least one token
    have hturns : ((spanTurns p.slice (spans before cats)).length : ℤ) ≤ totalTokens cats := by
      clear hgreedy
      induction cats generalizing before with
      | nil => exact le_refl 0
      | cons c cats ih =>
        obtain ⟨hfirst, hrest⟩ := List.forall_mem_cons.mp hcats
        have hnext : 0 ≤ before + c.2 := by omega
        have hlater := ih hrest hnext
        have hwalk := length_walk_le p.slice c.2.toNat c.2 before
        have htotal : totalTokens (c :: cats) = c.2 + totalTokens cats := rfl
        have hspans : spans before (c :: cats) =
            ⟨c.1, before, c.2⟩ :: spans (before + c.2) cats := rfl
        unfold spanTurns at hlater ⊢
        rw [hspans, List.flatMap_cons, List.length_append, List.length_map, htotal]
        push_cast
        omega
    have hle := hcount ((spanTurns p.slice (spans before cats)).map fun t =>
      t.2.capacity * rateFor t.2.label mult t.1)
    rw [List.map_map, List.length_map] at hle
    unfold turnsCost
    have hsum : ((spanTurns p.slice (spans before cats)).map fun t =>
        tieOf (t.2.capacity * rateFor t.2.label mult t.1)).sum ≤ totalTokens cats :=
      le_trans hle hturns
    omega
  · have hle := hcount (cats.map fun c => c.2 * rateFor (p.tierAtToken before) mult c.1)
    rw [List.length_map] at hle
    omega

end Prices

/-! ### The prices that an event is charged at -/

/-- The price of a category, before the multiplier of cache reads. -/
def Tier.price (tier : Tier) : Category → ℚ
  | .input => tier.inputPerM
  | .output => tier.outputPerM
  | .cacheRead => tier.inputPerM
  | .reasoning => tier.outputPerM
  | .cacheWrite => tier.inputPerM
  | .embedding => tier.embeddingPerM

/-- The event has tokens of the category. -/
def Charged (e : TokenEvent) (category : Category) : Prop :=
  ∃ c ∈ ModelPricing.categories e, c.1 = category ∧ c.2 ≠ 0

/-- Tiers that end alike and have the same prices of the charged categories. -/
structure SameTier (charged : Category → Prop) (t t' : Tier) : Prop where
  upToTokensM : t.upToTokensM = t'.upToTokensM
  prices : ∀ category, charged category → t.price category = t'.price category

/-- Models that price the charged categories alike. -/
structure SamePrices (charged : Category → Prop) (m m' : ModelPricing) : Prop where
  mode : m.pricingMode = m'.pricingMode
  flat : SameTier charged m.flatTier m'.flatTier
  tiers : List.Forall₂ (SameTier charged) m.tiers m'.tiers

theorem rateFor_congr {t t' : Tier} {mult mult' : ℚ} {category : Category}
    (hprice : t.price category = t'.price category)
    (hmult : category = .cacheRead → mult = mult') :
    rateFor t mult category = rateFor t' mult' category := by
  cases category with
  | cacheRead =>
    have hinput : t.inputPerM = t'.inputPerM := hprice
    unfold rateFor
    rw [hmult rfl, hinput]
  | input => exact hprice
  | output => exact hprice
  | reasoning => exact hprice
  | cacheWrite => exact hprice
  | embedding => exact hprice

section Charged
variable {charged : Category → Prop} {m m' : ModelPricing} {mult mult' : ℚ} {e : TokenEvent}

private theorem getD_find?_same {ts ts' : List Tier} {t t' : Tier} (begun : Option ℤ → Bool)
    (h : List.Forall₂ (SameTier charged) ts ts') (hlast : SameTier charged t t') :
    SameTier charged ((ts.find? fun tier => begun tier.upToTokensM).getD t)
      ((ts'.find? fun tier => begun tier.upToTokensM).getD t') := by
  induction h with
  | nil => exact hlast
  | @cons u u' _ _ htier _ ih =>
    rw [List.find?_cons, List.find?_cons, htier.upToTokensM]
    cases begun u'.upToTokensM with
    | true => exact htier
    | false => exact ih

private theorem getD_getLast?_same {ts ts' : List Tier} {t t' : Tier}
    (h : List.Forall₂ (SameTier charged) ts ts') (hlast : SameTier charged t t') :
    SameTier charged (ts.getLast?.getD t) (ts'.getLast?.getD t') := by
  induction h generalizing t t' with
  | nil => exact hlast
  | cons htier _ ih =>
    rw [List.getLast?_cons, List.getLast?_cons]
    exact ih htier

theorem lastTier_congr (h : SamePrices charged m m') : SameTier charged m.lastTier m'.lastTier :=
  getD_getLast?_same h.tiers h.flat

theorem tierAtToken_congr (h : SamePrices charged m m') (i : ℤ) :
    SameTier charged (m.tierAtToken i) (m'.tierAtToken i) :=
  getD_find?_same (fun upTo => upTo.all (i.tdiv 1000000 < ·)) h.tiers (lastTier_congr h)

theorem selectTier_congr (h : SamePrices charged m m') (before : ℤ) :
    SameTier charged (m.selectTier before) (m'.selectTier before) := by
  have hnil : m.tiers = [] ↔ m'.tiers = [] := by
    rw [← List.length_eq_zero_iff, ← List.length_eq_zero_iff, h.tiers.length_eq]
  unfold ModelPricing.selectTier
  by_cases htiers : m.tiers = []
  · rw [if_pos htiers, if_pos (hnil.mp htiers)]
    exact h.flat
  · rw [if_neg htiers, if_neg fun h' => htiers (hnil.mpr h')]
    exact tierAtToken_congr h before

theorem slice_congr (h : SamePrices charged m m') (remaining cursor : ℤ) :
    SameTier charged (m.slice remaining cursor).1 (m'.slice remaining cursor).1 ∧
      (m.slice remaining cursor).2 = (m'.slice remaining cursor).2 := by
  have htier := tierAtToken_congr h cursor
  have hend : tierEndTokens (m.tierAtToken cursor) = tierEndTokens (m'.tierAtToken cursor) := by
    unfold tierEndTokens
    rw [htier.upToTokensM]
  unfold ModelPricing.slice
  dsimp only
  rw [hend]
  generalize (if tierEndTokens (m'.tierAtToken cursor) = 2 ^ 63 - 1 then remaining
    else min remaining (wrap64 (tierEndTokens (m'.tierAtToken cursor) - cursor))) = capacity
  split_ifs
  · exact ⟨lastTier_congr h, rfl⟩
  · exact ⟨htier, rfl⟩

theorem graduatedLoop_congr (h : SamePrices charged m m') {category : Category}
    (hcharged : charged category) (hmult : category = .cacheRead → mult = mult') (fuel : ℕ)
    (remaining cursor cost : ℤ) :
    m.graduatedLoop mult category fuel remaining cursor cost =
      m'.graduatedLoop mult' category fuel remaining cursor cost := by
  induction fuel generalizing remaining cursor cost with
  | zero => rfl
  | succ fuel ih =>
    obtain ⟨htier, hcount⟩ := slice_congr h remaining cursor
    rw [ModelPricing.graduatedLoop, ModelPricing.graduatedLoop]
    split_ifs
    · dsimp only
      rw [hcount, rateFor_congr (htier.prices category hcharged) hmult]
      exact ih _ _ _
    · rfl

theorem costGraduated_congr (h : SamePrices (Charged e) m m')
    (hmult : Charged e .cacheRead → mult = mult') (before : ℤ) :
    m.costGraduated e before mult = m'.costGraduated e before mult' := by
  have hcost : ∀ c ∈ ModelPricing.categories e, ∀ cursor,
      m.costCategoryGraduated c.2 cursor mult c.1 =
        m'.costCategoryGraduated c.2 cursor mult' c.1 := by
    intro c hc cursor
    unfold ModelPricing.costCategoryGraduated
    by_cases hzero : c.2 = 0
    · rw [hzero]
      rfl
    · have hcharged : Charged e c.1 := ⟨c, hc, rfl, hzero⟩
      exact graduatedLoop_congr h hcharged (fun hread => hmult (hread ▸ hcharged)) _ _ _ _
  unfold ModelPricing.costGraduated
  refine congrArg Prod.snd (List.foldl_ext _ _ _ fun s c hc => ?_)
  rw [hcost c hc]

theorem costAtTier_congr {t t' : Tier} (h : SameTier (Charged e) t t')
    (hmult : Charged e .cacheRead → mult = mult') : costAtTier e t mult = costAtTier e t' mult' := by
  rw [costAtTier_charges, costAtTier_charges]
  have hcharges : (ModelPricing.categories e).map (fun c => (c.2 : ℚ) * rateFor t mult c.1) =
      (ModelPricing.categories e).map fun c => (c.2 : ℚ) * rateFor t' mult' c.1 := by
    apply List.map_congr_left
    intro c hc
    by_cases hzero : c.2 = 0
    · rw [hzero, Int.cast_zero, zero_mul, zero_mul]
    · have hcharged : Charged e c.1 := ⟨c, hc, rfl, hzero⟩
      rw [rateFor_congr (h.prices c.1 hcharged) fun hread => hmult (hread ▸ hcharged)]
  rw [hcharges]

/-- The prices of categories without tokens, and without cache reads the multiplier, do not matter. -/
theorem calculateEventCostMicro_congr (h : SamePrices (Charged e) m m')
    (hmult : Charged e .cacheRead → mult = mult') (before : ℤ) :
    m.calculateEventCostMicro e before mult = m'.calculateEventCostMicro e before mult' := by
  unfold ModelPricing.calculateEventCostMicro
  rw [h.mode]
  cases m'.pricingMode with
  | flat => exact costAtTier_congr (selectTier_congr h before) hmult
  | volume => exact costAtTier_congr (selectTier_congr h before) hmult
  | graduated => exact costGraduated_congr h hmult before

end Charged

end FluxMeter.Pricing
