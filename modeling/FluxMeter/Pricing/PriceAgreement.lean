import FluxMeter.Pricing.CatalogReadings

/-! Whether Java and Python price alike. -/
namespace FluxMeter.Pricing
open Collections FluxMeter.Model FluxMeter.Wire
open Loader (pyRound)

variable {K : Jackson} {ofText : String → Option ℚ}

/-- A dict and a bean of the same event. -/
structure SameEvent (event : Dict) (e : TokenEvent) : Prop where
  counts : Loader.categories event = ModelPricing.categories e
  model : (∃ s, event.get "modelId" = some (.str s) ∧ e.modelId = some s) ∨
    ((event.get "modelId" = some .null ∨ event.get "modelId" = none) ∧ e.modelId = none)

/-- Both languages return the same number of microdollars. -/
def Agree (K : Jackson) (root : Dict) (c : Loader.PricingCatalog) (event : Dict) (e : TokenEvent)
    (before : ℤ) : Prop :=
  ∃ j, PricingCatalog.parse K (.obj root) = some j ∧
    c.calculateCostMicro event before = some (j.calculateEventCostMicro e before)

/-- Both languages read the document alike, as far as it prices the event under the model id that
Python finds. -/
structure Alike (K : Jackson) (ofText : String → Option ℚ) (root : Dict) (c : Loader.PricingCatalog)
    (e : TokenEvent) (before : ℤ) (key : String) : Prop where
  modes : ModesRead root
  sameEntry : ∀ j, PricingCatalog.parse K (.obj root) = some j →
    modelEntry root (j.normalizeModelId e.modelId) = modelEntry root key
  prices : ∀ entry, modelEntry root key = some entry → TextsAlike K ofText (Charged e) entry
  multiplier : Charged e .cacheRead → ∀ s, root.get "cache_read_multiplier" = some (.str s) →
    ofText s = some (K.parseAsDouble s (1 / 2))
  bounds : BoundsReached ((c.models.lookup key).getD c.defaults) before
    (totalTokens (ModelPricing.categories e))

def chargesOf (c : Loader.PricingCatalog) (e : TokenEvent) (before : ℤ) (key : String) : List ℚ :=
  exactCharges ((c.models.lookup key).getD c.defaults) c.cacheReadMultiplier
    (ModelPricing.categories e) before

section Costs
variable {root : Dict} {c : Loader.PricingCatalog} {event : Dict} {e : TokenEvent} {before : ℤ}
  {key : String} {j : PricingCatalog}

theorem totalTokens_lt (hcounts : ∀ x ∈ ModelPricing.categories e, 0 ≤ x.2 ∧ x.2 < 2 ^ 31) :
    totalTokens (ModelPricing.categories e) < 6 * 2 ^ 31 := by
  have hall := hcounts
  simp only [ModelPricing.categories, List.forall_mem_cons] at hall
  simp only [totalTokens, ModelPricing.categories, List.map_cons, List.map_nil, List.sum_cons,
    List.sum_nil]
  omega

private theorem prices_of_alike (haccepted : Accepted ofText root c)
    (hj : PricingCatalog.parse K (.obj root) = some j) (halike : Alike K ofText root c e before key) :
    SamePrices (Charged e) ((j.models.get (j.normalizeModelId e.modelId)).getD j.defaults)
      (.ofLoader ((c.models.lookup key).getD c.defaults)) := by
  obtain ⟨entry, -, hentry, hp⟩ := python_entry haccepted key
  obtain ⟨entry', hentry', hm⟩ := java_entry haccepted hj (j.normalizeModelId e.modelId)
  rw [halike.sameEntry j hj, hentry] at hentry'
  cases hentry'
  obtain ⟨hrefuses, hreads⟩ := entry_same (K := K) hp
  cases hmode : modeReads (Json.path (some entry) "pricing_mode") with
  | false =>
    rw [hrefuses hmode] at hm
    cases hm
  | true =>
    obtain ⟨m, hm', hprices⟩ := hreads hmode
    rw [hm] at hm'
    cases hm'
    exact hprices _ (halike.prices entry hentry)

theorem java_cost (haccepted : Accepted ofText root c)
    (hj : PricingCatalog.parse K (.obj root) = some j) (halike : Alike K ofText root c e before key)
    (hnonneg : ∀ x ∈ ModelPricing.categories e, 0 ≤ x.2) (hbefore : 0 ≤ before)
    (hsize : before + totalTokens (ModelPricing.categories e) < 2 ^ 63) :
    j.calculateEventCostMicro e before = wrap64 ((chargesOf c e before key).map mathRound).sum := by
  have hsame := prices_of_alike haccepted hj halike
  have hmultiplier : Charged e .cacheRead → j.cacheReadMultiplier = c.cacheReadMultiplier :=
    fun hread => multiplier_same haccepted hj (halike.multiplier hread)
  unfold PricingCatalog.calculateEventCostMicro PricingCatalog.pricingOf chargesOf
  rw [calculateEventCostMicro_congr hsame hmultiplier]
  exact java_price halike.bounds hnonneg hbefore hsize

private theorem python_cost (hevent : SameEvent event e)
    (hnonneg : ∀ x ∈ ModelPricing.categories e, 0 ≤ x.2) (hbefore : 0 ≤ before)
    (hkey : c.normalizeModelId (Loader.PricingCatalog.modelOf event) = some key) :
    c.calculateCostMicro event before = some ((chargesOf c e before key).map pyRound).sum := by
  have hcats : ∀ x ∈ Loader.categories event, 0 ≤ x.2 := by
    rw [hevent.counts]
    exact hnonneg
  unfold Loader.PricingCatalog.calculateCostMicro Loader.PricingCatalog.modelPricing chargesOf
  rw [hkey, Option.map_some, Option.map_some, python_price hcats hbefore, hevent.counts]

private theorem found_of_cost {price : ℤ} (hprice : c.calculateCostMicro event before = some price) :
    (c.normalizeModelId (Loader.PricingCatalog.modelOf event)).isSome := by
  unfold Loader.PricingCatalog.calculateCostMicro Loader.PricingCatalog.modelPricing at hprice
  cases hkey : c.normalizeModelId (Loader.PricingCatalog.modelOf event) with
  | none =>
    rw [hkey] at hprice
    cases hprice
  | some key => rfl

end Costs

/-- A reader for documents whose prices are numbers. -/
def numbersOnly : Jackson where
  parseAsDouble _ default := default
  parseAsLong _ := 0
  toLong q := ⌊q⌋
  doubleText _ := "0.0"
  doubleText_zero := rfl

def gpt4oDocument : Dict :=
  [("models", .obj [("gpt-4o", .obj [("input_per_m", .float (5 / 2)), ("output_per_m", .num 10)])]),
    ("defaults", .obj [])]

/-- Flat prices as Python reads them. -/
def flatModel (input output embedding : ℚ)
    (h : Loader.Tier.nonneg ⟨none, input, output, embedding⟩) : Loader.ModelPricing where
  toModelPricing := ModelPricing.flat input output embedding
  bounded htiers := absurd rfl htiers
  priced _ htier := by cases htier
  base := h

def gpt4oCatalog : Loader.PricingCatalog where
  models := [("gpt-4o", flatModel (5 / 2) 10 (1 / 10) (by decide +kernel))]
  defaults := flatModel 1 3 (1 / 10) (by decide +kernel)
  prefixModels := []
  cacheReadMultiplier := 1 / 2

def gpt4oEvent (inputTokens : ℤ) : Dict :=
  [("modelId", .str "gpt-4o"), ("inputTokens", .num inputTokens)]

def gpt4oBean (inputTokens : ℤ) : TokenEvent :=
  { modelId := some "gpt-4o", inputTokens := inputTokens }

theorem gpt4oCatalog_read (ofText : String → Option ℚ) :
    Loader.PricingCatalog.ofRoot ofText gpt4oDocument = some gpt4oCatalog := by
  have hflat : ∀ (node : Dict) (input output embedding : ℚ)
      (h : Loader.Tier.nonneg ⟨none, input, output, embedding⟩),
      Loader.price ofText node "input_per_m" 1 = some input →
      Loader.price ofText node "output_per_m" 3 = some output →
      Loader.price ofText node "embedding_per_m" (1 / 10) = some embedding →
      Dict.get node "tiers" = none → Dict.get node "pricing_mode" = none →
      Loader.fromJson ofText (.obj node) = some (flatModel input output embedding h) := by
    intro node input output embedding h hinput houtput hembedding htiers hmode
    unfold Loader.fromJson
    dsimp only
    rw [hinput, houtput, hembedding, htiers, hmode]
    exact dif_pos ⟨by decide, by simp, by simp, h⟩
  have hmodel := hflat [("input_per_m", .float (5 / 2)), ("output_per_m", .num 10)] (5 / 2) 10
    (1 / 10) (by decide +kernel) rfl rfl rfl rfl rfl
  have hdefaults := hflat [] 1 3 (1 / 10) (by decide +kernel) rfl rfl rfl rfl rfl
  have hmult : ¬ (1 / 2 : ℚ) < 0 := by norm_num
  have hmodelsField : gpt4oDocument.get "models" = some (.obj [("gpt-4o",
      .obj [("input_per_m", .float (5 / 2)), ("output_per_m", .num 10)])]) := rfl
  have hdefaultsField : gpt4oDocument.get "defaults" = some (.obj []) := rfl
  have hscope : Loader.isSetting (gpt4oDocument.get "volume_scope") "customer_model" = true := rfl
  have hperiod : Loader.isSetting (gpt4oDocument.get "billing_period") "calendar_month" = true := rfl
  have hread : Loader.price ofText gpt4oDocument "cache_read_multiplier" (1 / 2) = some (1 / 2) := rfl
  have hprefixes : Loader.listOrEmpty (gpt4oDocument.get "prefix_models") = some [] := rfl
  unfold Loader.PricingCatalog.ofRoot
  rw [hmodelsField, hdefaultsField]
  simp only [hscope, hperiod, hread, hprefixes, hdefaults, hmodel, Bool.not_true, Bool.false_eq_true,
    if_false, Option.bind_eq_bind, Option.bind_some, if_neg hmult, List.mapM_cons, List.mapM_nil,
    Option.map_some, Option.pure_def]
  rfl

theorem gpt4o_sameEvent (inputTokens : ℤ) :
    SameEvent (gpt4oEvent inputTokens) (gpt4oBean inputTokens) :=
  ⟨rfl, Or.inl ⟨"gpt-4o", rfl, rfl⟩⟩

private theorem gpt4o_one_token : ¬ Agree numbersOnly gpt4oDocument gpt4oCatalog (gpt4oEvent 1)
    (gpt4oBean 1) 0 := by
  rintro ⟨j, hj, hprice⟩
  have hjava : (PricingCatalog.parse numbersOnly (.obj gpt4oDocument)).map
      (fun j => j.calculateEventCostMicro (gpt4oBean 1) 0) = some 3 := by decide +kernel
  have hpython : gpt4oCatalog.calculateCostMicro (gpt4oEvent 1) 0 = some 2 := by decide +kernel
  rw [hj, Option.map_some] at hjava
  rw [hpython, Option.some.inj hjava] at hprice
  revert hprice
  decide

private theorem gpt4o_alike (inputTokens : ℤ) :
    Alike numbersOnly (fun _ => none) gpt4oDocument gpt4oCatalog
    (gpt4oBean inputTokens) 0 "gpt-4o" where
  modes := by
    intro entry hentry
    have hentries : entries gpt4oDocument =
        [.obj [("input_per_m", .float (5 / 2)), ("output_per_m", .num 10)], .obj []] := rfl
    rw [hentries] at hentry
    simp only [List.mem_cons, List.not_mem_nil, or_false] at hentry
    rcases hentry with rfl | rfl <;> rfl
  sameEntry j hj := by
    have haccepted := accepted_of_ofRoot (gpt4oCatalog_read fun _ => none)
    have hsame := normalize_same haccepted hj rfl (by simp [gpt4oCatalog]) (some "gpt-4o")
    have hpython : gpt4oCatalog.normalizeModelId (some "gpt-4o") = some "gpt-4o" := by decide
    rw [hpython] at hsame
    have hbean : (gpt4oBean inputTokens).modelId = some "gpt-4o" := rfl
    rw [hbean, ← Option.some.inj hsame]
  prices entry hentry := by
    have hmodel : modelEntry gpt4oDocument "gpt-4o" =
        some (.obj [("input_per_m", .float (5 / 2)), ("output_per_m", .num 10)]) := rfl
    rw [hmodel] at hentry
    cases hentry
    intro node hnode category _ s hs
    have hnodes : node = .obj [("input_per_m", .float (5 / 2)), ("output_per_m", .num 10)] :=
      List.mem_singleton.mp hnode
    subst hnodes
    cases category <;> simp [priceField, Json.path, Dict.get_cons, Dict.get_nil] at hs
  multiplier _ s hs := by
    have hnone : gpt4oDocument.get "cache_read_multiplier" = none := rfl
    rw [hnone] at hs
    cases hs
  bounds b hb := by
    have hbrackets : tierBrackets ((gpt4oCatalog.models.lookup "gpt-4o").getD
        gpt4oCatalog.defaults).tiers = [] := by
      have hlookup : gpt4oCatalog.models.lookup "gpt-4o" =
          some (flatModel (5 / 2) 10 (1 / 10) (by decide +kernel)) := rfl
      rw [hlookup]
      rfl
    rw [hbrackets] at hb
    cases hb

end FluxMeter.Pricing
