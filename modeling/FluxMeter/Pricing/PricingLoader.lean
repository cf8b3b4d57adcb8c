import FluxMeter.Arithmetic.Binary64
import FluxMeter.Custody.Payload
import FluxMeter.Pricing.PricingCatalog

/-! `pricing_loader.py`, the Python mirror of the catalog: what its constructor accepts, and the
price of one event. Integers are unbounded; a function that raises returns `none`. -/
namespace FluxMeter.Pricing.Loader
open Collections FluxMeter.Wire FluxMeter.Custody

/-- `round`: half to even. -/
def pyRound (x : ℚ) : ℤ := Binary64.nearestEven x

/-- The checks of `from_json` on the bounds of the tiers: above `previous` and strictly increasing,
and exactly the last tier is open. -/
def validBounds : ℤ → List Tier → Bool
  | _, [] => false
  | previous, tier :: rest =>
    match tier.upToTokensM with
    | none => rest.isEmpty
    | some upTo => previous < upTo && validBounds upTo rest

def Tier.nonneg (tier : Tier) : Bool :=
  0 ≤ tier.inputPerM && 0 ≤ tier.outputPerM && 0 ≤ tier.embeddingPerM

/-- A model that `from_json` has checked. -/
structure ModelPricing extends FluxMeter.Pricing.ModelPricing where
  bounded : tiers ≠ [] → validBounds (-1) tiers
  priced : ∀ tier ∈ tiers, Tier.nonneg tier
  base : Tier.nonneg ⟨none, inputPerM, outputPerM, embeddingPerM⟩

/-! ### Reading a catalog -/

/-- `float` of a value, with that of a text as a parameter. -/
def pyFloat (ofText : String → Option ℚ) : Json → Option ℚ
  | .num n => some n
  | .float q => some q
  | .bool b => some (if b then 1 else 0)
  | .str s => ofText s
  | _ => none

/-- `float(node.get(key, default))`. -/
def price (ofText : String → Option ℚ) (node : Dict) (key : String) (default : ℚ) : Option ℚ :=
  match node.get key with
  | some value => pyFloat ofText value
  | none => some default

/-- `node.get(key) or []` as a list. -/
def listOrEmpty (value : Option Json) : Option (List Json) :=
  match value with
  | none => some []
  | some value =>
    if truthy value then
      match value with
      | .arr items => some items
      | .str s => some (s.toList.map fun c => .str (String.singleton c))
      | .obj fields => some (fields.map fun p => .str p.1)
      | _ => none
    else some []

/-- `t.get("up_to_tokens_m")`, an integer or null. -/
def readUpTo : Option Json → Option (Option ℤ)
  | none => some none
  | some .null => some none
  | some (.num n) => some (some n)
  | some _ => none

/-- One entry of `tiers`. -/
def readTier (ofText : String → Option ℚ) (input output embedding : ℚ) : Json → Option Tier
  | .obj t => do
    let upTo ← readUpTo (Dict.get t "up_to_tokens_m")
    let tierInput ← price ofText t "input_per_m" input
    let tierOutput ← price ofText t "output_per_m" output
    let tierEmbedding ← price ofText t "embedding_per_m" embedding
    let tier : Tier := ⟨upTo, tierInput, tierOutput, tierEmbedding⟩
    if Tier.nonneg tier then some tier else none
  | _ => none

def modeOf : String → Option PricingMode
  | "flat" => some .flat
  | "volume" => some .volume
  | "graduated" => some .graduated
  | _ => none

/-- The mode of an entry, which may be left out. -/
def readMode (mode : Option Json) (hasTiers : Bool) : Option PricingMode :=
  match mode with
  | none => some (if hasTiers then .volume else .flat)
  | some mode =>
    if truthy mode then
      match mode with
      | .str s => modeOf s
      | _ => none
    else some (if hasTiers then .volume else .flat)

/-- `ModelPricing.from_json`. -/
def fromJson (ofText : String → Option ℚ) : Json → Option ModelPricing
  | .obj node => do
    let input ← price ofText node "input_per_m" 1
    let output ← price ofText node "output_per_m" 3
    let embedding ← price ofText node "embedding_per_m" (1 / 10)
    let rawTiers ← listOrEmpty (Dict.get node "tiers")
    let tiers ← rawTiers.mapM (readTier ofText input output embedding)
    let mode ← readMode (Dict.get node "pricing_mode") (!tiers.isEmpty)
    if h : (mode = .flat ↔ tiers = []) ∧ (tiers ≠ [] → validBounds (-1) tiers) ∧
        (∀ tier ∈ tiers, Tier.nonneg tier) ∧ Tier.nonneg ⟨none, input, output, embedding⟩ then
      some ⟨⟨mode, input, output, embedding, tiers, h.1⟩, h.2.1, h.2.2.1, h.2.2.2⟩
    else none
  | _ => none

structure PricingCatalog where
  models : List (String × ModelPricing)
  defaults : ModelPricing
  prefixModels : List Json
  cacheReadMultiplier : ℚ

/-- An optional setting that has one value only. -/
def isSetting (value : Option Json) (only : String) : Bool :=
  match value with
  | none => true
  | some (.str s) => s = only
  | some _ => false

/-- `PricingCatalog(root)`. -/
def PricingCatalog.ofRoot (ofText : String → Option ℚ) (root : Dict) : Option PricingCatalog :=
  match root.get "models", root.get "defaults" with
  | some (.obj models), some (.obj defaults) => do
    if !isSetting (root.get "volume_scope") "customer_model" then none
    if !isSetting (root.get "billing_period") "calendar_month" then none
    let multiplier ← price ofText root "cache_read_multiplier" (1 / 2)
    if multiplier < 0 then none
    let defaults ← fromJson ofText (.obj defaults)
    let models ← models.mapM fun p => (fromJson ofText p.2).map fun m => (p.1, m)
    let prefixes ← listOrEmpty (root.get "prefix_models")
    some ⟨models, defaults, prefixes, multiplier⟩
  | _, _ => none

/-! ### The price of an event -/

namespace ModelPricing
variable (m : ModelPricing)

/-- `tier_at_token`. -/
def tierAtToken (tokenIndex : ℤ) : Tier :=
  if m.tiers = [] then m.flatTier
  else
    let tokensM := tokenIndex / 1000000
    (m.tiers.find? fun tier => tier.upToTokensM.all (tokensM < ·)).getD m.lastTier

def maxTierEnd : ℤ := 9223372036854775807

def tierEndTokens (tier : Tier) : ℤ :=
  match tier.upToTokensM with
  | none => maxTierEnd
  | some upTo => upTo * 1000000

/-- The tokens that the tier at the cursor takes, as far as its end says. -/
def capacity (remaining cursor : ℤ) : ℤ :=
  let tierEnd := tierEndTokens (m.tierAtToken cursor)
  if tierEnd = maxTierEnd then remaining else min remaining (tierEnd - cursor)

/-- One turn of the loop of `_cost_category_graduated`. -/
def slice (remaining cursor : ℤ) : Tier × ℤ :=
  if m.capacity remaining cursor ≤ 0 then (m.lastTier, remaining)
  else (m.tierAtToken cursor, m.capacity remaining cursor)

/-- The loop of `_cost_category_graduated`: the cost and the cursor at its end. -/
def graduatedLoop (cacheMult : ℚ) (category : Category) : ℕ → ℤ → ℤ → ℤ → ℤ × ℤ
  | 0, _, cursor, cost => (cost, cursor)
  | fuel + 1, remaining, cursor, cost =>
    if 0 < remaining then
      let s := m.slice remaining cursor
      graduatedLoop cacheMult category fuel (remaining - s.2) (cursor + s.2)
        (cost + pyRound (s.2 * rateFor s.1 cacheMult category))
    else (cost, cursor)

def costCategoryGraduated (tokens cursor : ℤ) (cacheMult : ℚ) (category : Category) : ℤ × ℤ :=
  m.graduatedLoop cacheMult category tokens.toNat tokens cursor 0

end ModelPricing

/-- `event.get(field, 0)` of an integer field. -/
def tokens (event : Dict) (field : String) : ℤ :=
  match event.get field with
  | some (.num n) => n
  | _ => 0

/-- The pairs of `_cost_graduated`. -/
def categories (event : Dict) : List (Category × ℤ) :=
  [(.input, tokens event "inputTokens"), (.output, tokens event "outputTokens"),
    (.cacheRead, tokens event "cacheReadTokens"), (.reasoning, tokens event "reasoningTokens"),
    (.cacheWrite, tokens event "cacheWriteTokens"), (.embedding, tokens event "embeddingTokens")]

/-- `_cost_graduated`. -/
def costGraduated (event : Dict) (pricing : ModelPricing) (monthlyBefore : ℤ) (cacheMult : ℚ) : ℤ :=
  ((categories event).foldl (fun (s : ℤ × ℤ) (c : Category × ℤ) =>
      let r := pricing.costCategoryGraduated c.2 s.1 cacheMult c.1
      (r.2, s.2 + r.1))
    (monthlyBefore, 0)).2

/-- `_cost_at_tier`. -/
def costAtTier (event : Dict) (tier : Tier) (cacheMult : ℚ) : ℤ :=
  pyRound (tokens event "inputTokens" * tier.inputPerM) +
    pyRound (tokens event "outputTokens" * tier.outputPerM) +
    pyRound (tokens event "cacheReadTokens" * tier.inputPerM * cacheMult) +
    pyRound (tokens event "reasoningTokens" * tier.outputPerM) +
    pyRound (tokens event "cacheWriteTokens" * tier.inputPerM) +
    pyRound (tokens event "embeddingTokens" * tier.embeddingPerM)

namespace PricingCatalog
variable (catalog : PricingCatalog)

/-- The scan of `prefix_models`; a prefix that is not a text raises. -/
def scanPrefixes (model : String) : List Json → Option String
  | [] => some model
  | .str p :: rest => if p.toList.isPrefixOf model.toList then some p else scanPrefixes model rest
  | _ :: _ => none

def normalizeModelId (model : Option String) : Option String :=
  match model with
  | none => some "unknown"
  | some model =>
    if model = "" then some "unknown"
    else if (catalog.models.lookup model).isSome then some model
    else scanPrefixes model catalog.prefixModels

def modelPricing (model : Option String) : Option ModelPricing :=
  (catalog.normalizeModelId model).map fun model =>
    (catalog.models.lookup model).getD catalog.defaults

/-- `event.get("modelId", "unknown")`; the model is a text or null. -/
def modelOf (event : Dict) : Option String :=
  match event.get "modelId" with
  | none => some "unknown"
  | some (.str s) => some s
  | some _ => none

def calculateCostMicro (event : Dict) (monthlyTokensBefore : ℤ) : Option ℤ :=
  (catalog.modelPricing (modelOf event)).map fun pricing =>
    if pricing.pricingMode = .graduated then
      costGraduated event pricing monthlyTokensBefore catalog.cacheReadMultiplier
    else costAtTier event (pricing.tierAtToken monthlyTokensBefore) catalog.cacheReadMultiplier

/-- The arguments of `quote_usd` after the model. -/
structure Quoted where
  inputTokens : ℤ := 0
  outputTokens : ℤ := 0
  cacheReadTokens : ℤ := 0
  reasoningTokens : ℤ := 0
  cacheWriteTokens : ℤ := 0
  embeddingTokens : ℤ := 0
  monthlyTokensBefore : ℤ := 0

def quoteUsd (modelId : String) (q : Quoted) : Option ℚ :=
  (catalog.calculateCostMicro
    [("modelId", .str (if modelId = "" then "unknown" else modelId)),
      ("inputTokens", .num (max 0 q.inputTokens)), ("outputTokens", .num (max 0 q.outputTokens)),
      ("cacheReadTokens", .num (max 0 q.cacheReadTokens)),
      ("reasoningTokens", .num (max 0 q.reasoningTokens)),
      ("cacheWriteTokens", .num (max 0 q.cacheWriteTokens)),
      ("embeddingTokens", .num (max 0 q.embeddingTokens))] q.monthlyTokensBefore).map
    fun micro => micro / 1000000

variable {catalog}

private theorem scanPrefixes_eq_some (model : String) {prefixes : List Json}
    (h : ∀ p ∈ prefixes, ∃ s, p = .str s) : ∃ m, scanPrefixes model prefixes = some m := by
  induction prefixes with
  | nil => exact ⟨model, rfl⟩
  | cons p prefixes ih =>
    obtain ⟨s, rfl⟩ := h p List.mem_cons_self
    rw [scanPrefixes]
    split_ifs
    · exact ⟨s, rfl⟩
    · exact ih fun q hq => h q (List.mem_cons_of_mem _ hq)

private theorem calculateCostMicro_eq_some (h : ∀ p ∈ catalog.prefixModels, ∃ s, p = .str s)
    (event : Dict)
    (before : ℤ) : ∃ micro, catalog.calculateCostMicro event before = some micro := by
  have hmodel : ∃ m, catalog.normalizeModelId (modelOf event) = some m := by
    cases modelOf event with
    | none => exact ⟨_, rfl⟩
    | some model =>
      unfold normalizeModelId
      dsimp only
      split_ifs
      · exact ⟨_, rfl⟩
      · exact ⟨_, rfl⟩
      · exact scanPrefixes_eq_some model h
  obtain ⟨m, hm⟩ := hmodel
  unfold calculateCostMicro modelPricing
  rw [hm]
  exact ⟨_, rfl⟩

/-- A catalog whose prefixes are texts quotes every model. -/
theorem quoteUsd_eq_some (h : ∀ p ∈ catalog.prefixModels, ∃ s, p = .str s) (modelId : String)
    (q : Quoted) : ∃ usd, catalog.quoteUsd modelId q = some usd := by
  unfold quoteUsd
  obtain ⟨micro, hmicro⟩ := calculateCostMicro_eq_some h _ q.monthlyTokensBefore
  rw [hmicro]
  exact ⟨_, rfl⟩

end PricingCatalog

end FluxMeter.Pricing.Loader
