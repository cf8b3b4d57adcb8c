import FluxMeter.Collections.Table
import FluxMeter.Model.TokenEvent
import Mathlib.Data.Rat.Floor

/-! `PricingCatalog.java`: the price of one event in microdollars. Rates are exact rationals;
the `long` arithmetic wraps at 64 bits. -/
namespace FluxMeter.Pricing
open Collections FluxMeter.Model

structure Tier where
  /-- In millions of tokens, exclusive; the open tier has none. -/
  upToTokensM : Option ℤ
  inputPerM : ℚ
  outputPerM : ℚ
  embeddingPerM : ℚ
  deriving DecidableEq, Repr

inductive PricingMode
  | flat
  | volume
  | graduated
  deriving DecidableEq, Repr

inductive Category
  | input
  | output
  | cacheRead
  | reasoning
  | cacheWrite
  | embedding
  deriving DecidableEq, Repr

/-- The prices of one model; exactly the flat mode has no tiers. -/
structure ModelPricing where
  pricingMode : PricingMode
  inputPerM : ℚ
  outputPerM : ℚ
  embeddingPerM : ℚ
  tiers : List Tier
  tiered : pricingMode = .flat ↔ tiers = []

/-- `Math.round`: half up, saturating at the ends of `long`. -/
def mathRound (x : ℚ) : ℤ := max (-(2 ^ 63)) (min (2 ^ 63 - 1) ⌊x + 1 / 2⌋)

def rateFor (tier : Tier) (cacheReadMultiplier : ℚ) : Category → ℚ
  | .input => tier.inputPerM
  | .output => tier.outputPerM
  | .reasoning => tier.outputPerM
  | .cacheRead => tier.inputPerM * cacheReadMultiplier
  | .cacheWrite => tier.inputPerM
  | .embedding => tier.embeddingPerM

/-- `tierEndTokens`: the open tier ends at `Long.MAX_VALUE`. -/
def tierEndTokens (tier : Tier) : ℤ :=
  match tier.upToTokensM with
  | none => 2 ^ 63 - 1
  | some upTo => wrap64 (upTo * 1000000)

def costAtTier (e : TokenEvent) (tier : Tier) (cacheReadMultiplier : ℚ) : ℤ :=
  let cost₁ := wrap64 (0 + mathRound (e.inputTokens * tier.inputPerM))
  let cost₂ := wrap64 (cost₁ + mathRound (e.outputTokens * tier.outputPerM))
  let cost₃ := wrap64 (cost₂ + mathRound (e.cacheReadTokens * tier.inputPerM * cacheReadMultiplier))
  let cost₄ := wrap64 (cost₃ + mathRound (e.reasoningTokens * tier.outputPerM))
  let cost₅ := wrap64 (cost₄ + mathRound (e.cacheWriteTokens * tier.inputPerM))
  wrap64 (cost₅ + mathRound (e.embeddingTokens * tier.embeddingPerM))

namespace ModelPricing
variable (m : ModelPricing)

def flat (input output embedding : ℚ) : ModelPricing where
  pricingMode := .flat
  inputPerM := input
  outputPerM := output
  embeddingPerM := embedding
  tiers := []
  tiered := by simp

def flatTier : Tier := ⟨none, m.inputPerM, m.outputPerM, m.embeddingPerM⟩

/-- `tiers.get(tiers.size() - 1)`. -/
def lastTier : Tier := m.tiers.getLast?.getD m.flatTier

/-- `tierAtToken`; the division truncates toward zero. -/
def tierAtToken (tokenIndex : ℤ) : Tier :=
  let tokensM := tokenIndex.tdiv 1000000
  (m.tiers.find? fun tier => tier.upToTokensM.all (tokensM < ·)).getD m.lastTier

/-- `selectTier`. -/
def selectTier (monthlyTokens : ℤ) : Tier :=
  if m.tiers = [] then m.flatTier else m.tierAtToken monthlyTokens

/-- One turn of the loop of `costCategoryGraduated`: the tier and the number of tokens that are
priced at its rate. -/
def slice (remaining cursor : ℤ) : Tier × ℤ :=
  let tier := m.tierAtToken cursor
  let tierEnd := tierEndTokens tier
  let capacity :=
    if tierEnd = 2 ^ 63 - 1 then remaining else min remaining (wrap64 (tierEnd - cursor))
  if capacity ≤ 0 then (m.lastTier, remaining) else (tier, capacity)

/-- The loop of `costCategoryGraduated`; every turn prices at least one token. -/
def graduatedLoop (cacheReadMultiplier : ℚ) (category : Category) : ℕ → ℤ → ℤ → ℤ → ℤ
  | 0, _, _, cost => cost
  | fuel + 1, remaining, cursor, cost =>
    if 0 < remaining then
      let s := m.slice remaining cursor
      graduatedLoop cacheReadMultiplier category fuel (remaining - s.2) (wrap64 (cursor + s.2))
        (wrap64 (cost + mathRound (s.2 * rateFor s.1 cacheReadMultiplier category)))
    else cost

def costCategoryGraduated (tokens cursor : ℤ) (cacheReadMultiplier : ℚ) (category : Category) : ℤ :=
  m.graduatedLoop cacheReadMultiplier category tokens.toNat tokens cursor 0

/-- The categories in the order in which they move the cursor. -/
def categories (e : TokenEvent) : List (Category × ℤ) :=
  [(.input, e.inputTokens), (.output, e.outputTokens), (.cacheRead, e.cacheReadTokens),
    (.reasoning, e.reasoningTokens), (.cacheWrite, e.cacheWriteTokens),
    (.embedding, e.embeddingTokens)]

/-- `costGraduated`: one cursor goes through all categories of the event. -/
def costGraduated (e : TokenEvent) (monthlyTokensBefore : ℤ) (cacheReadMultiplier : ℚ) : ℤ :=
  ((categories e).foldl (fun (s : ℤ × ℤ) (c : Category × ℤ) =>
      (wrap64 (s.1 + c.2),
        wrap64 (s.2 + m.costCategoryGraduated c.2 s.1 cacheReadMultiplier c.1)))
    (monthlyTokensBefore, 0)).2

def calculateEventCostMicro (e : TokenEvent) (monthlyTokensBefore : ℤ)
    (cacheReadMultiplier : ℚ) : ℤ :=
  match m.pricingMode with
  | .flat => costAtTier e (m.selectTier monthlyTokensBefore) cacheReadMultiplier
  | .volume => costAtTier e (m.selectTier monthlyTokensBefore) cacheReadMultiplier
  | .graduated => m.costGraduated e monthlyTokensBefore cacheReadMultiplier

end ModelPricing

structure PricingCatalog where
  models : Table String ModelPricing
  defaults : ModelPricing
  prefixModels : List String
  cacheReadMultiplier : ℚ

namespace PricingCatalog
variable (catalog : PricingCatalog)

def normalizeModelId (model : Option String) : String :=
  match model with
  | none => "unknown"
  | some model =>
    if model = "" then "unknown"
    else if (catalog.models.get model).isSome then model
    else (catalog.prefixModels.find? fun p => p.toList.isPrefixOf model.toList).getD model

/-- `models.getOrDefault` at the normalized id. -/
def pricingOf (model : Option String) : ModelPricing :=
  (catalog.models.get (catalog.normalizeModelId model)).getD catalog.defaults

def calculateEventCostMicro (e : TokenEvent) (monthlyTokensBefore : ℤ) : ℤ :=
  (catalog.pricingOf e.modelId).calculateEventCostMicro e monthlyTokensBefore
    catalog.cacheReadMultiplier

end PricingCatalog

end FluxMeter.Pricing
