import FluxMeter.Pricing.PricingCatalog
import FluxMeter.Wire.Json

/-! `PricingCatalog.parse` of `PricingCatalog.java`: the catalog that a JSON document is read as. A
call that throws returns `none`. -/
namespace FluxMeter.Pricing
open Collections FluxMeter.Keys FluxMeter.Model FluxMeter.Wire

/-- The conversions of a Jackson node, with those of texts and of the text of a double as the
library makes them. -/
structure Jackson where
  /-- `NumberInput.parseAsDouble`. -/
  parseAsDouble : String → ℚ → ℚ
  /-- `NumberInput.parseAsLong`. -/
  parseAsLong : String → ℤ
  /-- The cast of a double to `long`. -/
  toLong : ℚ → ℤ
  doubleText : ℚ → String
  doubleText_zero : doubleText 0 = "0.0"

namespace Jackson
variable (K : Jackson)

/-- `asDouble(default)`. -/
def asDouble (node : Json) (default : ℚ) : ℚ :=
  match node with
  | .num n => n
  | .float q => q
  | .bool b => if b then 1 else 0
  | .str s => K.parseAsDouble s default
  | _ => default

/-- `asLong()`. -/
def asLong : Json → ℤ
  | .num n => wrap64 n
  | .float q => K.toLong q
  | .bool b => if b then 1 else 0
  | .str s => K.parseAsLong s
  | _ => 0

/-- `asText()`. -/
def asText : Json → String
  | .null => "null"
  | .bool b => if b then "true" else "false"
  | .num n => toString n
  | .float q => K.doubleText q
  | .str s => s
  | _ => ""

end Jackson

/-- `toLowerCase` on the letters that the names of the modes have. -/
def toLowerCase (s : String) : String := String.ofList (s.toList.map Char.toLower)

/-- `PricingMode.fromString`. -/
def PricingMode.fromString (raw : Option String) (hasTiers : Bool) : Option PricingMode :=
  match raw with
  | none => some (if hasTiers then .volume else .flat)
  | some raw =>
    if isBlank raw then some (if hasTiers then .volume else .flat)
    else if toLowerCase raw = "flat" then some .flat
    else if toLowerCase raw = "volume" then some .volume
    else if toLowerCase raw = "graduated" then some .graduated
    else none

/-- `VolumeScope.fromString` and `BillingPeriod.fromString`, which know one value each. -/
def readsSetting (raw : Option String) (only : String) : Bool :=
  match raw with
  | none => true
  | some raw => isBlank raw || raw = only

variable (K : Jackson)

def priceOf (node : Option Json) (field : String) (default : ℚ) : ℚ :=
  match Json.path node field with
  | some value => K.asDouble value 0
  | none => default

def Tier.fromJson (input output embedding : ℚ) (t : Json) : Tier where
  upToTokensM :=
    match Json.path (some t) "up_to_tokens_m" with
    | none => none
    | some .null => none
    | some value => some (K.asLong value)
  inputPerM := priceOf K (some t) "input_per_m" input
  outputPerM := priceOf K (some t) "output_per_m" output
  embeddingPerM := priceOf K (some t) "embedding_per_m" embedding

def elements : Option Json → List Json
  | some (.arr items) => items
  | _ => []

/-- `ModelPricing.fromJson` of a node that is there and not null. -/
def ModelPricing.fromJson (node : Json) : Option ModelPricing :=
  let input := priceOf K (some node) "input_per_m" 1
  let output := priceOf K (some node) "output_per_m" 3
  let embedding := priceOf K (some node) "embedding_per_m" (1 / 10)
  let tiers := (elements (Json.path (some node) "tiers")).map (Tier.fromJson K input output embedding)
  let mode := PricingMode.fromString ((Json.path (some node) "pricing_mode").map K.asText)
    (!tiers.isEmpty)
  mode.bind fun mode =>
    if h : mode = .flat ↔ tiers = [] then some ⟨mode, input, output, embedding, tiers, h⟩ else none

/-- `ModelPricing(FLAT, 1.0, 3.0, 0.1, null)`. -/
def builtInDefaults : ModelPricing := ModelPricing.flat 1 3 (1 / 10)

namespace PricingCatalog

def defaultsOf (node : Option Json) : Option ModelPricing :=
  match node with
  | none => some builtInDefaults
  | some .null => some builtInDefaults
  | some node => ModelPricing.fromJson K node

/-- One entry of `models`; a null entry, which fails when it is looked up, is refused here. -/
def modelOf (entry : String × Json) : Option (String × ModelPricing) :=
  match entry.2 with
  | .null => none
  | node => (ModelPricing.fromJson K node).map fun m => (entry.1, m)

def modelsOf (node : Option Json) : Option (List (String × ModelPricing)) :=
  match node with
  | some (.obj fields) => fields.mapM (modelOf K)
  | _ => some []

/-- `PricingCatalog.parse`. -/
def parse (root : Json) : Option PricingCatalog := do
  let models ← modelsOf K (Json.path (some root) "models")
  let defaults ← defaultsOf K (Json.path (some root) "defaults")
  let prefixModels := (elements (Json.path (some root) "prefix_models")).map K.asText
  let cacheMult :=
    match Json.path (some root) "cache_read_multiplier" with
    | some value => K.asDouble value (1 / 2)
    | none => 1 / 2
  if !readsSetting ((Json.path (some root) "volume_scope").map K.asText) "customer_model" then none
  if !readsSetting ((Json.path (some root) "billing_period").map K.asText) "calendar_month" then none
  some ⟨Table.ofList models, defaults, prefixModels, cacheMult⟩

end PricingCatalog

end FluxMeter.Pricing
