import FluxMeter.Collections.PartialMap
import FluxMeter.Pricing.CatalogDocument

/-! `toJsonSnapshot` of `PricingCatalog.java` against `parse`. Here an entry of `models` may be the
null reference that `parse` puts there, and a document is the tree that Jackson reads of its text. A
call that throws returns `none`. -/
namespace FluxMeter.Pricing.Snapshot
open Collections FluxMeter.Model FluxMeter.Wire

/-- The conversions of a Jackson node, where those to `long` give one, and the order in which a
`HashMap` gives the entries that were put into it. -/
structure Mapper extends Jackson where
  parseAsLong_long : ∀ s, wrap64 (parseAsLong s) = parseAsLong s
  toLong_long : ∀ q, wrap64 (toLong q) = toLong q
  entries : Dict → Dict
  entries_perm : ∀ d, (entries d).Perm d

structure PricingCatalog where
  models : Table String (Option ModelPricing)
  defaults : ModelPricing
  prefixModels : List String
  cacheReadMultiplier : ℚ
  version : String

/-! ### Writing -/

/-- `pricingMode.name().toLowerCase()`. -/
def modeName : PricingMode → String
  | .flat => "flat"
  | .volume => "volume"
  | .graduated => "graduated"

/-- `up_to_tokens_m` of a tier. -/
def upToJson (upTo : Option ℤ) : Json := (upTo.map Json.num).getD .null

section Write
variable (M : Mapper)

def tierMap (t : Tier) : Dict :=
  [("up_to_tokens_m", upToJson t.upToTokensM), ("input_per_m", .float t.inputPerM),
    ("output_per_m", .float t.outputPerM), ("embedding_per_m", .float t.embeddingPerM)]

/-- The entries that `toMap` puts. -/
def pricingMap (m : ModelPricing) : Dict :=
  (if m.pricingMode = .flat then [] else [("pricing_mode", .str (modeName m.pricingMode))]) ++
  ([("input_per_m", .float m.inputPerM), ("output_per_m", .float m.outputPerM),
    ("embedding_per_m", .float m.embeddingPerM)] ++
  (if m.tiers = [] then []
  else [("tiers", .arr (m.tiers.map fun t => .obj (M.entries (tierMap t))))]))

/-- `ModelPricing.toMap`. -/
def toMap (m : ModelPricing) : Json := .obj (M.entries (pricingMap M m))

/-- One entry of `modelMap`; `toMap` of the null reference throws. -/
def modelEntry (entry : String × Option ModelPricing) : Option (String × Json) :=
  (entry.2.map (toMap M)).map fun node => (entry.1, node)

/-- The entries that `toJsonSnapshot` puts. -/
def snapshotMap (c : PricingCatalog) (modelMap : Dict) : Dict :=
  [("version", .str c.version), ("cache_read_multiplier", .float c.cacheReadMultiplier),
    ("volume_scope", .str "customer_model"), ("billing_period", .str "calendar_month"),
    ("models", .obj (M.entries modelMap)), ("defaults", toMap M c.defaults),
    ("prefix_models", .arr (c.prefixModels.map .str))]

def toJsonSnapshot (c : PricingCatalog) : Option Json :=
  (c.models.rows.mapM (modelEntry M)).map fun modelMap => .obj (M.entries (snapshotMap M c modelMap))

end Write

/-! ### Reading -/

section Read
variable (K : Jackson)

/-- `ModelPricing.fromJson`, which gives the null reference for a null node. -/
def reference (node : Json) : Option (Option ModelPricing) :=
  match node with
  | .null => some none
  | node => (ModelPricing.fromJson K node).map some

def modelsOf (node : Option Json) : Option (List (String × Option ModelPricing)) :=
  match node with
  | some (.obj fields) => fields.mapM fun p => (reference K p.2).map fun m => (p.1, m)
  | _ => some []

/-- `asText("1")` of a version that is there. -/
def versionOf (node : Option Json) : String :=
  match node with
  | none => "1"
  | some .null => "1"
  | some node => K.asText node

namespace PricingCatalog

def parse (root : Json) : Option PricingCatalog := do
  let models ← modelsOf K (Json.path (some root) "models")
  let defaults ← Pricing.PricingCatalog.defaultsOf K (Json.path (some root) "defaults")
  let prefixModels := (elements (Json.path (some root) "prefix_models")).map K.asText
  let cacheMult :=
    match Json.path (some root) "cache_read_multiplier" with
    | some value => K.asDouble value (1 / 2)
    | none => 1 / 2
  let version := versionOf K (Json.path (some root) "version")
  if readsSetting ((Json.path (some root) "volume_scope").map K.asText) "customer_model" &&
      readsSetting ((Json.path (some root) "billing_period").map K.asText) "calendar_month" then
    some ⟨Table.ofList models, defaults, prefixModels, cacheMult, version⟩
  else none

variable (c : PricingCatalog)

def normalizeModelId (model : Option String) : String :=
  match model with
  | none => "unknown"
  | some model =>
    if model = "" then "unknown"
    else if (c.models.get model).isSome then model
    else (c.prefixModels.find? fun p => p.toList.isPrefixOf model.toList).getD model

/-- `models.getOrDefault`, which gives the null reference where that is the entry. -/
def pricingOf (model : Option String) : Option ModelPricing :=
  (c.models.get (c.normalizeModelId model)).getD (some c.defaults)

def calculateEventCostMicro (e : TokenEvent) (monthlyTokensBefore : ℤ) : Option ℤ :=
  (c.pricingOf e.modelId).map fun m =>
    m.calculateEventCostMicro e monthlyTokensBefore c.cacheReadMultiplier

end PricingCatalog

end Read

/-- No entry of `models` is null. -/
def NoNullEntry (root : Json) : Prop :=
  ∀ key, Json.path (Json.path (some root) "models") key ≠ some .null

/-! ### Maps -/

section Maps
variable {M : Mapper} {d : Dict}

private theorem get_entries (h : (d.map Prod.fst).Nodup) (key : String) :
    Dict.get (M.entries d) key = Dict.get d key := by
  have hentries : ((M.entries d).map Prod.fst).Nodup := ((M.entries_perm d).map _).nodup_iff.mpr h
  ext value
  show List.lookup key _ = some value ↔ List.lookup key _ = some value
  rw [Table.lookup_eq_some_iff_mem hentries, Table.lookup_eq_some_iff_mem h]
  exact (M.entries_perm d).mem_iff

theorem path_entries (h : (d.map Prod.fst).Nodup) (key : String) :
    Json.path (some (.obj (M.entries d))) key = Dict.get d key := get_entries h key

end Maps

/-! ### One model -/

section Model
variable {M : Mapper} {m : ModelPricing}

/-- The bound of a tier is a `long`. -/
def Tier.IsLong (t : Tier) : Prop := ∀ upTo ∈ t.upToTokensM, wrap64 upTo = upTo

theorem fromJson_tierMap {t : Tier} (hlong : Tier.IsLong t) (input output embedding : ℚ) :
    Tier.fromJson M.toJackson input output embedding (.obj (M.entries (tierMap t))) = t := by
  have hkeys : ((tierMap t).map Prod.fst).Nodup := by simp [tierMap]
  unfold Tier.fromJson priceOf
  simp only [path_entries hkeys]
  obtain ⟨upTo, i, o, e⟩ := t
  cases upTo with
  | none => simp [tierMap, upToJson, Dict.get_cons, Jackson.asDouble]
  | some n =>
    have hn : wrap64 n = n := hlong n rfl
    simp [tierMap, upToJson, Dict.get_cons, Jackson.asDouble, Jackson.asLong, hn]

private theorem keys_pricingMap (M : Mapper) (m : ModelPricing) :
    ((pricingMap M m).map Prod.fst).Nodup := by
  unfold pricingMap
  split_ifs <;> simp

private theorem fromString_mode (m : ModelPricing) :
    PricingMode.fromString (if m.pricingMode = .flat then none else some (modeName m.pricingMode))
      (!m.tiers.isEmpty) = some m.pricingMode := by
  cases hmode : m.pricingMode with
  | flat =>
    rw [m.tiered.mp hmode]
    rfl
  | volume => cases !m.tiers.isEmpty <;> decide
  | graduated => cases !m.tiers.isEmpty <;> decide

theorem fromJson_toMap (hlong : ∀ t ∈ m.tiers, Tier.IsLong t) :
    ModelPricing.fromJson M.toJackson (toMap M m) = some m := by
  have hpath : ∀ key, Json.path (some (toMap M m)) key = Dict.get (pricingMap M m) key :=
    path_entries (keys_pricingMap M m)
  have hprices : priceOf M.toJackson (some (toMap M m)) "input_per_m" 1 = m.inputPerM ∧
      priceOf M.toJackson (some (toMap M m)) "output_per_m" 3 = m.outputPerM ∧
      priceOf M.toJackson (some (toMap M m)) "embedding_per_m" (1 / 10) = m.embeddingPerM := by
    unfold priceOf
    simp only [hpath]
    unfold pricingMap
    split_ifs <;> simp [Dict.get_cons, Jackson.asDouble]
  have hmode : (Json.path (some (toMap M m)) "pricing_mode").map M.toJackson.asText =
      if m.pricingMode = .flat then none else some (modeName m.pricingMode) := by
    rw [hpath]
    unfold pricingMap
    split_ifs <;> simp [Dict.get_cons, Dict.get_nil, Jackson.asText]
  have htiers : ∀ input output embedding : ℚ,
      (elements (Json.path (some (toMap M m)) "tiers")).map
        (Tier.fromJson M.toJackson input output embedding) = m.tiers := by
    intro input output embedding
    have helements : elements (Json.path (some (toMap M m)) "tiers") =
        m.tiers.map fun t => .obj (M.entries (tierMap t)) := by
      rw [hpath]
      unfold pricingMap
      by_cases hnil : m.tiers = []
      · rw [if_pos hnil, hnil]
        split_ifs <;> simp [Dict.get_cons, Dict.get_nil, elements]
      · rw [if_neg hnil]
        split_ifs <;> simp [Dict.get_cons, elements]
    rw [helements, List.map_map]
    conv_rhs => rw [← List.map_id m.tiers]
    exact List.map_congr_left fun t ht => fromJson_tierMap (hlong t ht) input output embedding
  unfold ModelPricing.fromJson
  simp only [hprices.1, hprices.2.1, hprices.2.2, htiers, hmode, fromString_mode, Option.bind_some]
  exact dif_pos m.tiered

private theorem asLong_long (M : Mapper) (value : Json) :
    wrap64 (M.toJackson.asLong value) = M.toJackson.asLong value := by
  cases value with
  | num n =>
    have hwrap := wrap64_add n 0
    rwa [add_zero, add_zero] at hwrap
  | float q => exact M.toLong_long q
  | str s => exact M.parseAsLong_long s
  | bool b => cases b <;> rfl
  | null => rfl
  | arr items => rfl
  | obj fields => rfl

private theorem isLong_fromJson (M : Mapper) (input output embedding : ℚ) (t : Json) :
    Tier.IsLong (Tier.fromJson M.toJackson input output embedding t) := by
  intro upTo hupTo
  unfold Tier.fromJson at hupTo
  dsimp only at hupTo
  split at hupTo
  · cases hupTo
  · cases hupTo
  · rw [← Option.some.inj hupTo]
    exact asLong_long M _

theorem isLong_of_fromJson {node : Json} (h : ModelPricing.fromJson M.toJackson node = some m) :
    ∀ t ∈ m.tiers, Tier.IsLong t := by
  unfold ModelPricing.fromJson at h
  obtain ⟨mode, -, hm⟩ := Option.bind_eq_some_iff.mp h
  split_ifs at hm
  rw [← Option.some.inj hm]
  intro t ht
  obtain ⟨node, -, rfl⟩ := List.mem_map.mp ht
  exact isLong_fromJson M _ _ _ node

theorem isLong_of_defaultsOf {node : Option Json}
    (h : Pricing.PricingCatalog.defaultsOf M.toJackson node = some m) :
    ∀ t ∈ m.tiers, Tier.IsLong t := by
  unfold Pricing.PricingCatalog.defaultsOf at h
  split at h
  · rw [← Option.some.inj h]
    exact fun t ht => by cases ht
  · rw [← Option.some.inj h]
    exact fun t ht => by cases ht
  · exact isLong_of_fromJson h

end Model

/-! ### References -/

section References
variable {M : Mapper} {K : Jackson} {node : Json}

theorem reference_null_iff : reference K node = some none ↔ node = .null := by
  cases node <;> simp [reference]

theorem reference_eq_some_some {m : ModelPricing} :
    reference K node = some (some m) ↔ node ≠ .null ∧ ModelPricing.fromJson K node = some m := by
  cases node <;> simp [reference]

theorem reference_toMap {m : ModelPricing} (hlong : ∀ t ∈ m.tiers, Tier.IsLong t) :
    reference M.toJackson (toMap M m) = some (some m) :=
  reference_eq_some_some.mpr ⟨by simp [toMap], fromJson_toMap hlong⟩

theorem lookup_modelsOf {node : Option Json} {models : List (String × Option ModelPricing)}
    (h : modelsOf K node = some models) (key : String) :
    models.lookup key = (Json.path node key).bind (reference K) := by
  unfold modelsOf at h
  split at h
  · exact lookup_mapM h key
  · rename_i hnode
    rw [← Option.some.inj h]
    unfold Json.path
    split
    · rename_i fields
      exact absurd rfl (hnode fields)
    · rfl

end References

/-! ### Catalogs -/

namespace PricingCatalog

/-- The bounds of all tiers are `long`s. -/
structure Long (c : PricingCatalog) : Prop where
  models : ∀ key m, c.models.get key = some (some m) → ∀ t ∈ m.tiers, Tier.IsLong t
  defaults : ∀ t ∈ c.defaults.tiers, Tier.IsLong t

/-- Equal up to the order of the models. -/
structure Same (c c' : PricingCatalog) : Prop where
  models : ∀ key, c.models.get key = c'.models.get key
  defaults : c.defaults = c'.defaults
  prefixModels : c.prefixModels = c'.prefixModels
  cacheReadMultiplier : c.cacheReadMultiplier = c'.cacheReadMultiplier
  version : c.version = c'.version

section Same
variable {c c' : PricingCatalog}

theorem Same.normalizeModelId (h : c.Same c') (model : Option String) :
    c.normalizeModelId model = c'.normalizeModelId model := by
  unfold PricingCatalog.normalizeModelId
  simp only [h.models, h.prefixModels]

theorem Same.calculateEventCostMicro (h : c.Same c') (e : TokenEvent) (before : ℤ) :
    c.calculateEventCostMicro e before = c'.calculateEventCostMicro e before := by
  unfold PricingCatalog.calculateEventCostMicro pricingOf
  rw [h.normalizeModelId, h.models, h.defaults, h.cacheReadMultiplier]

end Same

section Parse
variable {M : Mapper} {K : Jackson} {root : Json} {c : PricingCatalog}

theorem parse_eq_some (h : parse K root = some c) :
    (∃ models, modelsOf K (Json.path (some root) "models") = some models ∧
        c.models = Table.ofList models) ∧
      Pricing.PricingCatalog.defaultsOf K (Json.path (some root) "defaults") = some c.defaults := by
  unfold parse at h
  obtain ⟨models, hmodels, h⟩ := Option.bind_eq_some_iff.mp h
  obtain ⟨defaults, hdefaults, h⟩ := Option.bind_eq_some_iff.mp h
  dsimp only at h
  split_ifs at h with hsettings
  rw [← Option.some.inj h]
  exact ⟨⟨models, hmodels, rfl⟩, hdefaults⟩

theorem get_of_parse (h : parse K root = some c) (key : String) :
    c.models.get key =
      (Json.path (Json.path (some root) "models") key).bind (reference K) := by
  obtain ⟨⟨models, hmodels, hc⟩, -⟩ := parse_eq_some h
  rw [hc, Table.get_ofList, lookup_modelsOf hmodels]

theorem long_of_parse (h : parse M.toJackson root = some c) : c.Long where
  models key m hget := by
    rw [get_of_parse h] at hget
    obtain ⟨node, -, hnode⟩ := Option.bind_eq_some_iff.mp hget
    exact isLong_of_fromJson (reference_eq_some_some.mp hnode).2
  defaults := isLong_of_defaultsOf (parse_eq_some h).2

/-- The null references of the catalog are the null entries of the document. -/
theorem noNullEntry_iff (h : parse K root = some c) :
    NoNullEntry root ↔ ∀ key, c.models.get key ≠ some none := by
  refine forall_congr' fun key => not_congr ?_
  rw [get_of_parse h]
  cases Json.path (Json.path (some root) "models") key with
  | none => simp
  | some node => simp [reference_null_iff]

end Parse

section Snapshot
variable {M : Mapper} {c : PricingCatalog}

theorem toJsonSnapshot_isSome_iff :
    (toJsonSnapshot M c).isSome ↔ ∀ key, c.models.get key ≠ some none := by
  unfold toJsonSnapshot
  rw [Option.isSome_map, mapM_isSome]
  unfold modelEntry
  simp only [Option.isSome_map]
  constructor
  · intro h key hget
    have hrow := h _ ((c.models.get_eq_some_iff key none).mp hget)
    cases hrow
  · rintro h ⟨key, m⟩ hrow
    cases m with
    | some m => rfl
    | none => exact absurd ((c.models.get_eq_some_iff key none).mpr hrow) (h key)

private theorem get_modelMap {modelMap : Dict}
    (h : c.models.rows.mapM (modelEntry M) = some modelMap) :
    (modelMap.map Prod.fst).Nodup ∧
      ∀ key, Dict.get modelMap key = (c.models.get key).bind fun m => m.map (toMap M) := by
  have hkeys : c.models.rows.map Prod.fst = modelMap.map Prod.fst := by
    refine mapM_map h fun row _ entry hentry => ?_
    obtain ⟨node, -, rfl⟩ := Option.map_eq_some_iff.mp hentry
    rfl
  exact ⟨hkeys ▸ c.models.nodup, lookup_mapM h⟩

private theorem modelsOf_modelMap (hlong : c.Long) {modelMap : Dict}
    (h : c.models.rows.mapM (modelEntry M) = some modelMap) :
    ∃ models, modelsOf M.toJackson (some (.obj (M.entries modelMap))) = some models ∧
      ∀ key, (Table.ofList models).get key = c.models.get key := by
  obtain ⟨hkeys, hget⟩ := get_modelMap h
  have hread : ∀ key node, Dict.get modelMap key = some node →
      ∃ m, c.models.get key = some (some m) ∧ reference M.toJackson node = some (some m) := by
    intro key node hnode
    rw [hget] at hnode
    obtain ⟨m, hm, hmap⟩ := Option.bind_eq_some_iff.mp hnode
    obtain ⟨m, rfl, rfl⟩ := Option.map_eq_some_iff.mp hmap
    exact ⟨m, hm, reference_toMap (hlong.models key m hm)⟩
  have hsome : (modelsOf M.toJackson (some (.obj (M.entries modelMap)))).isSome := by
    refine mapM_isSome.mpr fun entry hentry => ?_
    have hmem := (M.entries_perm modelMap).mem_iff.mp hentry
    obtain ⟨m, -, hm⟩ := hread entry.1 entry.2 ((Table.lookup_eq_some_iff_mem hkeys _ _).mpr hmem)
    rw [hm]
    rfl
  obtain ⟨models, hmodels⟩ := Option.isSome_iff_exists.mp hsome
  refine ⟨models, hmodels, fun key => ?_⟩
  rw [Table.get_ofList, lookup_modelsOf hmodels, path_entries hkeys]
  cases hnode : Dict.get modelMap key with
  | some node =>
    obtain ⟨m, hm, hreference⟩ := hread key node hnode
    rw [hm]
    exact hreference
  | none =>
    rw [hget] at hnode
    cases hm : c.models.get key with
    | none => rfl
    | some m =>
      rw [hm] at hnode
      obtain rfl : m = none := Option.map_eq_none_iff.mp hnode
      have hrow : (key, none) ∈ c.models.rows := (c.models.get_eq_some_iff key none).mp hm
      have hall := mapM_isSome.mp (by rw [h]; rfl) _ hrow
      cases hall

private theorem parse_snapshot (hlong : c.Long) {snapshot : Json}
    (h : toJsonSnapshot M c = some snapshot) :
    ∃ c', parse M.toJackson snapshot = some c' ∧ c'.Same c := by
  obtain ⟨modelMap, hmap, rfl⟩ := Option.map_eq_some_iff.mp h
  obtain ⟨models, hmodels, hget⟩ := modelsOf_modelMap hlong hmap
  have hpath : ∀ key, Json.path (some (.obj (M.entries (snapshotMap M c modelMap)))) key =
      Dict.get (snapshotMap M c modelMap) key := path_entries (by simp [snapshotMap])
  have hdefaults : Pricing.PricingCatalog.defaultsOf M.toJackson (some (toMap M c.defaults)) =
      some c.defaults := fromJson_toMap hlong.defaults
  have hprefixes : (elements (some (.arr (c.prefixModels.map .str)))).map M.toJackson.asText =
      c.prefixModels := by
    show ((c.prefixModels.map Json.str).map M.toJackson.asText) = c.prefixModels
    rw [List.map_map]
    exact List.map_id c.prefixModels
  refine ⟨⟨Table.ofList models, c.defaults, c.prefixModels, c.cacheReadMultiplier, c.version⟩, ?_,
    hget, rfl, rfl, rfl, rfl⟩
  unfold parse
  simp only [hpath]
  simp [snapshotMap, Dict.get_cons, hmodels, hdefaults, hprefixes, versionOf, readsSetting,
    Jackson.asText, Jackson.asDouble]

/-- The document that `toJsonSnapshot` makes is read as a catalog with the same ids and prices. -/
def RoundTrips (M : Mapper) (c : PricingCatalog) : Prop :=
  ∃ snapshot c', toJsonSnapshot M c = some snapshot ∧ parse M.toJackson snapshot = some c' ∧
    (∀ model, c'.normalizeModelId model = c.normalizeModelId model) ∧
      ∀ e before, c'.calculateEventCostMicro e before = c.calculateEventCostMicro e before

end Snapshot

/-- The snapshot of a catalog that was read round trips exactly where the document of the catalog has
no null entry among its models. -/
theorem round_trips_iff (M : Mapper) {root : Json} {c : PricingCatalog}
    (h : parse M.toJackson root = some c) : RoundTrips M c ↔ NoNullEntry root := by
  rw [noNullEntry_iff h, ← toJsonSnapshot_isSome_iff (M := M)]
  constructor
  · rintro ⟨snapshot, c', hsnapshot, -⟩
    rw [hsnapshot]
    rfl
  · intro hsome
    obtain ⟨snapshot, hsnapshot⟩ := Option.isSome_iff_exists.mp hsome
    obtain ⟨c', hparse, hsame⟩ := parse_snapshot (long_of_parse h) hsnapshot
    exact ⟨snapshot, c', hsnapshot, hparse, hsame.normalizeModelId, hsame.calculateEventCostMicro⟩

/-- A mapper that reads no texts and keeps the entries of a map in their order. -/
def plain : Mapper where
  parseAsDouble _ default := default
  parseAsLong _ := 0
  toLong q := max (-(2 ^ 63)) (min (2 ^ 63 - 1) (if 0 ≤ q then ⌊q⌋ else ⌈q⌉))
  doubleText _ := "0.0"
  doubleText_zero := rfl
  parseAsLong_long _ := rfl
  toLong_long q := by
    unfold wrap64
    omega
  entries d := d
  entries_perm _ := .rfl

def tieredDocument : Json :=
  .obj [("models", .obj [("gpt-4o", .obj [("pricing_mode", .str "graduated"), ("input_per_m", .num 2),
    ("tiers", .arr [.obj [("up_to_tokens_m", .num 10)], .obj [("output_per_m", .num 1)]])])])]

theorem tiered_round_trips : ∃ c, parse plain.toJackson tieredDocument = some c ∧
    (RoundTrips plain c ↔ NoNullEntry tieredDocument) := by
  have hread : (parse plain.toJackson tieredDocument).isSome := by decide +kernel
  obtain ⟨c, hc⟩ := Option.isSome_iff_exists.mp hread
  exact ⟨c, hc, round_trips_iff plain hc⟩

/-- A document with a null entry is read, and its snapshot throws. -/
theorem not_round_trips : ¬ ∀ (M : Mapper) (root : Json) (c : PricingCatalog),
    parse M.toJackson root = some c → RoundTrips M c := by
  intro h
  have hread : (parse plain.toJackson (.obj [("models", .obj [("m", .null)])])).isSome := by
    decide +kernel
  obtain ⟨c, hc⟩ := Option.isSome_iff_exists.mp hread
  obtain ⟨snapshot, c', hsnapshot, -⟩ := h plain _ c hc
  have hnull := toJsonSnapshot_isSome_iff.mp (by rw [hsnapshot]; rfl)
  exact (noNullEntry_iff hc).mpr hnull "m" rfl

end PricingCatalog

/-! ### Catalogs without null references -/

section Checked
variable {K : Jackson} {root : Json} {j : Pricing.PricingCatalog}

private theorem entry_of_modelOf {entry : String × Json} {row : String × ModelPricing}
    (h : Pricing.PricingCatalog.modelOf K entry = some row) :
    ((reference K entry.2).map fun m => (entry.1, m)) = some (row.1, some row.2) := by
  unfold Pricing.PricingCatalog.modelOf at h
  split at h
  · cases h
  · rename_i hnode
    obtain ⟨m, hm, rfl⟩ := Option.map_eq_some_iff.mp h
    rw [reference_eq_some_some.mpr ⟨hnode, hm⟩]
    rfl

theorem modelsOf_of_checked {node : Option Json} {models : List (String × ModelPricing)}
    (h : Pricing.PricingCatalog.modelsOf K node = some models) :
    modelsOf K node = some (models.map fun row => (row.1, some row.2)) := by
  unfold Pricing.PricingCatalog.modelsOf at h
  split at h
  · unfold modelsOf
    rw [mapM_eq_some_iff] at h ⊢
    rw [List.forall₂_map_right_iff]
    exact h.imp fun _ _ => entry_of_modelOf
  · rename_i hnode
    rw [← Option.some.inj h]
    unfold modelsOf
    split
    · rename_i fields
      exact absurd rfl (hnode fields)
    · rfl

theorem lookup_some (models : List (String × ModelPricing)) (key : String) :
    (models.map fun row => (row.1, some row.2)).lookup key = (models.lookup key).map some := by
  induction models with
  | nil => rfl
  | cons row models ih =>
    rw [List.map_cons, List.lookup_cons, List.lookup_cons, ih]
    cases key == row.1 <;> rfl

/-- The catalog has the models of one without null references. -/
structure PricingCatalog.Checked (c : PricingCatalog) (j : Pricing.PricingCatalog) : Prop where
  models : ∀ key, c.models.get key = (j.models.get key).map some
  defaults : c.defaults = j.defaults
  prefixModels : c.prefixModels = j.prefixModels
  cacheReadMultiplier : c.cacheReadMultiplier = j.cacheReadMultiplier

theorem PricingCatalog.Checked.normalizeModelId {c : PricingCatalog} (h : c.Checked j)
    (model : Option String) : c.normalizeModelId model = j.normalizeModelId model := by
  unfold PricingCatalog.normalizeModelId Pricing.PricingCatalog.normalizeModelId
  cases model with
  | none => rfl
  | some model => simp only [h.models, h.prefixModels, Option.isSome_map]

theorem PricingCatalog.Checked.calculateEventCostMicro {c : PricingCatalog} (h : c.Checked j)
    (e : TokenEvent) (before : ℤ) :
    c.calculateEventCostMicro e before = some (j.calculateEventCostMicro e before) := by
  have hpricing : c.pricingOf e.modelId = some (j.pricingOf e.modelId) := by
    unfold PricingCatalog.pricingOf Pricing.PricingCatalog.pricingOf
    rw [h.normalizeModelId, h.models, h.defaults]
    cases j.models.get (j.normalizeModelId e.modelId) <;> rfl
  unfold PricingCatalog.calculateEventCostMicro
  rw [hpricing, h.cacheReadMultiplier]
  rfl

/-- A document that is read as a catalog without null references is read here with its models. -/
theorem parse_of_checked (h : Pricing.PricingCatalog.parse K root = some j) :
    ∃ c, PricingCatalog.parse K root = some c ∧ c.Checked j := by
  unfold Pricing.PricingCatalog.parse at h
  obtain ⟨models, hmodels, h⟩ := Option.bind_eq_some_iff.mp h
  obtain ⟨defaults, hdefaults, h⟩ := Option.bind_eq_some_iff.mp h
  unfold PricingCatalog.parse
  simp only [modelsOf_of_checked hmodels, hdefaults, Option.bind_eq_bind, Option.bind_some]
  dsimp only at h
  cases hscope : readsSetting ((Json.path (some root) "volume_scope").map K.asText)
      "customer_model" with
  | false =>
    rw [hscope] at h
    cases h
  | true =>
    cases hperiod : readsSetting ((Json.path (some root) "billing_period").map K.asText)
        "calendar_month" with
    | false =>
      rw [hscope, hperiod] at h
      cases h
    | true =>
      rw [hscope, hperiod] at h
      obtain rfl := Option.some.inj h
      refine ⟨_, rfl, fun key => ?_, rfl, rfl, rfl⟩
      show Table.get (Table.ofList _) key = (Table.get (Table.ofList _) key).map some
      rw [Table.get_ofList, Table.get_ofList, lookup_some]

end Checked

end FluxMeter.Pricing.Snapshot
