import FluxMeter.Collections.PartialMap
import FluxMeter.Pricing.CatalogDocument
import FluxMeter.Pricing.Charges

/-! One catalog document read by both languages: which documents that Python accepts Java reads, and
which of their entries both read as the same prices. -/
namespace FluxMeter.Pricing
open Collections FluxMeter.Keys FluxMeter.Model FluxMeter.Wire

variable {K : Jackson} {ofText : String → Option ℚ}

/-- The field with the price of a category. -/
def priceField : Category → String
  | .input => "input_per_m"
  | .output => "output_per_m"
  | .cacheRead => "input_per_m"
  | .reasoning => "output_per_m"
  | .cacheWrite => "input_per_m"
  | .embedding => "embedding_per_m"

/-- Both languages read the texts among the prices of the charged categories as the same numbers. -/
def TextsAlike (K : Jackson) (ofText : String → Option ℚ) (charged : Category → Prop)
    (entry : Json) : Prop :=
  ∀ node ∈ entry :: elements (Json.path (some entry) "tiers"), ∀ category, charged category →
    ∀ s, Json.path (some node) (priceField category) = some (.str s) →
      ofText s = some (K.parseAsDouble s 0)

/-- A mode that Java reads like Python: it is not null, a number or a boolean. -/
def modeReads : Option Json → Bool
  | none => true
  | some (.str _) => true
  | some (.arr _) => true
  | some (.obj _) => true
  | some _ => false

/-- A number that Python reads, Java reads as the same one. -/
theorem asDouble_same {value : Json} {default q : ℚ} (hq : Loader.pyFloat ofText value = some q)
    (htext : ∀ s, value = .str s → ofText s = some (K.parseAsDouble s default)) :
    K.asDouble value default = q := by
  cases value with
  | str s =>
    have hread : ofText s = some q := hq
    rw [htext s rfl] at hread
    exact Option.some.inj hread
  | num n => exact Option.some.inj hq
  | float x => exact Option.some.inj hq
  | bool b => exact Option.some.inj hq
  | null => cases hq
  | arr items => cases hq
  | obj fields => cases hq

theorem price_same {node : Dict} {field : String} {default q : ℚ}
    (hq : Loader.price ofText node field default = some q)
    (htext : ∀ s, Dict.get node field = some (.str s) → ofText s = some (K.parseAsDouble s 0)) :
    priceOf K (some (.obj node)) field default = q := by
  unfold Loader.price at hq
  unfold priceOf Json.path
  dsimp only
  cases hget : Dict.get node field with
  | none =>
    rw [hget] at hq
    exact Option.some.inj hq
  | some value =>
    rw [hget] at hq
    exact asDouble_same hq fun s hs => htext s (hs ▸ hget)

theorem elements_of_tiers {f : Json → Option Tier} (hf : ∀ s, f (.str s) = none)
    {value : Option Json} {raw : List Json} {tiers : List Tier}
    (hraw : Loader.listOrEmpty value = some raw) (htiers : raw.mapM f = some tiers) :
    elements value = raw := by
  unfold Loader.listOrEmpty at hraw
  cases value with
  | none => exact (Option.some.inj hraw)
  | some v =>
    dsimp only at hraw
    split_ifs at hraw with htruthy
    · have hfirst : ∀ s l, raw ≠ .str s :: l := by
        rintro s l rfl
        rw [List.mapM_cons, hf] at htiers
        cases htiers
      cases v with
      | arr items => exact Option.some.inj hraw
      | str s =>
        rw [← Option.some.inj hraw] at hfirst ⊢
        cases hs : s.toList with
        | nil => rfl
        | cons c cs => exact absurd (by rw [hs]; rfl) (hfirst (String.singleton c) _)
      | obj fields =>
        rw [← Option.some.inj hraw] at hfirst ⊢
        cases fields with
        | nil => rfl
        | cons p ps => exact absurd rfl (hfirst p.1 _)
      | null => cases hraw
      | bool b => cases hraw
      | num n => cases hraw
      | float q => cases hraw
    · rw [← Option.some.inj hraw]
      cases v with
      | arr items =>
        have hempty : items = [] := by simpa [Custody.truthy] using htruthy
        rw [hempty]
        rfl
      | _ => rfl

theorem fromString_blank {raw : String} (hraw : isBlank raw) (hasTiers : Bool) :
    PricingMode.fromString (some raw) hasTiers = some (if hasTiers then .volume else .flat) := by
  unfold PricingMode.fromString
  dsimp only
  rw [if_pos hraw]

private theorem fromString_named (hasTiers : Bool) :
    PricingMode.fromString (some "flat") hasTiers = some .flat ∧
      PricingMode.fromString (some "volume") hasTiers = some .volume ∧
      PricingMode.fromString (some "graduated") hasTiers = some .graduated := by
  cases hasTiers <;> decide

private theorem fromString_unknown (hasTiers : Bool) :
    ∀ raw ∈ ["null", "false", "0", "0.0"], PricingMode.fromString (some raw) hasTiers = none := by
  cases hasTiers <;> decide

theorem mode_same {value : Option Json} {hasTiers : Bool} {mode : PricingMode}
    (hmode : Loader.readMode value hasTiers = some mode) :
    PricingMode.fromString (value.map K.asText) hasTiers =
      if modeReads value then some mode else none := by
  unfold Loader.readMode at hmode
  cases value with
  | none => exact hmode
  | some v =>
    dsimp only at hmode
    rw [Option.map_some]
    obtain ⟨hflat, hvolume, hgraduated⟩ := fromString_named hasTiers
    by_cases htruthy : Custody.truthy v = true
    · rw [if_pos htruthy] at hmode
      cases v with
      | str s =>
        dsimp only at hmode
        unfold Loader.modeOf at hmode
        split at hmode
        · rw [← hmode]
          exact hflat
        · rw [← hmode]
          exact hvolume
        · rw [← hmode]
          exact hgraduated
        · cases hmode
      | null => cases hmode
      | bool b => cases hmode
      | num n => cases hmode
      | float q => cases hmode
      | arr items => cases hmode
      | obj fields => cases hmode
    · rw [if_neg htruthy] at hmode
      rw [← hmode]
      have hblank : isBlank "" = true := by decide
      have hunknown := fromString_unknown hasTiers
      cases v with
      | str s =>
        have hs : s = "" := by simpa [Custody.truthy] using htruthy
        rw [hs]
        exact fromString_blank hblank hasTiers
      | arr items => exact fromString_blank hblank hasTiers
      | obj fields => exact fromString_blank hblank hasTiers
      | null => exact hunknown "null" (by decide)
      | bool b =>
        have hb : b = false := by simpa [Custody.truthy] using htruthy
        rw [hb]
        exact hunknown "false" (by decide)
      | num n =>
        have hn : n = 0 := by simpa [Custody.truthy] using htruthy
        rw [hn]
        exact hunknown "0" (by decide)
      | float q =>
        have hq : q = 0 := by simpa [Custody.truthy] using htruthy
        have htext : K.asText (.float q) = "0.0" := by
          rw [hq]
          exact K.doubleText_zero
        rw [htext]
        exact hunknown "0.0" (by decide)

theorem fromJson_eq_some {entry : Json} {p : Loader.ModelPricing}
    (h : Loader.fromJson ofText entry = some p) : ∃ node raw, entry = .obj node ∧
      Loader.price ofText node "input_per_m" 1 = some p.inputPerM ∧
      Loader.price ofText node "output_per_m" 3 = some p.outputPerM ∧
      Loader.price ofText node "embedding_per_m" (1 / 10) = some p.embeddingPerM ∧
      Loader.listOrEmpty (Dict.get node "tiers") = some raw ∧
      raw.mapM (Loader.readTier ofText p.inputPerM p.outputPerM p.embeddingPerM) = some p.tiers ∧
      Loader.readMode (Dict.get node "pricing_mode") (!p.tiers.isEmpty) = some p.pricingMode := by
  unfold Loader.fromJson at h
  cases entry with
  | obj node =>
    simp only [Option.bind_eq_bind, Option.bind_eq_some_iff] at h
    obtain ⟨input, hinput, output, houtput, embedding, hembedding, raw, hraw, tiers, htiers, mode,
      hmode, hbuild⟩ := h
    split_ifs at hbuild with hvalid
    cases hbuild
    exact ⟨node, raw, rfl, hinput, houtput, hembedding, hraw, htiers, hmode⟩
  | null => cases h
  | bool b => cases h
  | num n => cases h
  | float q => cases h
  | str s => cases h
  | arr items => cases h

private theorem readTier_str (input output embedding : ℚ) (s : String) :
    Loader.readTier ofText input output embedding (.str s) = none := rfl

/-- A price of a node that both read alike, with defaults that are alike. -/
private theorem prices_same (base base' tier : Tier) {node : Dict} {category : Category}
    (hinput : Loader.price ofText node "input_per_m" base.inputPerM = some tier.inputPerM)
    (houtput : Loader.price ofText node "output_per_m" base.outputPerM = some tier.outputPerM)
    (hembedding : Loader.price ofText node "embedding_per_m" base.embeddingPerM =
      some tier.embeddingPerM)
    (hbase : base'.price category = base.price category)
    (htext : ∀ s, Dict.get node (priceField category) = some (.str s) →
      ofText s = some (K.parseAsDouble s 0)) (upTo : Option ℤ) :
    Tier.price ⟨upTo, priceOf K (some (.obj node)) "input_per_m" base'.inputPerM,
      priceOf K (some (.obj node)) "output_per_m" base'.outputPerM,
      priceOf K (some (.obj node)) "embedding_per_m" base'.embeddingPerM⟩ category =
        tier.price category := by
  cases category <;> simp only [Tier.price] at hbase ⊢ <;> rw [hbase]
  case input => exact price_same hinput htext
  case output => exact price_same houtput htext
  case cacheRead => exact price_same hinput htext
  case reasoning => exact price_same houtput htext
  case cacheWrite => exact price_same hinput htext
  case embedding => exact price_same hembedding htext

private theorem tier_same {charged : Category → Prop} {base base' tier : Tier} {node : Json}
    (htier : Loader.readTier ofText base.inputPerM base.outputPerM base.embeddingPerM node =
      some tier)
    (hbase : ∀ category, charged category → base'.price category = base.price category)
    (htext : ∀ category, charged category → ∀ s,
      Json.path (some node) (priceField category) = some (.str s) →
        ofText s = some (K.parseAsDouble s 0)) :
    SameTier charged
      (Tier.fromJson K base'.inputPerM base'.outputPerM base'.embeddingPerM node) tier.inLong := by
  cases node with
  | obj t =>
    simp only [Loader.readTier, Option.bind_eq_bind, Option.bind_eq_some_iff] at htier
    obtain ⟨upTo, hupTo, tierInput, hinput, tierOutput, houtput, tierEmbedding, hembedding,
      hbuild⟩ := htier
    split_ifs at hbuild with hnonneg
    cases hbuild
    refine ⟨?_, fun category hcharged => ?_⟩
    · unfold Tier.fromJson Tier.inLong
      dsimp only
      have hpath : Json.path (some (.obj t)) "up_to_tokens_m" = Dict.get t "up_to_tokens_m" := rfl
      rw [hpath]
      cases hget : Dict.get t "up_to_tokens_m" with
      | none =>
        rw [hget] at hupTo
        rw [← Option.some.inj hupTo]
        rfl
      | some value =>
        rw [hget] at hupTo
        cases value with
        | null =>
          rw [← Option.some.inj hupTo]
          rfl
        | num n =>
          rw [← Option.some.inj hupTo]
          rfl
        | bool b => cases hupTo
        | float q => cases hupTo
        | str s => cases hupTo
        | arr items => cases hupTo
        | obj fields => cases hupTo
    · exact prices_same base base' (Tier.inLong ⟨upTo, tierInput, tierOutput, tierEmbedding⟩) hinput
        houtput hembedding (hbase category hcharged) (htext category hcharged) _
  | null => cases htier
  | bool b => cases htier
  | num n => cases htier
  | float q => cases htier
  | str s => cases htier
  | arr items => cases htier

private theorem tiers_same (base base' : Tier) {charged : Category → Prop} {raw : List Json}
    {tiers : List Tier}
    (htiers : List.Forall₂ (fun node tier =>
      Loader.readTier ofText base.inputPerM base.outputPerM base.embeddingPerM node = some tier)
        raw tiers)
    (hbase : ∀ category, charged category → base'.price category = base.price category)
    (htext : ∀ node ∈ raw, ∀ category, charged category → ∀ s,
      Json.path (some node) (priceField category) = some (.str s) →
        ofText s = some (K.parseAsDouble s 0)) :
    List.Forall₂ (SameTier charged)
      (raw.map (Tier.fromJson K base'.inputPerM base'.outputPerM base'.embeddingPerM))
      (tiers.map Tier.inLong) := by
  induction htiers with
  | nil => exact .nil
  | cons htier _ ih =>
    exact .cons (tier_same htier hbase (htext _ List.mem_cons_self))
      (ih fun node hnode => htext node (List.mem_cons_of_mem _ hnode))

/-- Java reads an entry that Python accepts when it reads its mode, and with the same prices of the
categories for which it reads the texts alike. -/
theorem entry_same {entry : Json} {p : Loader.ModelPricing}
    (h : Loader.fromJson ofText entry = some p) :
    (modeReads (Json.path (some entry) "pricing_mode") = false →
      ModelPricing.fromJson K entry = none) ∧
    (modeReads (Json.path (some entry) "pricing_mode") = true →
      ∃ m, ModelPricing.fromJson K entry = some m ∧
        ∀ charged, TextsAlike K ofText charged entry → SamePrices charged m (.ofLoader p)) := by
  obtain ⟨node, raw, rfl, hinput, houtput, hembedding, hraw, htiers, hmode⟩ := fromJson_eq_some h
  have helements : elements (Json.path (some (.obj node)) "tiers") = raw :=
    elements_of_tiers (readTier_str _ _ _) hraw htiers
  have hread := mapM_eq_some_iff.mp htiers
  have hmodeJava := mode_same (K := K) hmode
  have hpath : Json.path (some (.obj node)) "pricing_mode" = Dict.get node "pricing_mode" := rfl
  rw [hpath]
  -- the tiers that Java reads are as many as those of Python
  have hempty : ∀ f : Json → Tier, (raw.map f).isEmpty = p.tiers.isEmpty := by
    intro f
    rw [Bool.eq_iff_iff, List.isEmpty_iff_length_eq_zero, List.isEmpty_iff_length_eq_zero,
      List.length_map, hread.length_eq]
  unfold ModelPricing.fromJson
  dsimp only
  rw [helements, hpath, hempty, hmodeJava]
  constructor
  · intro hreads
    rw [hreads]
    rfl
  · intro hreads
    rw [if_pos hreads, Option.bind_some]
    have hflat : ∀ f : Json → Tier, p.pricingMode = .flat ↔ raw.map f = [] := by
      intro f
      rw [p.tiered, ← List.isEmpty_iff, ← List.isEmpty_iff, hempty]
    rw [dif_pos (hflat _)]
    refine ⟨_, rfl, fun charged htexts => ?_⟩
    -- the defaults of the prices of the entry are those of both languages
    have hbase : ∀ category, charged category →
        Tier.price ⟨none, priceOf K (some (.obj node)) "input_per_m" 1,
          priceOf K (some (.obj node)) "output_per_m" 3,
          priceOf K (some (.obj node)) "embedding_per_m" (1 / 10)⟩ category =
            p.flatTier.price category := fun category hcharged =>
      prices_same ⟨none, 1, 3, 1 / 10⟩ ⟨none, 1, 3, 1 / 10⟩ p.flatTier hinput houtput hembedding rfl
        (htexts (.obj node) List.mem_cons_self category hcharged) none
    refine ⟨rfl, ⟨rfl, hbase⟩, tiers_same p.flatTier ⟨none, _, _, _⟩ hread hbase fun t ht => ?_⟩
    exact htexts t (List.mem_cons_of_mem _ (helements.symm ▸ ht))

/-- The parts of a document that Python accepts. -/
structure Accepted (ofText : String → Option ℚ) (root : Dict) (c : Loader.PricingCatalog) : Prop where
  defaults : ∃ fields, root.get "defaults" = some (.obj fields) ∧
    Loader.fromJson ofText (.obj fields) = some c.defaults
  models : ∃ fields, root.get "models" = some (.obj fields) ∧
    fields.mapM (fun p => (Loader.fromJson ofText p.2).map fun m => (p.1, m)) = some c.models
  multiplier : Loader.price ofText root "cache_read_multiplier" (1 / 2) = some c.cacheReadMultiplier
  multiplier_nonneg : 0 ≤ c.cacheReadMultiplier
  volumeScope : Loader.isSetting (root.get "volume_scope") "customer_model"
  billingPeriod : Loader.isSetting (root.get "billing_period") "calendar_month"

theorem accepted_of_ofRoot {root : Dict} {c : Loader.PricingCatalog}
    (h : Loader.PricingCatalog.ofRoot ofText root = some c) : Accepted ofText root c := by
  unfold Loader.PricingCatalog.ofRoot at h
  split at h
  · rename_i models defaults hmodels hdefaults
    cases hscope : Loader.isSetting (root.get "volume_scope") "customer_model" with
    | false => simp [hscope] at h
    | true =>
      cases hperiod : Loader.isSetting (root.get "billing_period") "calendar_month" with
      | false => simp [hscope, hperiod] at h
      | true =>
        simp only [hscope, hperiod, Bool.not_true, Bool.false_eq_true, if_false,
          Option.bind_eq_bind, Option.bind_eq_some_iff] at h
        obtain ⟨multiplier, hmultiplier, h⟩ := h
        split_ifs at h with hneg
        · cases h
        · simp only [Option.bind_eq_some_iff] at h
          obtain ⟨d, hd, ms, hms, prefixes, -, hbuild⟩ := h
          cases hbuild
          exact ⟨⟨defaults, hdefaults, hd⟩, ⟨models, hmodels, hms⟩, hmultiplier, not_lt.mp hneg,
            hscope, hperiod⟩
  · cases h

/-- The entry that prices a model id. -/
def modelEntry (root : Dict) (key : String) : Option Json :=
  (match root.get "models" with
    | some (.obj fields) => fields.lookup key
    | _ => none).or (root.get "defaults")

def entries (root : Dict) : List Json :=
  (match root.get "models" with
    | some (.obj fields) => fields.map Prod.snd
    | _ => []) ++ (root.get "defaults").toList

/-- Java reads the mode of every entry. -/
def ModesRead (root : Dict) : Prop :=
  ∀ entry ∈ entries root, modeReads (Json.path (some entry) "pricing_mode") = true

section Documents
variable {root : Dict} {c : Loader.PricingCatalog} {j : PricingCatalog}

theorem setting_same {value : Option Json} {only : String} (h : Loader.isSetting value only) :
    readsSetting (value.map K.asText) only = true := by
  unfold Loader.isSetting at h
  unfold readsSetting
  cases value with
  | none => rfl
  | some v =>
    cases v with
    | str s =>
      have hs : s = only := by simpa using h
      rw [hs]
      simp [Jackson.asText]
    | null => cases h
    | bool b => cases h
    | num n => cases h
    | float q => cases h
    | arr items => cases h
    | obj fields => cases h

/-- The entry of a model id is read as the prices that Python looks up. -/
theorem python_entry (h : Accepted ofText root c) (key : String) :
    ∃ entry ∈ entries root, modelEntry root key = some entry ∧
      Loader.fromJson ofText entry = some ((c.models.lookup key).getD c.defaults) := by
  obtain ⟨defaults, hdefaults, hread⟩ := h.defaults
  obtain ⟨models, hmodels, hall⟩ := h.models
  unfold modelEntry entries
  rw [hmodels, hdefaults, lookup_mapM hall key]
  dsimp only
  cases hkey : models.lookup key with
  | none => exact ⟨.obj defaults, by simp, rfl, hread⟩
  | some entry =>
    have hmem : entry ∈ models.map Prod.snd := List.mem_map.mpr ⟨(key, entry), Dict.mem_of_get hkey, rfl⟩
    have hsome : ((models.mapM fun p =>
        (Loader.fromJson ofText p.2).map fun m => (p.1, m))).isSome := by rw [hall]; rfl
    have hentry := mapM_isSome.mp hsome (key, entry) (Dict.mem_of_get hkey)
    dsimp only at hentry
    rw [Option.isSome_map] at hentry
    obtain ⟨p, hp⟩ := Option.isSome_iff_exists.mp hentry
    refine ⟨entry, by simp [hmem], rfl, ?_⟩
    rw [Option.bind_some, hp]
    rfl

theorem entry_obj {entry : Json} {p : Loader.ModelPricing}
    (h : Loader.fromJson ofText entry = some p) : ∃ node, entry = .obj node := by
  obtain ⟨node, -, hnode, -⟩ := fromJson_eq_some h
  exact ⟨node, hnode⟩

private theorem entries_accepted (h : Accepted ofText root c) :
    ∀ entry ∈ entries root, ∃ p, Loader.fromJson ofText entry = some p := by
  obtain ⟨defaults, hdefaults, hread⟩ := h.defaults
  obtain ⟨models, hmodels, hall⟩ := h.models
  have hsome : ((models.mapM fun p =>
      (Loader.fromJson ofText p.2).map fun m => (p.1, m))).isSome := by rw [hall]; rfl
  intro entry hentry
  unfold entries at hentry
  rw [hmodels, hdefaults] at hentry
  rcases List.mem_append.mp hentry with hmem | hmem
  · obtain ⟨row, hrow, rfl⟩ := List.mem_map.mp hmem
    have hone := mapM_isSome.mp hsome row hrow
    rw [Option.isSome_map] at hone
    exact Option.isSome_iff_exists.mp hone
  · rw [Option.toList_some, List.mem_singleton] at hmem
    exact ⟨c.defaults, hmem ▸ hread⟩

/-- Java reads an entry exactly when it reads the mode of it. -/
theorem entry_read_iff (h : Accepted ofText root c) {entry : Json} (hentry : entry ∈ entries root) :
    (ModelPricing.fromJson K entry).isSome ↔
      modeReads (Json.path (some entry) "pricing_mode") = true := by
  obtain ⟨p, hp⟩ := entries_accepted h entry hentry
  obtain ⟨hrefuses, hreads⟩ := entry_same (K := K) hp
  cases hmode : modeReads (Json.path (some entry) "pricing_mode") with
  | false => simp [hrefuses hmode]
  | true =>
    obtain ⟨m, hm, -⟩ := hreads hmode
    simp [hm]

/-- What Java makes of a document that Python accepts. -/
theorem parse_eq (h : Accepted ofText root c) : ∃ models defaults,
    root.get "models" = some (.obj models) ∧ root.get "defaults" = some defaults ∧
    PricingCatalog.parse K (.obj root) =
      (models.mapM fun p => (ModelPricing.fromJson K p.2).map fun m => (p.1, m)).bind fun ms =>
        (ModelPricing.fromJson K defaults).map fun d =>
          ⟨Table.ofList ms, d, (elements (root.get "prefix_models")).map K.asText,
            match root.get "cache_read_multiplier" with
            | some value => K.asDouble value (1 / 2)
            | none => 1 / 2⟩ := by
  obtain ⟨defaults, hdefaults, hread⟩ := h.defaults
  obtain ⟨models, hmodels, hall⟩ := h.models
  refine ⟨models, .obj defaults, hmodels, hdefaults, ?_⟩
  have hsome : ((models.mapM fun p =>
      (Loader.fromJson ofText p.2).map fun m => (p.1, m))).isSome := by rw [hall]; rfl
  have hentry : ∀ p ∈ models, PricingCatalog.modelOf K p =
      (ModelPricing.fromJson K p.2).map fun m => (p.1, m) := by
    intro p hp
    have hone := mapM_isSome.mp hsome p hp
    rw [Option.isSome_map] at hone
    obtain ⟨q, hq⟩ := Option.isSome_iff_exists.mp hone
    obtain ⟨node, hnode⟩ := entry_obj hq
    unfold PricingCatalog.modelOf
    rw [hnode]
  have hmapM : models.mapM (PricingCatalog.modelOf K) =
      models.mapM fun p => (ModelPricing.fromJson K p.2).map fun m => (p.1, m) := by
    clear hall hsome hmodels
    induction models with
    | nil => rfl
    | cons p models ih =>
      obtain ⟨hfirst, hrest⟩ := List.forall_mem_cons.mp hentry
      rw [List.mapM_cons, List.mapM_cons, hfirst, ih hrest]
  have hpath : ∀ field, Json.path (some (.obj root)) field = Dict.get root field := fun _ => rfl
  have hmodelsOf : PricingCatalog.modelsOf K (some (.obj models)) =
      models.mapM (PricingCatalog.modelOf K) := rfl
  have hdefaultsOf : PricingCatalog.defaultsOf K (some (.obj defaults)) =
      ModelPricing.fromJson K (.obj defaults) := rfl
  unfold PricingCatalog.parse
  simp only [hpath, hmodels, hdefaults, hmodelsOf, hmapM, hdefaultsOf,
    setting_same (K := K) h.volumeScope, setting_same (K := K) h.billingPeriod, Bool.not_true,
    Bool.false_eq_true, if_false, Option.bind_eq_bind]
  congr 1
  funext ms
  cases ModelPricing.fromJson K (.obj defaults) <;> rfl

/-- Java reads a document that Python accepts when it reads the mode of every entry. -/
theorem parse_isSome_iff (h : Accepted ofText root c) :
    (PricingCatalog.parse K (.obj root)).isSome ↔ ModesRead root := by
  obtain ⟨models, defaults, hmodels, hdefaults, hparse⟩ := parse_eq (K := K) h
  have hentries : entries root = models.map Prod.snd ++ [defaults] := by
    unfold entries
    rw [hmodels, hdefaults]
    rfl
  have hall : ModesRead root ↔ (∀ entry ∈ entries root, (ModelPricing.fromJson K entry).isSome) := by
    constructor
    · intro hmodes entry hentry
      exact (entry_read_iff h hentry).mpr (hmodes entry hentry)
    · intro hreads entry hentry
      exact (entry_read_iff h hentry).mp (hreads entry hentry)
  have hmapM := mapM_isSome (l := models) (f := fun p =>
    (ModelPricing.fromJson K p.2).map fun m => (p.1, m))
  simp only [Option.isSome_map] at hmapM
  rw [hall, hentries, hparse, List.forall_mem_append, List.forall_mem_map, List.forall_mem_singleton,
    ← hmapM]
  cases (models.mapM fun p => (ModelPricing.fromJson K p.2).map fun m => (p.1, m)) with
  | none => simp
  | some ms => simp

/-- The entry of a model id is read as the prices that Java looks up. -/
theorem java_entry (h : Accepted ofText root c) (hj : PricingCatalog.parse K (.obj root) = some j)
    (key : String) : ∃ entry, modelEntry root key = some entry ∧
      ModelPricing.fromJson K entry = some ((j.models.get key).getD j.defaults) := by
  obtain ⟨models, defaults, hmodels, hdefaults, hparse⟩ := parse_eq (K := K) h
  rw [hj] at hparse
  obtain ⟨ms, hms, hbuild⟩ := Option.bind_eq_some_iff.mp hparse.symm
  obtain ⟨d, hd, rfl⟩ := Option.map_eq_some_iff.mp hbuild
  unfold modelEntry
  rw [hmodels, hdefaults]
  dsimp only
  rw [Table.get_ofList, lookup_mapM hms key]
  cases hkey : models.lookup key with
  | none => exact ⟨defaults, rfl, hd⟩
  | some entry =>
    have hsome : ((models.mapM fun p =>
        (ModelPricing.fromJson K p.2).map fun m => (p.1, m))).isSome := by rw [hms]; rfl
    have hone := mapM_isSome.mp hsome (key, entry) (Dict.mem_of_get hkey)
    dsimp only at hone
    rw [Option.isSome_map] at hone
    obtain ⟨m, hm⟩ := Option.isSome_iff_exists.mp hone
    refine ⟨entry, rfl, ?_⟩
    rw [Option.bind_some, hm]
    rfl

theorem multiplier_same (h : Accepted ofText root c)
    (hj : PricingCatalog.parse K (.obj root) = some j)
    (htext : ∀ s, root.get "cache_read_multiplier" = some (.str s) →
      ofText s = some (K.parseAsDouble s (1 / 2))) : j.cacheReadMultiplier = c.cacheReadMultiplier := by
  obtain ⟨models, defaults, -, -, hparse⟩ := parse_eq (K := K) h
  rw [hj] at hparse
  obtain ⟨ms, -, hbuild⟩ := Option.bind_eq_some_iff.mp hparse.symm
  obtain ⟨d, -, rfl⟩ := Option.map_eq_some_iff.mp hbuild
  dsimp only
  have hmultiplier := h.multiplier
  unfold Loader.price at hmultiplier
  cases hget : Dict.get root "cache_read_multiplier" with
  | none =>
    rw [hget] at hmultiplier
    exact Option.some.inj hmultiplier
  | some value =>
    rw [hget] at hmultiplier
    exact asDouble_same hmultiplier fun s hs => htext s (hs ▸ hget)

/-- With an array of texts as prefixes, both languages find the same model id. -/
theorem normalize_same (h : Accepted ofText root c)
    (hj : PricingCatalog.parse K (.obj root) = some j)
    (hprefixes : elements (root.get "prefix_models") = c.prefixModels)
    (htexts : ∀ x ∈ c.prefixModels, ∃ s, x = .str s) (model : Option String) :
    c.normalizeModelId model = some (j.normalizeModelId model) := by
  obtain ⟨models, defaults, hmodels, -, hparse⟩ := parse_eq (K := K) h
  rw [hj] at hparse
  obtain ⟨ms, hms, hbuild⟩ := Option.bind_eq_some_iff.mp hparse.symm
  obtain ⟨d, -, rfl⟩ := Option.map_eq_some_iff.mp hbuild
  obtain ⟨fields, hfields, hall⟩ := h.models
  have hsame : fields = models := by
    rw [hfields] at hmodels
    cases hmodels
    rfl
  subst hsame
  -- the same ids have an entry
  have hkeys : ∀ {β : Type} {f : Json → Option β} {l' : List (String × β)},
      fields.mapM (fun p => (f p.2).map fun y => (p.1, y)) = some l' →
      ∀ k, (l'.lookup k).isSome = (fields.lookup k).isSome := by
    intro β f l' hl k
    rw [lookup_mapM hl k]
    cases hk : fields.lookup k with
    | none => rfl
    | some entry =>
      have hsome : ((fields.mapM fun p => (f p.2).map fun y => (p.1, y))).isSome := by rw [hl]; rfl
      have hone := mapM_isSome.mp hsome (k, entry) (Dict.mem_of_get hk)
      dsimp only at hone
      rw [Option.isSome_map] at hone
      rw [Option.bind_some, hone]
      rfl
  unfold Loader.PricingCatalog.normalizeModelId PricingCatalog.normalizeModelId
  cases model with
  | none => rfl
  | some model =>
    dsimp only
    split_ifs with hempty hpython hjava hjava
    · rfl
    · rfl
    · rw [Table.get_ofList, hkeys hms] at hjava
      rw [hkeys hall] at hpython
      exact absurd hpython hjava
    · rw [Table.get_ofList, hkeys hms] at hjava
      rw [hkeys hall] at hpython
      exact absurd hjava hpython
    · rw [hprefixes]
      clear hprefixes hparse hbuild hj
      generalize c.prefixModels = prefixes at htexts
      induction prefixes with
      | nil => rfl
      | cons x rest ih =>
        obtain ⟨hfirst, hrest⟩ := List.forall_mem_cons.mp htexts
        obtain ⟨p, rfl⟩ := hfirst
        rw [List.map_cons, List.find?_cons]
        unfold Loader.PricingCatalog.scanPrefixes
        have htext : K.asText (.str p) = p := rfl
        rw [htext]
        cases p.toList.isPrefixOf model.toList with
        | true => rfl
        | false => exact ih hrest

end Documents

end FluxMeter.Pricing
