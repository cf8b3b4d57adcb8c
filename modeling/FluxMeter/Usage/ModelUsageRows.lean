import FluxMeter.Usage.PeriodReaders

/-! The rows that re-rating works on: `iter_model_usage_rows` of `usage_query.py`, which scans the
keys of a tenant and the legacy keys and reads the customer off the parts of a key. -/
namespace FluxMeter.Usage
open FluxMeter.Budget FluxMeter.Keys FluxMeter.Model Collections Collections.Glob

structure ModelUsageRow where
  customerId : String
  modelKey : String
  customerPrefix : String
  inputTokens : ℤ
  outputTokens : ℤ
  tenantScoped : Bool
  deriving DecidableEq

structure ParsedKey where
  customerId : String
  modelKey : String
  customerPrefix : String
  deriving DecidableEq

/-- `_parse_model_input_key`. -/
def parseModelInputKey (key modelId : String) : Option ParsedKey :=
  let parts := colonParts key
  if 6 ≤ parts.length ∧ parts.getD 0 "" = "tenant" ∧ parts.getD 2 "" = "customer" then
    let cid := parts.getD 3 ""
    let custPrefix := "tenant:" ++ parts.getD 1 "" ++ ":customer:" ++ cid
    some ⟨cid, custPrefix ++ ":model:" ++ modelId, custPrefix⟩
  else if 4 ≤ parts.length ∧ parts.getD 0 "" = "customer" then
    let cid := parts.getD 1 ""
    let custPrefix := "customer:" ++ cid
    some ⟨cid, custPrefix ++ ":model:" ++ modelId, custPrefix⟩
  else none

def tenantModelPattern (tenantId modelId : String) : String :=
  "tenant:" ++ tenantId ++ ":customer:" ++ "*" ++ (":model:" ++ modelId ++ ":input_tokens")

def legacyModelPattern (modelId : String) : String :=
  "customer:" ++ "*" ++ (":model:" ++ modelId ++ ":input_tokens")

/-- The entry that the loop makes of a key. -/
def modelUsageRow (s : Keyspace) (modelId : String) (isTenantPattern : Bool) (key : String) :
    Option (String × ModelUsageRow) :=
  (parseModelInputKey key modelId).map fun parsed =>
    (parsed.customerId,
      { customerId := parsed.customerId
        modelKey := parsed.modelKey
        customerPrefix := parsed.customerPrefix
        inputTokens := integer (s.usage.ints (parsed.modelKey ++ ":input_tokens"))
        outputTokens := integer (s.usage.ints (parsed.modelKey ++ ":output_tokens"))
        tenantScoped := isTenantPattern })

/-- `iter_model_usage_rows`, by customer; the arguments are what the two scans return. The first one
is made where there is a tenant. -/
def iterModelUsageRows (s : Keyspace) (tenantId : Option String) (modelId : String)
    (tenantKeys legacyKeys : List String) : Table String ModelUsageRow :=
  let byCid : Table String ModelUsageRow :=
    if Py.hasTenant tenantId then .gather (modelUsageRow s modelId true) tenantKeys else .empty
  byCid.complete (modelUsageRow s modelId false) legacyKeys

/-! ### The keys of customers -/

/-- A key of the customers of a tenant, or of the customers without one. -/
def familyKey (scope : Option String) (rest : String) : String :=
  match scope with
  | some t => "tenant:" ++ t ++ ":customer:" ++ rest
  | none => "customer:" ++ rest

/-- The tenant that a key is written under. -/
def scopeOf (tenantId : Option String) : Option String := tenantId.filter fun t => hasTenant (some t)

theorem customerPrefix_eq (tenantId : Option String) (c : String) :
    customerPrefix tenantId c = familyKey (scopeOf tenantId) c := by
  unfold customerPrefix inTenant familyKey scopeOf
  cases tenantId with
  | none => rfl
  | some t =>
    dsimp only
    rw [Option.filter_some]
    by_cases ht : hasTenant (some t) = true
    · rw [if_pos ht, if_pos (by simpa using ht)]
      have hword : ":customer:" = ":" ++ "customer:" := rfl
      rw [hword]
      simp only [String.append_assoc]
    · rw [if_neg ht, if_neg (by simpa using ht)]

theorem familyKey_append (scope : Option String) (rest tail : String) :
    familyKey scope rest ++ tail = familyKey scope (rest ++ tail) := by
  unfold familyKey
  cases scope <;> simp only [String.append_assoc]

theorem headOf_familyKey (scope : Option String) (rest : String) :
    headOf (familyKey scope rest) = if scope.isSome then some 't' else some 'c' := by
  have ht : headOf "tenant:" = some 't' := rfl
  have hc : headOf "customer:" = some 'c' := rfl
  unfold familyKey
  cases scope <;> simp [ht, hc]

/-- Without a colon in the tenants, the keys of families are told apart. -/
theorem familyKey_inj {scope scope' : Option String} (hscope : ∀ t ∈ scope, NoColon t)
    (hscope' : ∀ t ∈ scope', NoColon t) {rest rest' : String}
    (h : familyKey scope rest = familyKey scope' rest') : scope = scope' ∧ rest = rest' := by
  have hheads := congrArg headOf h
  rw [headOf_familyKey, headOf_familyKey] at hheads
  cases scope with
  | none =>
    cases scope' with
    | none => exact ⟨rfl, (String.append_right_inj "customer:").mp h⟩
    | some t' => simp at hheads
  | some t =>
    cases scope' with
    | none => simp at hheads
    | some t' =>
      have hsplit : ∀ t rest, familyKey (some t) rest =
          "tenant:" ++ (t ++ ":" ++ ("customer:" ++ rest)) := by
        intro t rest
        unfold familyKey
        apply String.ext
        simp [String.toList_append]
      rw [hsplit, hsplit] at h
      obtain ⟨rfl, hrest⟩ := first_part (hscope t rfl) (hscope' t' rfl)
        ((String.append_right_inj _).mp h)
      exact ⟨rfl, (String.append_right_inj _).mp hrest⟩

/-- A key of another kind is none of a customer. -/
theorem bareKey_ne_familyKey {scope : Option String} {rest : String} {letter : Char}
    (hrest : headOf rest = some letter) (hletter : letter ≠ 'c' ∧ letter ≠ 't') (x : String) :
    rest ≠ familyKey scope x := by
  intro h
  have hheads := congrArg headOf h
  rw [headOf_familyKey, hrest] at hheads
  split_ifs at hheads
  · exact hletter.2 (Option.some.inj hheads)
  · exact hletter.1 (Option.some.inj hheads)

theorem tenantKey_ne_familyKey {t : String} (ht : NoColon t) {scope : Option String}
    (hscope : ∀ t ∈ scope, NoColon t) {rest : String} {letter : Char}
    (hrest : headOf rest = some letter) (hletter : letter ≠ 'c') (x : String) :
    "tenant:" ++ t ++ ":" ++ rest ≠ familyKey scope x := by
  intro h
  cases scope with
  | none =>
    have hword : headOf "tenant:" = some 't' := rfl
    have hheads := congrArg headOf h
    rw [headOf_familyKey] at hheads
    simp [hword] at hheads
  | some t' =>
    have hfamily : familyKey (some t') x = "tenant:" ++ (t' ++ ":" ++ ("customer:" ++ x)) := by
      unfold familyKey
      apply String.ext
      simp [String.toList_append]
    have hkey : "tenant:" ++ t ++ ":" ++ rest = "tenant:" ++ (t ++ ":" ++ rest) := by
      simp only [String.append_assoc]
    rw [hfamily, hkey] at h
    have htail := (first_part ht (hscope t' rfl) ((String.append_right_inj _).mp h)).2
    have hfirst := congrArg headOf htail
    rw [hrest, headOf_append] at hfirst
    exact hletter (Option.some.inj hfirst)

def modelCounterKey (scope : Option String) (c m word : String) : String :=
  familyKey scope (c ++ ":model:" ++ m) ++ ":" ++ word

theorem modelCounterKey_inj {scope scope' : Option String} (hscope : ∀ t ∈ scope, NoColon t)
    (hscope' : ∀ t ∈ scope', NoColon t) {c c' m m' word word' : String} (hc : NoColon c)
    (hc' : NoColon c') (hword : NoColon word) (hword' : NoColon word')
    (h : modelCounterKey scope c m word = modelCounterKey scope' c' m' word') :
    scope = scope' ∧ c = c' ∧ m = m' ∧ word = word' := by
  obtain ⟨hfamily, rfl⟩ := last_part hword hword' h
  obtain ⟨rfl, hrest⟩ := familyKey_inj hscope hscope' hfamily
  have hsplit : ∀ c m : String, c ++ ":model:" ++ m = c ++ ":" ++ ("model:" ++ m) := by
    intro c m
    apply String.ext
    simp [String.toList_append]
  rw [hsplit, hsplit] at hrest
  obtain ⟨rfl, hmodel⟩ := first_part hc hc' hrest
  exact ⟨rfl, rfl, (String.append_right_inj _).mp hmodel, rfl⟩

/-! ### What the parser reads -/

private theorem colonParts_model {c : String} (hc : NoColon c) (m word : String) :
    ∃ rest, rest ≠ [] ∧
    colonParts (c ++ ":model:" ++ m ++ ":" ++ word) = c :: "model" :: rest := by
  have hkey : c ++ ":model:" ++ m ++ ":" ++ word =
      c ++ ":" ++ ("model" ++ ":" ++ (m ++ ":" ++ word)) := by
    apply String.ext
    simp [String.toList_append]
  refine ⟨colonParts (m ++ ":" ++ word), ?_, ?_⟩
  · unfold colonParts
    rw [Ne, List.map_eq_nil_iff]
    exact List.splitOn_ne_nil _ _
  · rw [hkey, colonParts_append hc, colonParts_append (by decide)]

/-- The parser finds the customer of a key, whatever model the key is of. -/
theorem parseModelInputKey_counter {scope : Option String} (hscope : ∀ t ∈ scope, NoColon t)
    {c : String} (hc : NoColon c) (m m' word : String) :
    parseModelInputKey (modelCounterKey scope c m' word) m =
      some ⟨c, familyKey scope c ++ ":model:" ++ m, familyKey scope c⟩ := by
  obtain ⟨rest, hrest, hparts⟩ := colonParts_model hc m' word
  cases scope with
  | none =>
    have hkey : modelCounterKey none c m' word =
        "customer" ++ ":" ++ (c ++ ":model:" ++ m' ++ ":" ++ word) := by
      unfold modelCounterKey familyKey
      apply String.ext
      simp [String.toList_append]
    unfold parseModelInputKey
    rw [hkey, colonParts_append (by decide), hparts]
    simp [hrest, familyKey]
  | some t =>
    have hkey : modelCounterKey (some t) c m' word =
        "tenant" ++ ":" ++ (t ++ ":" ++ ("customer" ++ ":" ++
          (c ++ ":model:" ++ m' ++ ":" ++ word))) := by
      unfold modelCounterKey familyKey
      apply String.ext
      simp [String.toList_append]
    unfold parseModelInputKey
    rw [hkey, colonParts_append (by decide), colonParts_append (hscope t rfl),
      colonParts_append (by decide), hparts]
    simp [hrest, familyKey]

end FluxMeter.Usage
