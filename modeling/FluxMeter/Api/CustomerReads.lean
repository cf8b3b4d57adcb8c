import FluxMeter.Api.Auth
import FluxMeter.Budget.Account
import FluxMeter.Usage.UsageQuery

/-! The read endpoints of `main.py` that take a customer id in their path. Each asks for an API key
that resolves to somebody; only the budget endpoints compare the customer of the key with the
customer of the path. -/
namespace FluxMeter.Api
open FluxMeter.Budget FluxMeter.Custody FluxMeter.Keys FluxMeter.Usage

/-- The keyspace with the records of the API keys and the prepaid packages. -/
structure ApiStore extends Keyspace where
  keys : KeyStore := {}
  packages : String → Option ℤ := fun _ => none

inductive CustomerRead
  | customer
  | model (modelId : String)
  | period (period : String)
  | day (date : String)
  | spans (limit : ℤ)
  | budget
  | package
  deriving DecidableEq

/-- The data of an answer; `none` is a 404. -/
inductive ReadBody
  | usage (answer : UsageAnswer)
  | spans (rows : List (String × ℚ))
  | budget (snapshot : Option (Snapshot × ℚ))
  | package (tokensRemaining : ℤ)
  deriving DecidableEq

inductive Response
  | refused (status : ℕ)
  | badRequest
  | ok (body : ReadBody)
  deriving DecidableEq

/-- `re.fullmatch` of digits and hyphens; `digit` is Python's `\d`. -/
def fullmatch (digit : Char → Bool) (pattern : List Bool) (text : String) : Bool :=
  text.length = pattern.length &&
    (text.toList.zip pattern).all fun p => if p.2 then digit p.1 else p.1 = '-'

/-- `\d{4}-\d{2}`. -/
def monthPattern : List Bool := [true, true, true, true, false, true, true]

/-- `\d{4}-\d{2}-\d{2}`. -/
def dayPattern : List Bool := monthPattern ++ [false, true, true]

/-- `zrevrange(key, 0, stop)`; a negative stop counts from the end. -/
def zrevrange (rows : List (String × ℚ)) (stop : ℤ) : List (String × ℚ) :=
  rows.take (if 0 ≤ stop then stop + 1 else rows.length + stop + 1).toNat

/-- `customer_cost_usd`. -/
def customerCostUsd (s : Keyspace) (tenantId : Option String) (customerId : String) : ℚ :=
  number (s.usage.floats (customerPrefixForRead s tenantId customerId ++ ":cost_usd"))

namespace CustomerRead

/-- The endpoint calls `require_customer_access`. -/
def guarded : CustomerRead → Bool
  | .budget | .package => true
  | _ => false

/-- What the endpoint answers once its guards have let it through. -/
def answer (digit : Char → Bool) (s : ApiStore) (tenantId : Option String) (customerId : String) :
    CustomerRead → Response
  | .customer => .ok (.usage (UsageQuery.answer [] tenantId s.toKeyspace (.customer customerId)))
  | .model m => .ok (.usage (UsageQuery.answer [] tenantId s.toKeyspace (.customerModel customerId m)))
  | .period p =>
    if fullmatch digit monthPattern p then
      .ok (.usage (UsageQuery.answer [] tenantId s.toKeyspace (.period customerId p)))
    else .badRequest
  | .day d =>
    if fullmatch digit dayPattern d then
      .ok (.usage (UsageQuery.answer [] tenantId s.toKeyspace (.day customerId d)))
    else .badRequest
  | .spans limit =>
    .ok (.spans (zrevrange
      (s.ranked (customerPrefixForRead s.toKeyspace tenantId customerId ++ ":spans")) (limit - 1)))
  | .budget =>
    .ok (.budget ((snapshot s.toRedis tenantId customerId).map fun data =>
      (data, customerCostUsd s.toKeyspace tenantId customerId)))
  | .package =>
    .ok (.package ((s.packages (Py.inTenant (stripTenant tenantId)
      ("package:" ++ customerId ++ ":tokens_remaining"))).getD 0))

/-- A request with an API key. -/
def respond (cfg : AuthConfig) (sha256 : String → String) (digit : Char → Bool) (s : ApiStore)
    (provided : Option String) (customerId : String) (read : CustomerRead) : Response :=
  match requireApiKey cfg sha256 s.keys provided with
  | some status => .refused status
  | none =>
    match (if read.guarded then requireCustomerAccess cfg sha256 s.keys provided customerId
      else none) with
    | some status => .refused status
    | none => read.answer digit s (resolveTenantFromKey sha256 s.keys provided) customerId

end CustomerRead

/-- The request is refused, whatever the store has under other keys than those of the guards. -/
structure Confined (cfg : AuthConfig) (sha256 : String → String) (digit : Char → Bool) (s : ApiStore)
    (provided : Option String) (customerId : String) (read : CustomerRead) : Prop where
  refused : ∃ status, read.respond cfg sha256 digit s provided customerId = .refused status
  independent : ∀ s' : ApiStore, s'.keys = s.keys →
    read.respond cfg sha256 digit s' provided customerId =
      read.respond cfg sha256 digit s provided customerId

section Guards
variable {cfg : AuthConfig} {sha256 : String → String} {digit : Char → Bool} {s : ApiStore}
  {keys : KeyStore} {provided : Option String} {c d : String} {read : CustomerRead}

theorem given_of_resolved (h : resolveCustomerFromKey sha256 keys provided = some c) :
    Custody.given provided = true := by
  by_contra hnot
  unfold resolveCustomerFromKey resolveKeyContext at h
  rw [if_pos (by simpa using hnot)] at h
  exact absurd h (by simp)

/-- A guard that refuses decides the answer from the keys alone. -/
theorem confined_of_refused (status : ℕ) (h : ∀ s' : ApiStore, s'.keys = s.keys →
    read.respond cfg sha256 digit s' provided d = .refused status) :
    Confined cfg sha256 digit s provided d read :=
  ⟨⟨status, h s rfl⟩, fun s' hs' => (h s' hs').trans (h s rfl).symm⟩

theorem answer_ne_refused (tenantId : Option String) (status : ℕ) :
    read.answer digit s tenantId d ≠ .refused status := by
  cases read
  case period p =>
    unfold CustomerRead.answer
    dsimp only
    split_ifs <;> simp
  case day p =>
    unfold CustomerRead.answer
    dsimp only
    split_ifs <;> simp
  all_goals simp [CustomerRead.answer]

/-- The first guard on a customer key: it stops only a key of the empty customer without a tenant,
and not even that where the read key is left open. -/
theorem requireApiKey_none_iff (hconfigured : cfg.unconfigured = false)
    (hresolved : resolveCustomerFromKey sha256 keys provided = some c) :
    requireApiKey cfg sha256 keys provided = none ↔
      isGlobalApiKey cfg provided = true ∨ c ≠ "" ∨
        Custody.given (resolveTenantFromKey sha256 keys provided) = true ∨
        (cfg.apiKey = "" ∧ cfg.authOptional = true) := by
  have hgiven := given_of_resolved hresolved
  unfold requireApiKey
  by_cases hglobal : isGlobalApiKey cfg provided = true
  · simp [hglobal]
  rw [if_neg hglobal, if_neg (by simp [hgiven])]
  by_cases hscoped : isScopedApiKey sha256 keys provided = true
  · rw [if_pos hscoped]
    unfold isScopedApiKey at hscoped
    rw [hresolved, Bool.or_eq_true] at hscoped
    simp only [true_iff]
    rcases hscoped with hcustomer | htenant
    · exact Or.inr (Or.inl (by simpa [Custody.given] using hcustomer))
    · exact Or.inr (Or.inr (Or.inl htenant))
  · rw [if_neg hscoped, if_neg (by simp [hconfigured])]
    unfold isScopedApiKey at hscoped
    rw [hresolved, Bool.or_eq_true, not_or] at hscoped
    have hempty : c = "" := by simpa [Custody.given] using hscoped.1
    have hkey : cfg.apiKey ≠ "" → provided ≠ some cfg.apiKey := by
      intro hset hsame
      apply hglobal
      simp [isGlobalApiKey, Custody.given, hset, hsame]
    unfold checkGlobalKey
    by_cases hopen : cfg.apiKey = ""
    · rw [if_pos hopen]
      cases hoptional : cfg.authOptional <;> simp [hglobal, hempty, hscoped.2, hopen]
    · rw [if_neg hopen, if_pos (by simp [hkey hopen])]
      simp [hglobal, hempty, hscoped.2, hopen]

theorem respond_of_stopped {status : ℕ}
    (hkey : requireApiKey cfg sha256 s.keys provided = some status) :
    read.respond cfg sha256 digit s provided d = .refused status := by
  unfold CustomerRead.respond
  rw [hkey]

private theorem respond_refuses (hkey : requireApiKey cfg sha256 s.keys provided = none)
    (hguard : read.guarded = true) (hglobal : isGlobalApiKey cfg provided = false)
    (hresolved : resolveCustomerFromKey sha256 s.keys provided = some c) (hother : d ≠ c) :
    read.respond cfg sha256 digit s provided d = .refused 403 := by
  unfold CustomerRead.respond requireCustomerAccess
  rw [hkey]
  dsimp only
  rw [if_pos hguard, if_neg (by simp [hglobal]), hresolved]
  dsimp only
  rw [if_neg fun heq => hother heq.symm]

private theorem respond_answers (hkey : requireApiKey cfg sha256 s.keys provided = none)
    (hopen : ¬ (read.guarded = true ∧ isGlobalApiKey cfg provided = false)) :
    read.respond cfg sha256 digit s provided d =
      read.answer digit s (resolveTenantFromKey sha256 s.keys provided) d := by
  unfold CustomerRead.respond
  rw [hkey]
  dsimp only
  by_cases hguard : read.guarded = true
  · have hglobal : isGlobalApiKey cfg provided = true := by simpa [hguard] using hopen
    rw [if_pos hguard]
    unfold requireCustomerAccess
    rw [if_pos hglobal]
  · rw [if_neg hguard]

end Guards

/-- A customer's key is refused for another customer exactly when the endpoint calls
`require_customer_access` and the key is no global key at the same time; the other endpoints stop
only a key that resolves to the empty customer and to no tenant. -/
theorem confined_iff (cfg : AuthConfig) (sha256 : String → String) (digit : Char → Bool)
    (s : ApiStore) (provided : Option String) (read : CustomerRead) {c d : String}
    (hconfigured : cfg.unconfigured = false)
    (hresolved : resolveCustomerFromKey sha256 s.keys provided = some c) (hother : d ≠ c) :
    Confined cfg sha256 digit s provided d read ↔
      isGlobalApiKey cfg provided = false ∧
        (read.guarded = true ∨ c = "" ∧
          Custody.given (resolveTenantFromKey sha256 s.keys provided) = false ∧
          ¬ (cfg.apiKey = "" ∧ cfg.authOptional = true)) := by
  have hfirst := requireApiKey_none_iff hconfigured hresolved
  cases hkey : requireApiKey cfg sha256 s.keys provided with
  | some status =>
    have hstop : ¬ requireApiKey cfg sha256 s.keys provided = none := by simp [hkey]
    rw [hfirst] at hstop
    simp only [not_or, not_not, Bool.not_eq_true] at hstop
    constructor
    · intro _
      exact ⟨hstop.1, Or.inr ⟨hstop.2.1, hstop.2.2.1, hstop.2.2.2⟩⟩
    · intro _
      apply confined_of_refused status
      intro s' hs'
      exact respond_of_stopped (by rw [hs', hkey])
  | none =>
    have hpass := hfirst.mp hkey
    by_cases hrefuses : read.guarded = true ∧ isGlobalApiKey cfg provided = false
    · constructor
      · intro _
        exact ⟨hrefuses.2, Or.inl hrefuses.1⟩
      · intro _
        apply confined_of_refused 403
        intro s' hs'
        exact respond_refuses (by rw [hs', hkey]) hrefuses.1 hrefuses.2 (by rw [hs', hresolved])
          hother
    · have hanswered : read.respond cfg sha256 digit s provided d =
          read.answer digit s (resolveTenantFromKey sha256 s.keys provided) d :=
        respond_answers hkey hrefuses
      constructor
      · intro h
        obtain ⟨status, hrefused⟩ := h.refused
        rw [hanswered] at hrefused
        exact absurd hrefused (answer_ne_refused _ _)
      · rintro ⟨hglobal, hguard | ⟨hempty, htenant, hclosed⟩⟩
        · exact absurd ⟨hguard, hglobal⟩ hrefuses
        · rcases hpass with h | h | h | h
          · rw [hglobal] at h; exact absurd h Bool.false_ne_true
          · exact absurd hempty h
          · rw [htenant] at h; exact absurd h Bool.false_ne_true
          · exact absurd h hclosed

/-- A deployment with both keys set. -/
def production : AuthConfig := { apiKey := "read", adminApiKey := "admin", authOptional := false }

/-- The digest of the key `fm_live_acme`. -/
def acmeDigest (_ : String) : String :=
  "1eebb3727526ca33d5a9dc87ab7facf7a8214e3f35f2b8f8c4a8ab211d925f1d"

/-- A store with a key of the customer `acme` and the usage of the customer `globex`. -/
def twoCustomers (globexTokens : ℤ) : ApiStore :=
  let acme : KeyRecord := { customerId := some "acme", keyId := some "key-1" }
  { keys :=
      { apiKeys := fun hash => if hash = acmeDigest "fm_live_acme" then some (.record acme) else none
        revoked := fun keyId => if keyId = "key-1" then some (.record false) else none }
    usage :=
      { ints := fun key => if key = "customer:globex:total_tokens" then some globexTokens else none } }

/-- A request of `acme` for `globex`. -/
def acmeReads (read : CustomerRead) (globexTokens : ℤ) : Response :=
  read.respond production acmeDigest Char.isDigit (twoCustomers globexTokens) (some "fm_live_acme")
    "globex"

theorem budget_refused_to_other : Confined production acmeDigest Char.isDigit (twoCustomers 5)
    (some "fm_live_acme") "globex" .budget := by
  have hacme : resolveCustomerFromKey acmeDigest (twoCustomers 5).keys (some "fm_live_acme") =
      some "acme" := by
    decide
  exact (confined_iff production acmeDigest Char.isDigit (twoCustomers 5) (some "fm_live_acme")
    .budget (by decide) hacme (by decide)).mpr (by decide)

/-- The key of `acme` reads the usage of `globex`. -/
theorem usage_shown_to_other :
    resolveCustomerFromKey acmeDigest (twoCustomers 5).keys (some "fm_live_acme") = some "acme" ∧
    acmeReads .customer 5 = .ok (.usage (.fields (some ⟨5, 0, 0, 0, 0, 0, 0⟩))) ∧
    acmeReads .customer 5 ≠ acmeReads .customer 6 ∧
    ¬ Confined production acmeDigest Char.isDigit (twoCustomers 5) (some "fm_live_acme") "globex"
      .customer := by
  have hshown : acmeReads .customer 5 = .ok (.usage (.fields (some ⟨5, 0, 0, 0, 0, 0, 0⟩))) := by
    decide +kernel
  refine ⟨by decide, hshown, by decide +kernel, fun h => ?_⟩
  obtain ⟨status, hrefused⟩ := h.refused
  have hanswer : acmeReads .customer 5 = .refused status := hrefused
  rw [hshown] at hanswer
  exact absurd hanswer (by simp)

end FluxMeter.Api
