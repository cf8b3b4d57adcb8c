import FluxMeter.Custody.Payload

/-! `auth.py`: how an API key is resolved, and the two guards of the read endpoints. A guard that
raises answers with its status. -/
namespace FluxMeter.Api
open FluxMeter.Custody

/-- `FLUXMETER_API_KEY`, `FLUXMETER_ADMIN_KEY` and `FLUXMETER_AUTH_OPTIONAL`. -/
structure AuthConfig where
  apiKey : String := ""
  adminApiKey : String := ""
  authOptional : Bool := true

/-- The JSON text under a key, where it can be read. -/
inductive Stored (α : Type)
  | unreadable
  | record (value : α)

/-- The text under `apikey:{hash}`. -/
structure KeyRecord where
  customerId : Option String
  keyId : Option String

/-- What the guards read: `apikey:{hash}`, whether `apikey:meta:{key_id}` is revoked, and the
control-plane index `cp:apikey:{digest}`. -/
structure KeyStore where
  apiKeys : String → Option (Stored KeyRecord) := fun _ => none
  revoked : String → Option (Stored Bool) := fun _ => none
  tenants : String → Option String := fun _ => none

section Guards
variable (cfg : AuthConfig) (sha256 : String → String) (keys : KeyStore) (provided : Option String)

/-- `AUTH_OPTIONAL and not API_KEY and not ADMIN_API_KEY`. -/
def AuthConfig.unconfigured : Bool :=
  cfg.authOptional && cfg.apiKey = "" && cfg.adminApiKey = ""

/-- `_check_global_key`. -/
def checkGlobalKey (expected : String) : Option ℕ :=
  if expected = "" then (if cfg.authOptional then none else some 503)
  else if !Custody.given provided || provided ≠ some expected then some 401
  else none

def resolveKeyContext : Option String × Option String :=
  if !Custody.given provided then (none, none)
  else
    match keys.apiKeys (sha256 (provided.getD "")) with
    | none | some .unreadable => (none, none)
    | some (.record r) =>
      if !Custody.given r.keyId then (r.customerId, r.keyId)
      else
        match keys.revoked (r.keyId.getD "") with
        | some .unreadable => (none, none)
        | some (.record true) => (none, none)
        | _ => (r.customerId, r.keyId)

def resolveCustomerFromKey : Option String := (resolveKeyContext sha256 keys provided).1

/-- The digest is cut after 16 digits. -/
def resolveTenantFromKey : Option String :=
  if !Custody.given provided then none
  else
    let value := keys.tenants (String.ofList ((sha256 (provided.getD "")).toList.take 16))
    if Custody.given value then value else none

def isAdminKey : Bool :=
  Custody.given provided &&
    ((cfg.adminApiKey ≠ "" && provided = some cfg.adminApiKey) ||
      (cfg.adminApiKey = "" && cfg.apiKey ≠ "" && provided = some cfg.apiKey))

def isGlobalApiKey : Bool :=
  Custody.given provided &&
    ((cfg.apiKey ≠ "" && provided = some cfg.apiKey) || isAdminKey cfg provided)

/-- `_is_scoped_api_key`. -/
def isScopedApiKey : Bool :=
  Custody.given (resolveCustomerFromKey sha256 keys provided) ||
    Custody.given (resolveTenantFromKey sha256 keys provided)

def requireApiKey : Option ℕ :=
  if isGlobalApiKey cfg provided then none
  else if !Custody.given provided && cfg.unconfigured then none
  else if isScopedApiKey sha256 keys provided then none
  else if cfg.unconfigured then none
  else checkGlobalKey cfg provided cfg.apiKey

def requireCustomerAccess (customerId : String) : Option ℕ :=
  if isGlobalApiKey cfg provided then none
  else
    match resolveCustomerFromKey sha256 keys provided with
    | some resolved => if resolved = customerId then none else some 403
    | none =>
      if Custody.given (resolveTenantFromKey sha256 keys provided) then none
      else if cfg.unconfigured then none
      else some 403

end Guards

end FluxMeter.Api
