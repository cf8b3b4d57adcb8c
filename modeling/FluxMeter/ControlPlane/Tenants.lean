import FluxMeter.Api.Auth
import FluxMeter.Transition.Runs

/-! The tenants of `services/control-plane/main.py`: the commands that the handlers of the control plane
send to Redis, and runs in which they come one by one from any number of handlers. -/
namespace FluxMeter.ControlPlane
open FluxMeter.Api

inductive PlanTier
  | free
  | growth
  | scale
  | enterprise
  deriving DecidableEq

structure Limits where
  maxEventsPerMonth : ℤ
  maxEps : ℤ
  maxCustomers : ℤ
  deriving DecidableEq

/-- `PLAN_LIMITS`; `-1` is unlimited. -/
def planLimits : PlanTier → Limits
  | .free => { maxEventsPerMonth := 100000, maxEps := 100, maxCustomers := 10 }
  | .growth => { maxEventsPerMonth := 10000000, maxEps := 10000, maxCustomers := 1000 }
  | .scale => { maxEventsPerMonth := 100000000, maxEps := 100000, maxCustomers := 10000 }
  | .enterprise => { maxEventsPerMonth := -1, maxEps := -1, maxCustomers := -1 }

/-- A body that the model of the request accepts. -/
structure TenantCreate where
  name : String
  email : String
  plan : PlanTier := .free
  stripeCustomerId : Option String := none
  length : 1 ≤ name.length ∧ name.length ≤ 200

/-- The hash `cp:tenant:{tenant_id}`. -/
structure TenantRecord where
  name : String
  email : String
  plan : PlanTier
  apiKeyHash : String
  createdAt : ℚ
  stripeCustomerId : String
  deriving DecidableEq

/-- The keys of the control plane: the tenants, `cp:apikey:{digest}`, `cp:tenants`, the two limits of
`tenant:{tenant_id}` and its counters, which other services write. -/
structure Store where
  tenants : String → Option TenantRecord := fun _ => none
  apiKeys : String → Option String := fun _ => none
  ids : List String := []
  maxEps : String → Option String := fun _ => none
  maxEventsMonth : String → Option String := fun _ => none
  totalEvents : String → Option ℤ := fun _ => none
  totalTokens : String → Option ℤ := fun _ => none
  totalCostUsd : String → Option ℚ := fun _ => none
  eventsThisMonth : String → Option ℤ := fun _ => none

/-! ### `create_tenant` -/

/-- A request with what its handler draws: the two tokens and the time. -/
structure Creation where
  body : TenantCreate
  idToken : String
  keyToken : String
  now : ℚ

namespace Creation
variable (c : Creation)

def tenantId : String := "tenant_" ++ c.idToken

/-- `generate_api_key`. -/
def apiKey : String := "fm_tenant_" ++ c.keyToken

def limits : Limits := planLimits c.body.plan

def record (sha256 : String → String) : TenantRecord where
  name := c.body.name
  email := c.body.email
  plan := c.body.plan
  apiKeyHash := sha256 c.apiKey
  createdAt := c.now
  stripeCustomerId := c.body.stripeCustomerId.getD ""

end Creation

/-- `[:16]` of a hash, under which a key is indexed. -/
def digest (hash : String) : String := String.ofList (hash.toList.take 16)

inductive CreateCommand
  | hsetTenant
  | setApiKey
  | saddTenant
  | setMaxEps
  | setMaxEventsMonth
  | returned
  deriving DecidableEq

def CreateCommand.run (sha256 : String → String) (c : Creation) (s : Store) :
    CreateCommand → Store × CreateCommand
  | .hsetTenant =>
    ({ s with tenants := Function.update s.tenants c.tenantId (some (c.record sha256)) }, .setApiKey)
  | .setApiKey =>
    ({ s with apiKeys := Function.update s.apiKeys (digest (sha256 c.apiKey)) (some c.tenantId) },
      .saddTenant)
  | .saddTenant => ({ s with ids := s.ids.insert c.tenantId }, .setMaxEps)
  | .setMaxEps =>
    ({ s with maxEps := Function.update s.maxEps c.tenantId (some (toString c.limits.maxEps)) },
      .setMaxEventsMonth)
  | .setMaxEventsMonth =>
    ({ s with
        maxEventsMonth :=
          Function.update s.maxEventsMonth c.tenantId (some (toString c.limits.maxEventsPerMonth)) },
      .returned)
  | .returned => (s, .returned)

/-! ### `delete_tenant` -/

/-- The command that comes next; `notFound` and `deleted` are the answers. -/
inductive DeleteCommand
  | existsTenant
  | hgetall
  | delApiKey (digest : String)
  | delTenant
  | sremTenant
  | delMaxEps
  | delMaxEventsMonth
  | deleted
  | notFound
  deriving DecidableEq

def DeleteCommand.run (tenantId : String) (s : Store) : DeleteCommand → Store × DeleteCommand
  | .existsTenant => (s, if (s.tenants tenantId).isSome then .hgetall else .notFound)
  | .hgetall =>
    (s, match s.tenants tenantId with
      | some data => if data.apiKeyHash = "" then .delTenant else .delApiKey (digest data.apiKeyHash)
      | none => .delTenant)
  | .delApiKey key => ({ s with apiKeys := Function.update s.apiKeys key none }, .delTenant)
  | .delTenant => ({ s with tenants := Function.update s.tenants tenantId none }, .sremTenant)
  | .sremTenant => ({ s with ids := s.ids.filter (· ≠ tenantId) }, .delMaxEps)
  | .delMaxEps => ({ s with maxEps := Function.update s.maxEps tenantId none }, .delMaxEventsMonth)
  | .delMaxEventsMonth =>
    ({ s with maxEventsMonth := Function.update s.maxEventsMonth tenantId none }, .deleted)
  | .deleted => (s, .deleted)
  | .notFound => (s, .notFound)

/-! ### `list_tenants`, `get_tenant_usage` and `tenant_checkout` -/

structure TenantRow where
  tenantId : String
  name : String
  email : String
  plan : PlanTier
  createdAt : ℚ
  deriving DecidableEq

def rowOf (tenantId : String) (data : TenantRecord) : TenantRow where
  tenantId := tenantId
  name := data.name
  email := data.email
  plan := data.plan
  createdAt := data.createdAt

/-- `list_tenants` before its `SMEMBERS`, and in its loop over `tenant_ids`. -/
inductive Listing
  | smembers
  | loop (tenantIds rest : List String) (tenants : List TenantRow)

def Listing.run (s : Store) : Listing → Listing
  | .smembers => .loop s.ids s.ids []
  | .loop tenantIds [] tenants => .loop tenantIds [] tenants
  | .loop tenantIds (tid :: rest) tenants =>
    .loop tenantIds rest (tenants ++ ((s.tenants tid).map (rowOf tid)).toList)

structure TenantUsage where
  tenantId : String
  totalEvents : ℤ
  totalTokens : ℤ
  totalCostUsd : ℚ
  eventsThisMonth : ℤ
  plan : PlanTier
  limits : Limits
  deriving DecidableEq

/-- `none` answers 404. -/
def getTenantUsage (s : Store) (tenantId : String) : Option TenantUsage :=
  (s.tenants tenantId).map fun tenantData =>
    { tenantId
      totalEvents := (s.totalEvents tenantId).getD 0
      totalTokens := (s.totalTokens tenantId).getD 0
      totalCostUsd := (s.totalCostUsd tenantId).getD 0
      eventsThisMonth := (s.eventsThisMonth tenantId).getD 0
      plan := tenantData.plan
      limits := planLimits tenantData.plan }

/-- Answers a status and its detail or the URL that `create_checkout_session` returns. -/
def tenantCheckout (createCheckoutSession : String → PlanTier → Option String) (s : Store)
    (tenantId : String) (plan : PlanTier) : Except (ℕ × String) String :=
  match s.tenants tenantId with
  | none => .error (404, "Tenant not found")
  | some data =>
    if data.stripeCustomerId = "" then .error (400, "Tenant has no stripe_customer_id")
    else if plan ≠ .growth ∧ plan ≠ .scale then
      .error (400, "Checkout supports growth or scale plans only")
    else
      match createCheckoutSession data.stripeCustomerId plan with
      | none => .error (503, "Stripe not configured or invalid plan price")
      | some url =>
        if url = "" then .error (503, "Stripe not configured or invalid plan price") else .ok url

/-! ### Handlers at work -/

/-- Where the caller of `delete_tenant` has the tenant from: the answer to its creation, or a list. -/
inductive Origin
  | answer
  | list
  deriving DecidableEq

inductive Handler
  | creating (c : Creation) (next : CreateCommand)
  | deleting (tenantId : String) (origin : Origin) (next : DeleteCommand)
  | listing (l : Listing)

structure World where
  store : Store := {}
  handlers : List Handler := []

/-- The commands of a creation that have been run. -/
def CreateCommand.done : CreateCommand → ℕ
  | .hsetTenant => 0
  | .setApiKey => 1
  | .saddTenant => 2
  | .setMaxEps => 3
  | .setMaxEventsMonth => 4
  | .returned => 5

/-- The commands of a deletion that have been run; one that finds nothing counts as none. -/
def DeleteCommand.done : DeleteCommand → ℕ
  | .existsTenant => 0
  | .hgetall => 1
  | .delApiKey _ => 2
  | .delTenant => 3
  | .sremTenant => 4
  | .delMaxEps => 5
  | .delMaxEventsMonth => 6
  | .deleted => 7
  | .notFound => 0

/-- What a handler does when a command of it is run. -/
def Handler.run (sha256 : String → String) (s : Store) : Handler → Store × Handler
  | .creating c next => ((next.run sha256 c s).1, .creating c (next.run sha256 c s).2)
  | .deleting tenantId origin next =>
    ((next.run tenantId s).1, .deleting tenantId origin (next.run tenantId s).2)
  | .listing l => (s, .listing (l.run s))

inductive Action
  | create (c : Creation)
  | delete (tenantId : String) (origin : Origin)
  | list
  | command (i : ℕ)

/-- What a new handler draws was not drawn before, by its hash and its first digits. -/
def Handler.Apart (sha256 : String → String) (c : Creation) : Handler → Prop
  | .creating c' _ =>
    c'.tenantId ≠ c.tenantId ∧ digest (sha256 c'.apiKey) ≠ digest (sha256 c.apiKey)
  | .deleting tenantId _ _ => tenantId ≠ c.tenantId
  | .listing _ => True

instance (sha256 : String → String) (c : Creation) : DecidablePred (Handler.Apart sha256 c)
  | .creating _ _ => inferInstanceAs (Decidable (_ ∧ _))
  | .deleting _ _ _ => inferInstanceAs (Decidable (_ ≠ _))
  | .listing _ => inferInstanceAs (Decidable True)

/-- A caller of `delete_tenant` may have been shown the tenant of the handler. -/
def Handler.Shown (tenantId : String) (origin : Origin) : Handler → Prop
  | .creating c next => c.tenantId = tenantId → (if origin = .answer then 5 else 3) ≤ next.done
  | .deleting _ _ _ => True
  | .listing _ => True

instance (tenantId : String) (origin : Origin) : DecidablePred (Handler.Shown tenantId origin)
  | .creating _ _ => inferInstanceAs (Decidable (_ → _ ≤ _))
  | .deleting _ _ _ => inferInstanceAs (Decidable True)
  | .listing _ => inferInstanceAs (Decidable True)

/-- The next command of a handler, or a request. The tokens of a creation are new, and a deletion names
no tenant that its caller cannot know of yet. -/
def step (sha256 : String → String) (w : World) : Action → Option World
  | .create c =>
    if ∀ h ∈ w.handlers, h.Apart sha256 c then
      some { w with handlers := w.handlers ++ [.creating c .hsetTenant] }
    else none
  | .delete tenantId origin =>
    if ∀ h ∈ w.handlers, h.Shown tenantId origin then
      some { w with handlers := w.handlers ++ [.deleting tenantId origin .existsTenant] }
    else none
  | .list => some { w with handlers := w.handlers ++ [.listing .smembers] }
  | .command i =>
    w.handlers[i]?.map fun h =>
      { store := (h.run sha256 w.store).1
        handlers := w.handlers.set i (h.run sha256 w.store).2 }

end FluxMeter.ControlPlane
