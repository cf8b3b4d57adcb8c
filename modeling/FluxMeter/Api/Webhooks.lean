import FluxMeter.Budget.Alerts

/-! `webhook_deliver.py`, `process_alert` of `webhook_worker.py` and `set_budget_webhook` of
`main.py`. -/
namespace FluxMeter.Api.Webhooks
open FluxMeter.Budget FluxMeter.Keys FluxMeter.Model

/-- The webhook settings under one budget prefix. -/
structure Hook where
  url : Option String := none
  secret : Option String := none
  deriving DecidableEq

/-- `if not url`. -/
def Hook.target (h : Hook) : Option String := h.url.filter (· ≠ "")

structure Store where
  hooks : BudgetKey → Hook := fun _ => {}
  /-- The keys `webhook:transition:{hash}`, each with the second at which it expires. -/
  transitions : String → Option ℤ := fun _ => none
  deliveryFailed : ℕ := 0

/-- `set_budget_webhook`; `none` is the answer 404. -/
def setBudgetWebhook (r : Redis) (s : Store) (tenantId : Option String) (customerId url : String)
    (secret : Option String) : Option Store :=
  if (r.budgets (budgetPrefixForRead r tenantId customerId)).balanceUsd.isNone then none
  else
    let key := budgetPrefix tenantId customerId
    some { s with
      hooks := Function.update s.hooks key
        { url := some url
          secret := if secret.getD "" = "" then (s.hooks key).secret else secret } }

/-! ### Delivery -/

/-- What one `httpx.post` does. `raised` is any exception but `httpx.HTTPError`, as `InvalidURL`. -/
inductive Attempt
  | response (status : ℕ)
  | httpError
  | raised
  deriving DecidableEq

/-- The loop goes on after a server error and after an `HTTPError`. -/
def Attempt.retried : Attempt → Bool
  | .response status => 500 ≤ status
  | .httpError => true
  | .raised => false

/-- `deliver_webhook` with so many attempts left; `none` is an exception that leaves it. -/
def deliverWebhook : ℕ → (ℕ → Attempt) → Option Bool
  | 0, _ => some false
  | n + 1, attempts =>
    match attempts 0 with
    | .response status =>
      if status < 500 then some (decide (status < 400))
      else deliverWebhook n fun i => attempts (i + 1)
    | .httpError => deliverWebhook n fun i => attempts (i + 1)
    | .raised => none

/-- The request of a delivery. -/
structure Post where
  url : String
  secret : String
  type : String
  customerId : String
  balanceUsd : ℚ
  windowCostUsd : ℚ
  modelId : Option String
  timestamp : ℤ
  warnPct : Option ℤ
  spentPct : Option ℚ
  initialBalanceUsd : Option ℚ
  deriving DecidableEq

/-- `ALERT_TYPES`. -/
def alertTypes : List String := ["BUDGET_LOW", "BUDGET_EXHAUSTED", "BUDGET_WARN"]

/-- What the surroundings of one call of `process_alert` do: the clock in seconds, and the receiver. -/
structure Surroundings where
  now : ℤ
  attempts : ℕ → Attempt

inductive Fired
  | sent (post : Post)
  | failed
  | raised
  deriving DecidableEq

/-- `fire_budget_webhook`. The settings are read without a tenant. -/
def fireBudgetWebhook (maxRetries : ℕ) (s : Store) (a : Alert) (e : Surroundings) : Store × Fired :=
  if a.type.text ∉ alertTypes then (s, .failed)
  else
    let hook := s.hooks ⟨none, a.customerId⟩
    match hook.target with
    | none => (s, .failed)
    | some url =>
      match deliverWebhook maxRetries e.attempts with
      | none => (s, .raised)
      | some false => ({ s with deliveryFailed := s.deliveryFailed + 1 }, .failed)
      | some true =>
        (s, .sent
          { url
            secret := hook.secret.getD ""
            type := a.type.text
            customerId := a.customerId
            balanceUsd := a.remainingBalanceUsd
            windowCostUsd := a.windowCostUsd
            modelId := a.modelId
            timestamp := e.now * 1000
            warnPct := a.warnPct
            spentPct := a.spentPct
            initialBalanceUsd := a.initialBalanceUsd })

/-! ### The worker -/

/-- The text that stands for a transition: neither tenant nor model is in it. -/
def identity (a : Alert) : String :=
  a.customerId ++ "|" ++ a.type.text ++ "|" ++ toString a.windowStart ++ "|" ++
    (a.warnPct.map toString).getD ""

def transitionKey (sha256 : String → String) (a : Alert) : String :=
  "webhook:transition:" ++ sha256 (identity a)

/-- The key exists. -/
def Store.marked (s : Store) (key : String) (now : ℤ) : Bool :=
  (s.transitions key).any fun expiry => now < expiry

/-- `set(key, "1", ex=30 * 24 * 60 * 60)`. -/
def Store.mark (s : Store) (key : String) (now : ℤ) : Store :=
  { s with transitions := Function.update s.transitions key (some (now + 30 * 24 * 60 * 60)) }

def Store.unmark (s : Store) (key : String) : Store :=
  { s with transitions := Function.update s.transitions key none }

inductive Answer
  | returned (post : Option Post)
  | raised
  deriving DecidableEq

def Answer.post : Answer → Option Post
  | .returned post => post
  | .raised => none

/-- `process_alert`. It returns whether something was posted. -/
def processAlert (sha256 : String → String) (maxRetries : ℕ) (s : Store) (a : Alert)
    (e : Surroundings) : Store × Answer :=
  if a.customerId = "" then (s, .returned none)
  else
    let key := transitionKey sha256 a
    if s.marked key e.now then (s, .returned none)
    else
      match fireBudgetWebhook maxRetries (s.mark key e.now) a e with
      | (s', .sent post) => (s', .returned (some post))
      | (s', .failed) => (s'.unmark key, .raised)
      -- nothing deletes the key when the exception is not the worker's own
      | (s', .raised) => (s', .raised)

end FluxMeter.Api.Webhooks
