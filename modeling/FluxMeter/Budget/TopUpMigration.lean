import FluxMeter.Budget.Account
import FluxMeter.Budget.Settlement
import FluxMeter.Transition.Keyed
import FluxMeter.Transition.Runs

/-! `Budget.top_up` of one tenant and customer, command by command: any number of calls, of which the
first copies the legacy budget under the tenant key, among windows, openings and settlements. -/
namespace FluxMeter.Budget.Migration
open Collections FluxMeter.Keys FluxMeter.Model Transition

inductive Suffix
  | balanceUsd
  | heldUsd
  | debtUsd
  | initialBalanceUsd
  | totalTopupUsd
  | totalDeductedUsd
  | alertThresholdUsd
  | maxRpm
  deriving DecidableEq, Repr

/-- The order in which `top_up` copies them. -/
def suffixes : List Suffix :=
  [.balanceUsd, .heldUsd, .debtUsd, .initialBalanceUsd, .totalTopupUsd, .totalDeductedUsd,
    .alertThresholdUsd, .maxRpm]

/-- `GET` of one key of `row`, noted in `copied`. -/
def copySuffix (row copied : BudgetRow) : Suffix → BudgetRow
  | .balanceUsd => { copied with balanceUsd := row.balanceUsd }
  | .heldUsd => { copied with heldUsd := row.heldUsd }
  | .debtUsd => { copied with debtUsd := row.debtUsd }
  | .initialBalanceUsd => { copied with initialBalanceUsd := row.initialBalanceUsd }
  | .totalTopupUsd => { copied with totalTopupUsd := row.totalTopupUsd }
  | .totalDeductedUsd => { copied with totalDeductedUsd := row.totalDeductedUsd }
  | .alertThresholdUsd => { copied with alertThresholdUsd := row.alertThresholdUsd }
  | .maxRpm => { copied with maxRpm := row.maxRpm }

/-- One `EXISTS` of `budget_prefix_for_read`. -/
inductive Probe
  | balance (key : BudgetKey)
  | held (key : BudgetKey)
  deriving DecidableEq

def Probe.key : Probe → BudgetKey
  | .balance key | .held key => key

def Probe.found (r : Redis) : Probe → Bool
  | .balance key => (r.budgets key).balanceUsd.isSome
  | .held key => (r.budgets key).heldUsd.isSome

inductive Client
  | idle
  /-- In `budget_prefix_for_read`, with the commands that are left. -/
  | locating (amountUsd : ℚ) (probes : List Probe)
  /-- Before the `GET` of the balance. -/
  | located (amountUsd : ℚ) (readKey : BudgetKey)
  /-- Before the `EXISTS` of the balance under the key that it writes. -/
  | found (amountUsd : ℚ) (readKey : BudgetKey)
  /-- Among the `GET`s of the copy. -/
  | copying (amountUsd : ℚ) (readKey : BudgetKey) (copied : BudgetRow) (rest : List Suffix)
  /-- Before the transaction, with what it copies. -/
  | committing (amountUsd : ℚ) (copied : Option BudgetRow)
  deriving DecidableEq

structure State where
  redis : Redis
  clients : ℕ → Client := fun _ => .idle

inductive Action
  /-- A call of `top_up`. -/
  | topUp (client : ℕ) (amountUsd : ℚ)
  /-- Its next command. -/
  | advance (client : ℕ)
  /-- The script of the window sink. -/
  | window (agg : UsageAggregate)
  /-- `OPEN_SCRIPT`, on the keys that the reads in front of it found. -/
  | openHold (budget : BudgetKey) (span : Option SpanKey) (args : OpenArgs)
  /-- `CLOSE_SCRIPT` of a `settle`, on the keys that the reads in front of it found. -/
  | settle (reservationId : String) (heldKey : BudgetKey) (spanHeldKey : Option SpanKey)

/-- What a window took from the balance of its budget. -/
def deductionOf : SinkReply → ℚ
  | .skip | .noBudget => 0
  | .exhausted newBalance balance | .low newBalance balance | .ok newBalance balance =>
    balance - newBalance

section Model
variable (tenantId : Option String) (customerId : String)

/-- `budget_prefix_for_write`. -/
def writeKey : BudgetKey := budgetPrefix (stripTenant tenantId) customerId

def legacyKey : BudgetKey := ⟨none, customerId⟩

def probes : List Probe :=
  if Py.hasTenant (stripTenant tenantId) then
    [.balance (writeKey tenantId customerId), .held (writeKey tenantId customerId),
      .balance (legacyKey customerId), .held (legacyKey customerId)]
  else []

/-- Without a key that exists the prefix is the one that is written. -/
def locate (amountUsd : ℚ) : List Probe → Client
  | [] => .located amountUsd (writeKey tenantId customerId)
  | probes => .locating amountUsd probes

def copy (amountUsd : ℚ) (readKey : BudgetKey) (copied : BudgetRow) : List Suffix → Client
  | [] => .committing amountUsd (some copied)
  | rest => .copying amountUsd readKey copied rest

/-- The key whose balance `budget_prefix_for_read` finds. -/
def keyInForce (r : Redis) : BudgetKey :=
  if (r.budgets (writeKey tenantId customerId)).balanceUsd.isSome then writeKey tenantId customerId
  else legacyKey customerId

/-- The tenant balance, or the legacy one before the migration. -/
def balanceInForce (r : Redis) : ℚ :=
  number ((r.budgets (writeKey tenantId customerId)).balanceUsd <|>
    (r.budgets (legacyKey customerId)).balanceUsd)

def State.become (s : State) (i : ℕ) (client : Client) : State :=
  { s with clients := Function.update s.clients i client }

/-- The transaction: the `SET`s of the copy, and the two increments. -/
def commit (s : State) (i : ℕ) (amountUsd : ℚ) (copied : Option BudgetRow) : State :=
  let key := writeKey tenantId customerId
  let row :=
    match copied with
    | none => s.redis.budgets key
    | some copied => migrate copied (s.redis.budgets key)
  { redis := s.redis.setBudget key (row.topUp amountUsd)
    clients := Function.update s.clients i .idle }

/-- The next command of a call; a prefix without a balance is `BudgetNotFound`. -/
def advance (s : State) (i : ℕ) : Client → Option State
  | .idle | .locating _ [] | .copying _ _ _ [] => none
  | .locating amount (probe :: rest) =>
    some (s.become i
      (if probe.found s.redis then .located amount probe.key
        else locate tenantId customerId amount rest))
  | .located amount readKey =>
    some (s.become i
      (if (s.redis.budgets readKey).balanceUsd.isNone then .idle
        else if readKey ≠ writeKey tenantId customerId then .found amount readKey
        else .committing amount none))
  | .found amount readKey =>
    some (s.become i
      (if (s.redis.budgets (writeKey tenantId customerId)).balanceUsd.isSome then
          .committing amount none
        else copy amount readKey {} suffixes))
  | .copying amount readKey copied (suffix :: rest) =>
    some (s.become i
      (copy amount readKey (copySuffix (s.redis.budgets readKey) copied suffix) rest))
  | .committing amount copied => some (commit tenantId customerId s i amount copied)

/-- An amount that is not positive is refused. -/
def step (s : State) : Action → Option State
  | .topUp i amount =>
    match s.clients i with
    | .idle => if amount ≤ 0 then none
      else some (s.become i (locate tenantId customerId amount (probes tenantId customerId)))
    | _ => none
  | .advance i => advance tenantId customerId s i (s.clients i)
  | .window agg => some { s with redis := (invoke s.redis agg).1 }
  | .openHold budget span args => some { s with redis := (openScript s.redis budget span args).1 }
  | .settle reservationId heldKey spanHeldKey =>
    some { s with redis := (closeScript s.redis reservationId heldKey spanHeldKey).1 }

/-- The call that returns with the action. -/
def returns (s : State) : Action → Option ℕ
  | .advance i =>
    match s.clients i with
    | .committing .. => some i
    | _ => none
  | _ => none

/-- The amounts that the latest calls were asked for. -/
def Action.ask (asked : ℕ → ℚ) : Action → ℕ → ℚ
  | .topUp i amount => Function.update asked i amount
  | _ => asked

/-- The amounts of the top-ups that return in a run. -/
def toppedUp (s : State) (asked : ℕ → ℚ) : List Action → ℚ
  | [] => 0
  | a :: as => ((returns s a).map asked).getD 0 +
      ((step tenantId customerId s a).map fun t => toppedUp t (a.ask asked) as).getD 0

/-- What the window of an action takes from the budget in force. -/
def takes (s : State) : Action → ℚ
  | .window agg =>
    if (sinkKeys agg).budget = keyInForce tenantId customerId s.redis then
      deductionOf (invoke s.redis agg).2
    else 0
  | _ => 0

/-- What the windows of a run take from the budget in force. -/
def deducted (s : State) : List Action → ℚ
  | [] => 0
  | a :: as => takes tenantId customerId s a +
      ((step tenantId customerId s a).map fun t => deducted t as).getD 0

def Migrates (s : State) : Action → Prop
  | .advance i => ∃ amount copied, s.clients i = .committing amount (some copied)
  | _ => False

/-- Every top-up that returned and every deduction is in the balance in force, and each migration
carried the legacy hold over. -/
structure NothingLost (s : State) (as : List Action) (t : State) : Prop where
  balance : balanceInForce tenantId customerId t.redis =
    balanceInForce tenantId customerId s.redis + toppedUp tenantId customerId s (fun _ => 0) as -
      deducted tenantId customerId s as
  carried : ∀ before a rest u v, as = before ++ a :: rest →
    run (step tenantId customerId) s before = some u → step tenantId customerId u a = some v →
    Migrates u a → v.redis.held (writeKey tenantId customerId) = u.redis.held (legacyKey customerId)

/-- A transaction that copies writes the balance and the hold that the legacy budget still has, and
the tenant budget does not exist yet. -/
def UpToDate (r : Redis) : Client → Prop
  | .committing _ (some copied) =>
    copied.balanceUsd = (r.budgets (legacyKey customerId)).balanceUsd ∧
      copied.heldUsd = (r.budgets (legacyKey customerId)).heldUsd ∧
      (r.budgets (writeKey tenantId customerId)).present = false
  | _ => True

instance (r : Redis) : DecidablePred (UpToDate tenantId customerId r)
  | .committing _ (some _) => inferInstanceAs (Decidable (_ ∧ _ ∧ _))
  | .committing _ none | .idle | .locating .. | .located .. | .found .. | .copying .. => isTrue trivial

def Undisturbed (s : State) : Action → Prop
  | .advance i => UpToDate tenantId customerId s.redis (s.clients i)
  | _ => True

instance (s : State) : DecidablePred (Undisturbed tenantId customerId s)
  | .advance i => inferInstanceAs (Decidable (UpToDate tenantId customerId s.redis (s.clients i)))
  | .topUp .. | .window _ | .openHold .. | .settle .. => isTrue trivial

def Client.amount : Client → Option ℚ
  | .idle => none
  | .locating amount _ | .located amount _ | .found amount _ | .copying amount _ _ _ |
    .committing amount _ => some amount

/-- What a run keeps: a call under way has the amount that it was asked for, and one that copies
nothing has found a tenant balance. -/
structure Kept (asked : ℕ → ℚ) (s : State) : Prop where
  amount : ∀ i, ∀ amount ∈ (s.clients i).amount, asked i = amount
  committing : ∀ i amount, s.clients i = .committing amount none →
    (s.redis.budgets (writeKey tenantId customerId)).balanceUsd.isSome

end Model

/-! ### The scripts -/

theorem openScript_balanceUsd (r : Redis) (budget : BudgetKey) (span : Option SpanKey) (a : OpenArgs)
    (j : BudgetKey) : ((openScript r budget span a).1.budgets j).balanceUsd =
      (r.budgets j).balanceUsd := by
  rcases openScript_cases r budget span a with ⟨-, hsame⟩ | ⟨_, r₁, _, _, -, -, -, -, hspan, hnew⟩
  · rw [hsame]
  · obtain ⟨hbudgets, -⟩ := admitSpan_frame hspan
    have hheld := r₁.balanceUsd_incrHeld j budget a.estimate
    rw [hnew]
    rw [hbudgets] at hheld
    exact hheld

theorem closeScript_balanceUsd (r : Redis) (id : String) (b : BudgetKey) (span : Option SpanKey)
    (j : BudgetKey) : ((closeScript r id b span).1.budgets j).balanceUsd =
      (r.budgets j).balanceUsd := by
  unfold closeScript
  cases r.reservations.get id with
  | none => rfl
  | some record =>
    change ((releaseHold r b span record.reservedUsd).1.budgets j).balanceUsd = _
    rw [releaseHold_budgets]

private theorem deductionOf_sinkReply (threshold newBalance balance : ℚ) :
    deductionOf (sinkReply threshold newBalance balance) = balance - newBalance := by
  unfold sinkReply
  split_ifs
  · rfl
  · rfl
  · rfl

theorem sinkScript_balanceUsd (r : Redis) (k : SinkKeys) (a : SinkArgs) (j : BudgetKey) :
    ((sinkScript r k a).1.budgets j).balanceUsd =
      (r.budgets j).balanceUsd.map fun balance =>
        balance - if k.budget = j then deductionOf (sinkScript r k a).2 else 0 := by
  have hsame : ∀ v : Option ℚ, v = v.map fun balance => balance - 0 := by
    intro v
    cases v with
    | none => rfl
    | some balance => rw [Option.map_some, sub_zero]
  by_cases hj : k.budget = j
  · subst hj
    rw [if_pos rfl]
    have hbalance : ((settleWindow (recordWindow r k a) k).budgets k.budget).balanceUsd =
        (r.budgets k.budget).balanceUsd := by
      rw [(settleWindow_removes _ k).balances, recordWindow_budgets]
    unfold sinkScript
    split_ifs
    · exact hsame _
    · dsimp only
      rw [hbalance]
      cases hrow : (r.budgets k.budget).balanceUsd with
      | none => exact hbalance.trans hrow
      | some balance =>
        obtain ⟨newBalance, hnew⟩ := Option.isSome_iff_exists.mp (deduct_balanceUsd_isSome
          ((settleWindow (recordWindow r k a) k).budgets k.budget) balance a.costUsd)
        dsimp only
        rw [Redis.setBudget_self, deductionOf_sinkReply, hnew, number_some, Option.map_some,
          sub_sub_cancel]
  · rw [if_neg hj, (sinkScript_other a fun heq => hj heq.symm).1]
    exact hsame _

section Kept
variable {tenantId : Option String} {customerId : String} {asked : ℕ → ℚ} {s t : State} {i : ℕ}

theorem balanceInForce_eq (r : Redis) : balanceInForce tenantId customerId r =
    number (r.budgets (keyInForce tenantId customerId r)).balanceUsd := by
  unfold balanceInForce keyInForce
  cases hrow : (r.budgets (writeKey tenantId customerId)).balanceUsd with
  | none => rfl
  | some balance =>
    rw [Option.isSome_some, if_pos rfl, hrow]
    rfl

theorem kept_idle (asked : ℕ → ℚ) (h : ∀ i, s.clients i = .idle) : Kept tenantId customerId asked s where
  amount i amount hamount := by
    rw [h] at hamount
    cases hamount
  committing i amount hclient := by
    rw [h] at hclient
    cases hclient

theorem Kept.become (h : Kept tenantId customerId asked s) {client : Client}
    (hamount : ∀ amount ∈ client.amount, asked i = amount)
    (hclient : ∀ amount, client = .committing amount none →
      (s.redis.budgets (writeKey tenantId customerId)).balanceUsd.isSome) :
    Kept tenantId customerId asked (s.become i client) where
  amount j amount hj := by
    by_cases hij : j = i
    · subst hij
      change amount ∈ (Function.update s.clients j client j).amount at hj
      rw [Function.update_self] at hj
      exact hamount amount hj
    · change amount ∈ (Function.update s.clients i client j).amount at hj
      rw [Function.update_of_ne hij] at hj
      exact h.amount j amount hj
  committing j amount hj := by
    rcases of_update_eq hj with ⟨-, hnew⟩ | hbefore
    · exact hclient amount hnew
    · exact h.committing j amount hbefore

theorem Kept.of_balances (h : Kept tenantId customerId asked s) {r : Redis}
    (hsame : ∀ j, (r.budgets j).balanceUsd.isSome = (s.redis.budgets j).balanceUsd.isSome) :
    Kept tenantId customerId asked { s with redis := r } where
  amount := h.amount
  committing j amount hj := by
    rw [hsame]
    exact h.committing j amount hj

theorem invoke_balanceUsd (r : Redis) (agg : UsageAggregate) (j : BudgetKey) :
    ((invoke r agg).1.budgets j).balanceUsd = (r.budgets j).balanceUsd.map fun balance =>
      balance - if (sinkKeys agg).budget = j then deductionOf (invoke r agg).2 else 0 :=
  sinkScript_balanceUsd r (sinkKeys agg) (sinkArgs agg) j

theorem isSome_invoke (r : Redis) (agg : UsageAggregate) (j : BudgetKey) :
    ((invoke r agg).1.budgets j).balanceUsd.isSome = (r.budgets j).balanceUsd.isSome := by
  rw [invoke_balanceUsd, Option.isSome_map]

theorem balance_window (r : Redis) (agg : UsageAggregate) :
    balanceInForce tenantId customerId (invoke r agg).1 = balanceInForce tenantId customerId r -
      if (sinkKeys agg).budget = keyInForce tenantId customerId r then deductionOf (invoke r agg).2
      else 0 := by
  have hkey : keyInForce tenantId customerId (invoke r agg).1 = keyInForce tenantId customerId r := by
    unfold keyInForce
    rw [isSome_invoke]
  rw [balanceInForce_eq, balanceInForce_eq, hkey, invoke_balanceUsd]
  cases hrow : (r.budgets (keyInForce tenantId customerId r)).balanceUsd with
  | some balance => rw [Option.map_some, number_some, number_some]
  | none =>
    have hnothing : (sinkKeys agg).budget = keyInForce tenantId customerId r →
        deductionOf (invoke r agg).2 = 0 := by
      intro heq
      unfold invoke sinkScript
      split_ifs
      · rfl
      · dsimp only
        rw [(settleWindow_removes _ _).balances, recordWindow_budgets, heq]
        dsimp only
        rw [hrow]
        rfl
    rw [Option.map_none]
    split_ifs with heq
    · rw [hnothing heq, sub_zero]
    · rw [sub_zero]

theorem orElse_absent (v : Option ℚ) : (v <|> none) = v := by
  cases v with
  | none => rfl
  | some q => rfl

theorem balance_commit (h : Kept tenantId customerId asked s) {amount : ℚ} {copied : Option BudgetRow}
    (hclient : s.clients i = .committing amount copied)
    (hdate : UpToDate tenantId customerId s.redis (.committing amount copied)) :
    balanceInForce tenantId customerId (commit tenantId customerId s i amount copied).redis =
      balanceInForce tenantId customerId s.redis + amount := by
  unfold commit balanceInForce BudgetRow.topUp
  cases copied with
  | none =>
    obtain ⟨balance, hbalance⟩ := Option.isSome_iff_exists.mp (h.committing i amount hclient)
    dsimp only
    rw [Redis.setBudget_self, hbalance]
    rfl
  | some copied =>
    obtain ⟨hbalance, -, habsent⟩ := hdate
    unfold BudgetRow.present at habsent
    rw [Bool.or_eq_false_iff, Option.isSome_eq_false_iff, Option.isNone_iff_eq_none] at habsent
    unfold migrate
    dsimp only
    rw [Redis.setBudget_self, hbalance, habsent.1, orElse_absent]
    rfl

theorem held_commit {amount : ℚ} {copied : BudgetRow}
    (hdate : UpToDate tenantId customerId s.redis (.committing amount (some copied))) :
    (commit tenantId customerId s i amount (some copied)).redis.held (writeKey tenantId customerId) =
      s.redis.held (legacyKey customerId) := by
  obtain ⟨-, hheld, habsent⟩ := hdate
  unfold BudgetRow.present at habsent
  rw [Bool.or_eq_false_iff, Option.isSome_eq_false_iff, Option.isSome_eq_false_iff,
    Option.isNone_iff_eq_none, Option.isNone_iff_eq_none] at habsent
  unfold commit Redis.held BudgetRow.topUp migrate
  dsimp only
  rw [Redis.setBudget_self]
  dsimp only
  rw [hheld, habsent.2, orElse_absent]

theorem kept_commit (h : Kept tenantId customerId asked s) (amount : ℚ) (copied : Option BudgetRow) :
    Kept tenantId customerId asked (commit tenantId customerId s i amount copied) where
  amount j amount' hj := by
    by_cases hij : j = i
    · subst hij
      change amount' ∈ (Function.update s.clients j .idle j).amount at hj
      rw [Function.update_self] at hj
      cases hj
    · change amount' ∈ (Function.update s.clients i .idle j).amount at hj
      rw [Function.update_of_ne hij] at hj
      exact h.amount j amount' hj
  committing j amount' _ := by
    unfold commit
    dsimp only
    rw [Redis.setBudget_self]
    rfl

theorem locate_ne (amount : ℚ) (rest : List Probe) (amount' : ℚ) :
    locate tenantId customerId amount rest ≠ .committing amount' none := by
  cases rest with
  | nil => simp [locate]
  | cons probe rest => simp [locate]

theorem locate_amount (amount : ℚ) (rest : List Probe) :
    (locate tenantId customerId amount rest).amount = some amount := by
  cases rest <;> rfl

theorem copy_ne (amount : ℚ) (readKey : BudgetKey) (copied : BudgetRow) (rest : List Suffix)
    (amount' : ℚ) : copy amount readKey copied rest ≠ .committing amount' none := by
  cases rest with
  | nil => simp [copy]
  | cons suffix rest => simp [copy]

theorem copy_amount (amount : ℚ) (readKey : BudgetKey) (copied : BudgetRow) (rest : List Suffix) :
    (copy amount readKey copied rest).amount = some amount := by
  cases rest <;> rfl

/-- A command of a call either reads, or it is the transaction. -/
theorem advance_cases (h : Kept tenantId customerId asked s)
    (hstep : advance tenantId customerId s i (s.clients i) = some t) :
    (t.redis = s.redis ∧ Kept tenantId customerId asked t ∧ returns s (.advance i) = none ∧
      ¬ Migrates s (.advance i)) ∨
    ∃ amount copied, s.clients i = .committing amount copied ∧ asked i = amount ∧
      t = commit tenantId customerId s i amount copied := by
  have hreads : ∀ client, (∀ amount copied, s.clients i ≠ .committing amount copied) →
      (∀ amount ∈ client.amount, asked i = amount) →
      (∀ amount, client = .committing amount none →
        (s.redis.budgets (writeKey tenantId customerId)).balanceUsd.isSome) →
      t = s.become i client →
      t.redis = s.redis ∧ Kept tenantId customerId asked t ∧ returns s (.advance i) = none ∧
        ¬ Migrates s (.advance i) := by
    rintro client hbefore hamount hcommitting rfl
    refine ⟨rfl, h.become hamount hcommitting, ?_, ?_⟩
    · unfold returns
      dsimp only
      split
      next amount copied hclient => exact absurd hclient (hbefore amount copied)
      next => rfl
    · rintro ⟨amount, copied, hclient⟩
      exact hbefore amount (some copied) hclient
  have hasked := h.amount i
  cases hclient : s.clients i with
  | idle =>
    rw [hclient] at hstep
    cases hstep
  | locating amount rest =>
    rw [hclient] at hstep hasked
    cases rest with
    | nil => cases hstep
    | cons probe rest =>
      refine .inl (hreads _ (by simp [hclient]) ?_ ?_ (Option.some.inj hstep).symm)
      · split_ifs
        · exact hasked
        · rw [locate_amount]
          exact hasked
      · intro amount' hnext
        split_ifs at hnext
        exact absurd hnext (locate_ne amount rest amount')
  | located amount readKey =>
    rw [hclient] at hstep hasked
    refine .inl (hreads _ (by simp [hclient]) ?_ ?_ (Option.some.inj hstep).symm)
    · split_ifs
      · intro amount' hnone
        cases hnone
      · exact hasked
      · exact hasked
    · intro amount' hnext
      split_ifs at hnext with hnone hkey
      rw [← not_not.mp hkey]
      exact Option.isSome_iff_ne_none.mpr fun heq => hnone (Option.isNone_iff_eq_none.mpr heq)
  | found amount readKey =>
    rw [hclient] at hstep hasked
    refine .inl (hreads _ (by simp [hclient]) ?_ ?_ (Option.some.inj hstep).symm)
    · split_ifs
      · exact hasked
      · rw [copy_amount]
        exact hasked
    · intro amount' hnext
      split_ifs at hnext with hsome
      · exact hsome
      · exact absurd hnext (copy_ne amount readKey {} suffixes amount')
  | copying amount readKey copied rest =>
    rw [hclient] at hstep hasked
    cases rest with
    | nil => cases hstep
    | cons suffix rest =>
      refine .inl (hreads _ (by simp [hclient]) ?_ ?_ (Option.some.inj hstep).symm)
      · rw [copy_amount]
        exact hasked
      · exact fun amount' hnext => absurd hnext (copy_ne _ _ _ _ amount')
  | committing amount copied =>
    rw [hclient] at hstep hasked
    exact .inr ⟨amount, copied, rfl, hasked amount rfl, (Option.some.inj hstep).symm⟩

theorem kept_step {a : Action} (h : Kept tenantId customerId asked s)
    (hundisturbed : Undisturbed tenantId customerId s a)
    (hstep : step tenantId customerId s a = some t) :
    Kept tenantId customerId (a.ask asked) t ∧
      balanceInForce tenantId customerId t.redis = balanceInForce tenantId customerId s.redis +
        ((returns s a).map asked).getD 0 - takes tenantId customerId s a := by
  have hscript : ∀ r : Redis, (∀ j, (r.budgets j).balanceUsd = (s.redis.budgets j).balanceUsd) →
      Kept tenantId customerId asked { s with redis := r } ∧
        balanceInForce tenantId customerId r =
          balanceInForce tenantId customerId s.redis + 0 - 0 := by
    intro r hsame
    refine ⟨h.of_balances fun j => by rw [hsame], ?_⟩
    unfold balanceInForce
    rw [hsame, hsame, add_zero, sub_zero]
  cases a with
  | topUp i amount =>
    unfold step at hstep
    dsimp only at hstep
    split at hstep
    next hidle =>
      split_ifs at hstep
      obtain rfl := Option.some.inj hstep
      have hasks : Kept tenantId customerId (Function.update asked i amount) s := by
        refine ⟨fun j amount' hj => ?_, h.committing⟩
        rw [Function.update_of_ne]
        · exact h.amount j amount' hj
        · rintro rfl
          rw [hidle] at hj
          cases hj
      refine ⟨hasks.become ?_ fun amount' hnext => absurd hnext (locate_ne _ _ amount'), ?_⟩
      · rw [locate_amount]
        intro amount' hmem
        cases hmem
        exact Function.update_self i amount asked
      · show _ = _ + 0 - 0
        rw [add_zero, sub_zero]
        rfl
    next => cases hstep
  | advance i =>
    rcases advance_cases h hstep with ⟨hredis, hkept, hreturns, -⟩ | ⟨amount, copied, hclient, hasked, rfl⟩
    · refine ⟨hkept, ?_⟩
      rw [hredis, hreturns]
      show _ = _ + 0 - 0
      rw [add_zero, sub_zero]
    · refine ⟨kept_commit h amount copied, ?_⟩
      have hdate : UpToDate tenantId customerId s.redis (s.clients i) := hundisturbed
      rw [hclient] at hdate
      have hreturns : returns s (.advance i) = some i := by
        unfold returns
        dsimp only
        rw [hclient]
      rw [balance_commit h hclient hdate, hreturns, ← hasked]
      exact (sub_zero _).symm
  | window agg =>
    obtain rfl := Option.some.inj hstep
    refine ⟨h.of_balances (isSome_invoke s.redis agg), ?_⟩
    show balanceInForce tenantId customerId (invoke s.redis agg).1 = _ + 0 - _
    rw [add_zero]
    exact balance_window s.redis agg
  | openHold budget span args =>
    obtain rfl := Option.some.inj hstep
    exact hscript _ (openScript_balanceUsd s.redis budget span args)
  | settle reservationId heldKey spanHeldKey =>
    obtain rfl := Option.some.inj hstep
    exact hscript _ (closeScript_balanceUsd s.redis reservationId heldKey spanHeldKey)

private theorem carried_step {a : Action} (h : Kept tenantId customerId asked s)
    (hundisturbed : Undisturbed tenantId customerId s a)
    (hstep : step tenantId customerId s a = some t) (hmigrates : Migrates s a) :
    t.redis.held (writeKey tenantId customerId) = s.redis.held (legacyKey customerId) := by
  cases a with
  | advance i =>
    rcases advance_cases h hstep with ⟨-, -, -, hreads⟩ | ⟨amount, copied, hclient, -, rfl⟩
    · exact absurd hmigrates hreads
    · have hdate : UpToDate tenantId customerId s.redis (s.clients i) := hundisturbed
      obtain ⟨amount', copied', hcopied⟩ := hmigrates
      rw [hclient] at hcopied hdate
      cases hcopied
      exact held_commit hdate
  | _ => exact hmigrates.elim

/-- The sums of a run are the change of the balance in force. -/
theorem balance_run {as : List Action} (h : Kept tenantId customerId asked s)
    (hundisturbed : Guarded (step tenantId customerId) (Undisturbed tenantId customerId) s as)
    (hrun : run (step tenantId customerId) s as = some t) :
    balanceInForce tenantId customerId t.redis = balanceInForce tenantId customerId s.redis +
      toppedUp tenantId customerId s asked as - deducted tenantId customerId s as := by
  induction as generalizing s asked with
  | nil =>
    obtain rfl := Option.some.inj hrun
    show _ = _ + 0 - 0
    rw [add_zero, sub_zero]
  | cons a as ih =>
    obtain ⟨u, hu, hrest⟩ := run_cons_eq_some.mp hrun
    obtain ⟨hkept, hbalance⟩ := kept_step h hundisturbed.1 hu
    rw [ih hkept (hundisturbed.2 u hu) hrest, hbalance]
    have htopped : toppedUp tenantId customerId s asked (a :: as) =
        ((returns s a).map asked).getD 0 + toppedUp tenantId customerId u (a.ask asked) as := by
      rw [toppedUp, hu]
      rfl
    have hdeducted : deducted tenantId customerId s (a :: as) =
        takes tenantId customerId s a + deducted tenantId customerId u as := by
      rw [deducted, hu]
      rfl
    rw [htopped, hdeducted]
    ring

theorem carried_run {as : List Action} (h : Kept tenantId customerId asked s)
    (hundisturbed : Guarded (step tenantId customerId) (Undisturbed tenantId customerId) s as)
    {before rest : List Action} {a : Action} {u v : State} (has : as = before ++ a :: rest)
    (hbefore : run (step tenantId customerId) s before = some u)
    (hstep : step tenantId customerId u a = some v) (hmigrates : Migrates u a) :
    v.redis.held (writeKey tenantId customerId) = u.redis.held (legacyKey customerId) := by
  subst has
  induction before generalizing s asked with
  | nil =>
    obtain rfl := Option.some.inj hbefore
    exact carried_step h hundisturbed.1 hstep hmigrates
  | cons b before ih =>
    obtain ⟨w, hw, hrest⟩ := run_cons_eq_some.mp hbefore
    exact ih (kept_step h hundisturbed.1 hw).1 hrest (hundisturbed.2 w hw)

end Kept

section Alone
variable {tenantId : Option String} {customerId : String} {s t : State} {i : ℕ} {r : Redis}
  {amount : ℚ} {readKey : BudgetKey}

/-- Left alone, the client leaves the store `r`. -/
def Finishes (tenantId : Option String) (customerId : String) (s : State) (i : ℕ) (r : Redis) : Prop :=
  ∃ t, Leads (step tenantId customerId) (.advance i) s t ∧ t.clients i = .idle ∧ t.redis = r

theorem become_clients (client : Client) : (s.become i client).clients i = client :=
  Function.update_self (β := fun _ => Client) i client s.clients

theorem become_redis (client : Client) : (s.become i client).redis = s.redis := rfl

theorem commit_redis (copied : Option BudgetRow) :
    (commit tenantId customerId s i amount copied).redis =
      s.redis.setBudget (writeKey tenantId customerId)
        (BudgetRow.topUp (match copied with
          | none => s.redis.budgets (writeKey tenantId customerId)
          | some copied => migrate copied (s.redis.budgets (writeKey tenantId customerId))) amount) :=
  rfl

theorem finishes_next {client : Client} (hclient : s.clients i = client)
    (hstep : advance tenantId customerId s i client = some t)
    (h : Finishes tenantId customerId t i r) : Finishes tenantId customerId s i r := by
  obtain ⟨u, hleads, hrest⟩ := h
  have hfirst : step tenantId customerId s (.advance i) = some t := by
    unfold step
    dsimp only
    rw [hclient, hstep]
  exact ⟨u, hleads.head hfirst, hrest⟩

theorem finishes_committing {copied : Option BudgetRow}
    (hclient : s.clients i = .committing amount copied) :
    Finishes tenantId customerId s i (commit tenantId customerId s i amount copied).redis :=
  finishes_next hclient rfl ⟨_, Leads.refl _ _,
    Function.update_self (β := fun _ => Client) i .idle s.clients, rfl⟩

private theorem finishes_copy (rest : List Suffix) {copied : BudgetRow}
    (hclient : s.clients i = copy amount readKey copied rest) :
    Finishes tenantId customerId s i (commit tenantId customerId s i amount
      (some (rest.foldl (copySuffix (s.redis.budgets readKey)) copied))).redis := by
  induction rest generalizing s copied with
  | nil => exact finishes_committing hclient
  | cons suffix rest ih => exact finishes_next hclient rfl (ih (become_clients _))

private theorem foldl_copySuffix (row : BudgetRow) : suffixes.foldl (copySuffix row) {} = row := by
  cases row
  rfl

theorem finishes_found (hclient : s.clients i = .found amount readKey) :
    Finishes tenantId customerId s i (commit tenantId customerId s i amount
      (if (s.redis.budgets (writeKey tenantId customerId)).balanceUsd.isSome then none
        else some (s.redis.budgets readKey))).redis := by
  refine finishes_next hclient rfl ?_
  split_ifs
  · exact finishes_committing (become_clients _)
  · have hcopy := @finishes_copy tenantId customerId _ i amount readKey suffixes {}
      (@become_clients s i (copy amount readKey {} suffixes))
    rw [foldl_copySuffix] at hcopy
    exact hcopy

theorem finishes_locate (rest : List Probe) (hclient : s.clients i = locate tenantId customerId amount
      rest)
    (h : ∀ s' : State, s'.redis = s.redis → s'.clients i = .located amount
      (((rest.find? (Probe.found s.redis)).map Probe.key).getD (writeKey tenantId customerId)) →
      Finishes tenantId customerId s' i r) : Finishes tenantId customerId s i r := by
  induction rest generalizing s with
  | nil => exact h s rfl hclient
  | cons probe rest ih =>
    refine finishes_next hclient rfl ?_
    cases hfound : probe.found s.redis with
    | true =>
      rw [List.find?_cons_of_pos hfound] at h
      exact h _ rfl (become_clients _)
    | false =>
      rw [List.find?_cons_of_neg (by simp [hfound])] at h
      exact ih (become_clients _) h

theorem find_probes (r : Redis) :
    (((probes tenantId customerId).find? (Probe.found r)).map Probe.key).getD
      (writeKey tenantId customerId) = budgetPrefixForRead r (stripTenant tenantId) customerId := by
  unfold probes budgetPrefixForRead BudgetRow.present
  cases Py.hasTenant (stripTenant tenantId) with
  | false => rfl
  | true =>
    rw [if_pos rfl]
    simp only [List.find?_cons, List.find?_nil, Probe.found]
    unfold writeKey legacyKey
    cases (r.budgets (budgetPrefix (stripTenant tenantId) customerId)).balanceUsd.isSome with
    | true => rfl
    | false =>
      cases (r.budgets (budgetPrefix (stripTenant tenantId) customerId)).heldUsd.isSome with
      | true => rfl
      | false =>
        cases (r.budgets ⟨none, customerId⟩).balanceUsd.isSome with
        | true => rfl
        | false => cases (r.budgets ⟨none, customerId⟩).heldUsd.isSome <;> rfl

def afterTopUp (r : Redis) (tenantId : Option String) (customerId : String) (amount : ℚ) : Redis :=
  match topUp r tenantId customerId amount with
  | .ok (r', _) => r'
  | .error _ => r

private theorem afterTopUp_of_balance {r : Redis} (hpos : 0 < amount)
    (hbalance : (r.budgets (budgetPrefixForRead r (stripTenant tenantId) customerId)).balanceUsd.isSome) :
    afterTopUp r tenantId customerId amount = r.setBudget (writeKey tenantId customerId)
      (BudgetRow.topUp (if budgetPrefixForRead r (stripTenant tenantId) customerId ≠
            writeKey tenantId customerId ∧
            (r.budgets (writeKey tenantId customerId)).balanceUsd.isNone then
          migrate (r.budgets (budgetPrefixForRead r (stripTenant tenantId) customerId))
            (r.budgets (writeKey tenantId customerId))
        else r.budgets (writeKey tenantId customerId)) amount) := by
  obtain ⟨balance, hsome⟩ := Option.isSome_iff_exists.mp hbalance
  unfold afterTopUp topUp
  dsimp only
  rw [if_neg (not_le.mpr hpos), hsome]
  rfl

private theorem finishes_located (hpos : 0 < amount) (hclient : s.clients i = .located amount
      (budgetPrefixForRead s.redis (stripTenant tenantId) customerId)) :
    Finishes tenantId customerId s i (afterTopUp s.redis tenantId customerId amount) := by
  refine finishes_next hclient rfl ?_
  cases hbalance : (s.redis.budgets (budgetPrefixForRead s.redis (stripTenant tenantId)
      customerId)).balanceUsd with
  | none =>
    refine ⟨_, Leads.refl _ _, become_clients _, ?_⟩
    unfold afterTopUp topUp
    dsimp only
    rw [if_neg (not_le.mpr hpos), hbalance]
    rfl
  | some balance =>
    rw [afterTopUp_of_balance hpos (by rw [hbalance]; rfl), Option.isNone_some, if_neg (by simp)]
    by_cases hkey : budgetPrefixForRead s.redis (stripTenant tenantId) customerId ≠
        writeKey tenantId customerId
    · rw [if_pos hkey]
      have hfound := @finishes_found tenantId customerId _ i amount _ (@become_clients s i
        (.found amount (budgetPrefixForRead s.redis (stripTenant tenantId) customerId)))
      rw [commit_redis, become_redis] at hfound
      cases hown : (s.redis.budgets (writeKey tenantId customerId)).balanceUsd with
      | some own =>
        rw [hown, Option.isSome_some, if_pos rfl] at hfound
        rw [Option.isNone_some, if_neg (by simp)]
        exact hfound
      | none =>
        rw [hown, Option.isSome_none, if_neg (by simp)] at hfound
        rw [Option.isNone_none, if_pos ⟨hkey, rfl⟩]
        exact hfound
    · rw [if_neg hkey, if_neg fun hmove => hkey hmove.1]
      exact finishes_committing (become_clients _)

/-- A call that no other command interrupts is `topUp`. -/
theorem topUp_alone (hidle : s.clients i = .idle) (hpos : 0 < amount) :
    ∃ t, step tenantId customerId s (.topUp i amount) = some t ∧
      Finishes tenantId customerId t i (afterTopUp s.redis tenantId customerId amount) := by
  refine ⟨s.become i (locate tenantId customerId amount (probes tenantId customerId)), ?_, ?_⟩
  · unfold step
    dsimp only
    rw [hidle]
    exact if_neg (not_le.mpr hpos)
  · refine finishes_locate (probes tenantId customerId) (become_clients _) fun s' hredis hclient => ?_
    change s'.redis = s.redis at hredis
    change s'.clients i = .located amount (((probes tenantId customerId).find?
      (Probe.found s.redis)).map Probe.key |>.getD (writeKey tenantId customerId)) at hclient
    rw [find_probes, ← hredis] at hclient
    rw [← hredis]
    exact finishes_located hpos hclient

end Alone

/-- Where no transaction of a migration overwrites what changed since its reads, no top-up and no
deduction is lost and the hold is carried over. -/
theorem topUps_never_lost (tenantId : Option String) (customerId : String) {s t : State}
    {as : List Action} (hidle : ∀ i, s.clients i = .idle)
    (hundisturbed : Guarded (step tenantId customerId) (Undisturbed tenantId customerId) s as)
    (hrun : run (step tenantId customerId) s as = some t) :
    NothingLost tenantId customerId s as t where
  balance := balance_run (kept_idle _ hidle) hundisturbed hrun
  carried _ _ _ _ _ has hbefore hstep hmigrates :=
    carried_run (kept_idle (fun _ => 0) hidle) hundisturbed has hbefore hstep hmigrates

/-- A legacy budget of 10 of the customer `c1`. -/
def legacyTen : State :=
  { redis := { budgets := fun k => if k = ⟨none, "c1"⟩ then
      { balanceUsd := some 10, heldUsd := some 0 } else {} } }

/-- A window of the tenant `t` and the customer `c1`, for two dollars. -/
def windowOfC1 : UsageAggregate :=
  { tenantId := some "t", customerId := some "c1", modelId := some "m", costMicro := 2000000 }

def holdOfC1 : OpenArgs where
  reservationId := "r1"
  customerId := "c1"
  tenantId := "t"
  parentSpanId := ""
  estimate := 4
  deadline := 0

/-- A hold on the legacy budget, a top-up that migrates it, and a window. -/
def alone : List Action :=
  .openHold ⟨none, "c1"⟩ none holdOfC1 :: .topUp 0 5 :: List.replicate 14 (.advance 0) ++
    [.window windowOfC1]

theorem topUps_never_lost_alone : ∃ t, run (step (some "t") "c1") legacyTen alone = some t ∧
    toppedUp (some "t") "c1" legacyTen (fun _ => 0) alone = 5 ∧
    NothingLost (some "t") "c1" legacyTen alone t := by
  obtain ⟨t, hrun⟩ : ∃ t, run (step (some "t") "c1") legacyTen alone = some t :=
    Option.isSome_iff_exists.mp (by decide +kernel)
  exact ⟨t, hrun, by decide +kernel,
    topUps_never_lost (some "t") "c1" (fun _ => rfl) (by decide +kernel) hrun⟩

/-- Two calls copy the legacy budget of 10 before either has written. -/
def crossed : List Action :=
  .topUp 0 5 :: List.replicate 13 (.advance 0) ++
    (.topUp 1 7 :: List.replicate 14 (.advance 1) ++ [.advance 0])

/-- A call copies the legacy budget before a hold is opened on it. -/
def openedLate : List Action :=
  .topUp 0 5 :: List.replicate 13 (.advance 0) ++ [.openHold ⟨none, "c1"⟩ none holdOfC1]

/-- The second transaction drops the top-up of the first, and a hold opened after the copy is not
carried over. -/
theorem not_topUps_never_lost :
    (∃ t, run (step (some "t") "c1") legacyTen crossed = some t ∧
      balanceInForce (some "t") "c1" t.redis = 15 ∧
      toppedUp (some "t") "c1" legacyTen (fun _ => 0) crossed = 12 ∧
      ¬ NothingLost (some "t") "c1" legacyTen crossed t) ∧
    ∃ t, run (step (some "t") "c1") legacyTen (openedLate ++ [.advance 0]) = some t ∧
      ¬ NothingLost (some "t") "c1" legacyTen (openedLate ++ [.advance 0]) t := by
  constructor
  · have hcrossed : (run (step (some "t") "c1") legacyTen crossed).map (fun t =>
        balanceInForce (some "t") "c1" t.redis) = some 15 := by decide +kernel
    obtain ⟨t, hrun, hbalance⟩ := Option.map_eq_some_iff.mp hcrossed
    refine ⟨t, hrun, hbalance, by decide +kernel, fun h => ?_⟩
    have hsum := h.balance
    rw [hbalance] at hsum
    revert hsum
    decide +kernel
  · obtain ⟨t, hrun⟩ : ∃ t, run (step (some "t") "c1") legacyTen (openedLate ++ [.advance 0]) =
        some t := Option.isSome_iff_exists.mp (by decide +kernel)
    refine ⟨t, hrun, fun h => ?_⟩
    have hlate : ((run (step (some "t") "c1") legacyTen openedLate).bind fun u =>
        (step (some "t") "c1" u (.advance 0)).map fun v => (u.clients 0,
          v.redis.held (writeKey (some "t") "c1"), u.redis.held (legacyKey "c1"))) =
        some (.committing 5 (some { balanceUsd := some 10, heldUsd := some 0 }), 0, 4) := by
      decide +kernel
    obtain ⟨u, hu, hv⟩ := Option.bind_eq_some_iff.mp hlate
    obtain ⟨v, hv, hheld⟩ := Option.map_eq_some_iff.mp hv
    obtain ⟨hclient, hheld⟩ := Prod.mk.inj hheld
    obtain ⟨htenant, hlegacy⟩ := Prod.mk.inj hheld
    have hcarried := h.carried openedLate (.advance 0) [] u v rfl hu hv ⟨5, _, hclient⟩
    rw [htenant, hlegacy] at hcarried
    norm_num at hcarried

end FluxMeter.Budget.Migration
