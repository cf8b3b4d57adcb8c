import FluxMeter.Budget.Check
import FluxMeter.Budget.Settlement
import FluxMeter.Keys.Shapes

/-! The operations of one tenant on the shared store and the shared cache: without legacy keys each
of them writes the tenant's own keys and reservations only. -/
namespace FluxMeter.Budget
open Collections FluxMeter.Keys

inductive BudgetCall
  | configure (customerId : String) (balanceUsd : ℚ) (alertThresholdUsd : Option ℚ)
      (maxRpm : Option ℤ)
  | topUp (customerId : String) (amountUsd : ℚ)
  | check (a : CheckArgs) (fault : Option RedisFault)
  | openHold (reservationId customerId : String) (estimate : ℚ) (parentSpanId : Option String)
      (expiresAt : Option ℚ) (clock : ℚ)
  | reserve (customerId : String) (estimate : ℚ) (parentSpanId : Option String)
  | reconcile (customerId : String) (reservedUsd : ℚ) (parentSpanId : Option String)
  | settle (reservationId : String)
  | refresh (reservationId : String) (expiresAt : Option ℚ) (clock : ℚ)

inductive Reply
  | configured (snapshot : Option Snapshot)
  | invalidBudget
  | budgetNotFound
  | toppedUp (newBalanceUsd : ℚ)
  | decision (d : Decision)
  | opened (reply : OpenReply)
  | reserved (reply : ReserveReply)
  | reconciled (balance held released : ℚ)
  | settled (released : ℚ)
  | refreshed (found : Bool)
  deriving DecidableEq

namespace Desk

/-- `self._cache.pop(self._cache_key(customer_id), None)`. -/
def forget (s : Desk) (tenantId : Option String) (customerId : String) : Desk :=
  { s with cache := Function.update s.cache (cacheKey (stripTenant tenantId) customerId) none }

def call (s : Desk) (tenantId : Option String) : BudgetCall → Desk × Reply
  | .configure c balance alert rpm =>
    match configure s.toRedis tenantId c balance alert rpm with
    | none => (s, .invalidBudget)
    | some r => ({ s with toRedis := r }.forget tenantId c, .configured (snapshot r tenantId c))
  | .topUp c amount =>
    match topUp s.toRedis tenantId c amount with
    | .error .invalidBudget => (s, .invalidBudget)
    | .error .budgetNotFound => (s, .budgetNotFound)
    | .ok (r, newBalance) => ({ s with toRedis := r }.forget tenantId c, .toppedUp newBalance)
  | .check a fault =>
    let (s', d) := check s tenantId a fault
    (s', .decision d)
  | .openHold rid c estimate parent expiresAt clock =>
    let (r, reply) := Reservation.openHold s.toRedis tenantId rid c estimate parent expiresAt clock
    ({ s with toRedis := r }, .opened reply)
  | .reserve c estimate parent =>
    let (r, reply) := Reservation.reserve s.toRedis tenantId c estimate parent
    ({ s with toRedis := r }, .reserved reply)
  | .reconcile c reserved parent =>
    let (r, balance, held, released) :=
      Reservation.reconcile s.toRedis tenantId c reserved parent
    ({ s with toRedis := r }, .reconciled balance held released)
  | .settle rid =>
    let (r, released) := Reservation.settle s.toRedis rid
    ({ s with toRedis := r }, .settled released)
  | .refresh rid expiresAt clock =>
    let (r, found) := Reservation.refresh s.toRedis rid expiresAt clock
    ({ s with toRedis := r }, .refreshed found)

end Desk

/-- A tenant id without colons and surrounding blanks. -/
structure PlainTenant (t : String) : Prop where
  stripped : strip t = t
  nonempty : t ≠ ""
  noColon : ':' ∉ t.toList

instance (t : String) : Decidable (PlainTenant t) :=
  decidable_of_iff (strip t = t ∧ t ≠ "" ∧ ':' ∉ t.toList)
    ⟨fun ⟨h₁, h₂, h₃⟩ => ⟨h₁, h₂, h₃⟩, fun h => ⟨h.stripped, h.nonempty, h.noColon⟩⟩

namespace PlainTenant
variable {A B : String}

theorem stripTenant (h : PlainTenant A) : stripTenant (some A) = some A := by
  unfold Keys.stripTenant
  dsimp only
  rw [h.stripped, if_neg h.nonempty]

theorem hasTenant (h : PlainTenant A) : Py.hasTenant (some A) = true := by
  unfold Py.hasTenant
  dsimp only
  rw [h.stripped, decide_eq_true_eq]
  exact h.nonempty

theorem not_extends (h : PlainTenant B) : ¬ (A ++ ":").toList <+: B.toList := by
  intro hpre
  apply h.noColon
  apply hpre.subset
  simp [String.toList_append]

/-- Distinct tenants have no key in common. -/
theorem tenantKey_unique (hA : PlainTenant A) (hB : PlainTenant B) {key : String}
    (h : TenantKey A key) (h' : TenantKey B key) : A = B := by
  obtain ⟨rest, rfl⟩ := h
  obtain ⟨rest', heq⟩ := h'
  exact tenant_eq_of_key ⟨hB.not_extends, hA.not_extends⟩ heq

theorem inTenant (h : PlainTenant A) (rest : String) : TenantKey A (Py.inTenant (some A) rest) := by
  unfold Py.inTenant
  dsimp only
  rw [if_pos h.hasTenant]
  exact ⟨rest, rfl⟩

end PlainTenant

/-- The keys of the structured store, as they are rendered, tell the tenants apart. -/
theorem render_tenantKey (A c id : String) :
    TenantKey A (BudgetKey.render ⟨some A, c⟩) ∧ TenantKey A (SpanKey.render ⟨some A, id⟩) := by
  have hbudget : ":budget:" = ":" ++ "budget:" := rfl
  have hspan : ":span:" = ":" ++ "span:" := rfl
  refine ⟨⟨"budget:" ++ c, ?_⟩, ⟨"span:" ++ id, ?_⟩⟩
  · show "tenant:" ++ A ++ ":budget:" ++ c = _
    rw [hbudget]
    simp only [String.append_assoc]
  · show "tenant:" ++ A ++ ":span:" ++ id = _
    rw [hspan]
    simp only [String.append_assoc]

/-- The record holds on keys of its owner, or on legacy keys. -/
structure OwnRecord (owner : String) (record : ReservationRecord) : Prop where
  held : ∀ k ∈ record.heldKey, k.tenant = none ∨ k.tenant = some owner
  span : ∀ k ∈ record.spanHeldKey, k.tenant = none ∨ k.tenant = some owner
  tenant : record.heldKey = none → record.tenantId = "" ∨ record.tenantId = owner

/-- No legacy key exists, and every reservation holds on keys of its owner. -/
structure Clean (owner : String → String) (r : Redis) : Prop where
  budgets : ∀ k : BudgetKey, k.tenant = none → r.budgets k = {}
  spans : ∀ k : SpanKey, k.tenant = none → r.spans k = {}
  records : ∀ rid record, r.reservations.get rid = some record → OwnRecord (owner rid) record

/-- Nothing but the tenant's own keys and reservations changed, and what it opened is its own. -/
structure Confined (owner : String → String) (X : String) (r r' : Redis) : Prop where
  budgets : ∀ k : BudgetKey, k.tenant ≠ some X → r'.budgets k = r.budgets k
  spans : ∀ k : SpanKey, k.tenant ≠ some X → r'.spans k = r.spans k
  records : ∀ rid, owner rid ≠ X → r'.reservations.get rid = r.reservations.get rid
  opened : ∀ rid record, r'.reservations.get rid = some record →
    r.reservations.get rid = some record ∨ OwnRecord (owner rid) record
  ints : ∀ key, ¬ TenantKey X key → r'.usage.ints key = r.usage.ints key
  floats : r'.usage.floats = r.usage.floats

section Store
variable {owner : String → String} {X : String} {r r' r'' : Redis}

/-! ### The keys that a tenant reads -/

theorem readKey_of_clean (h : Clean owner r) (hX : PlainTenant X) (c : String) :
    budgetPrefixForRead r (some X) c = ⟨some X, c⟩ := by
  have hlegacy : (r.budgets ⟨none, c⟩).present = false := by rw [h.budgets _ rfl]; rfl
  unfold budgetPrefixForRead budgetPrefix
  dsimp only
  rw [hX.hasTenant, hlegacy]
  split_ifs <;> simp_all

theorem spanKey_of_clean (h : Clean owner r) (hX : PlainTenant X) (id : String) :
    spanPrefixForRead r (some X) id = ⟨some X, id⟩ := by
  have hlegacy : (r.spans ⟨none, id⟩).present = false := by rw [h.spans _ rfl]; rfl
  unfold spanPrefixForRead spanPrefix
  dsimp only
  rw [hX.hasTenant, hlegacy]
  split_ifs <;> simp_all

def ownSpan (X : String) (parentSpanId : Option String) : Option SpanKey :=
  (given parentSpanId).map fun id => ⟨some X, id⟩

theorem ownSpan_tenant {parent : Option String} : ∀ k ∈ ownSpan X parent, k.tenant = some X := by
  intro k hk
  obtain ⟨id, -, rfl⟩ := Option.map_eq_some_iff.mp hk
  rfl

theorem scope_of_clean (h : Clean owner r) (hX : PlainTenant X) (parent : Option String) :
    Reservation.scope r (some X) parent = ownSpan X parent := by
  unfold Reservation.scope ownSpan given
  cases parent with
  | none => rfl
  | some p =>
    dsimp only
    by_cases hp : p = ""
    · simp [hp, Option.filter]
    · simp [hp, Option.filter, spanKey_of_clean h hX]

/-! ### Writes -/

namespace Confined

theorem refl (owner : String → String) (X : String) (r : Redis) : Confined owner X r r where
  budgets _ _ := rfl
  spans _ _ := rfl
  records _ _ := rfl
  opened _ _ h := .inl h
  ints _ _ := rfl
  floats := rfl

theorem trans (h : Confined owner X r r') (h' : Confined owner X r' r'') :
    Confined owner X r r'' where
  budgets k hk := (h'.budgets k hk).trans (h.budgets k hk)
  spans k hk := (h'.spans k hk).trans (h.spans k hk)
  records rid hrid := (h'.records rid hrid).trans (h.records rid hrid)
  opened rid record hget := by
    rcases h'.opened rid record hget with hold | hown
    · exact h.opened rid record hold
    · exact .inr hown
  ints key hkey := (h'.ints key hkey).trans (h.ints key hkey)
  floats := h'.floats.trans h.floats

theorem clean (h : Confined owner X r r') (hclean : Clean owner r) : Clean owner r' where
  budgets k hk := (h.budgets k (by simp [hk])).trans (hclean.budgets k hk)
  spans k hk := (h.spans k (by simp [hk])).trans (hclean.spans k hk)
  records rid record hget := by
    rcases h.opened rid record hget with hold | hown
    · exact hclean.records rid record hold
    · exact hown

theorem setBudget (owner : String → String) (r : Redis) {k : BudgetKey} (hk : k.tenant = some X)
    (row : BudgetRow) : Confined owner X r (r.setBudget k row) where
  budgets j hj := by
    have hne : j ≠ k := by
      rintro rfl
      exact hj hk
    exact Redis.setBudget_ne r row hne
  spans _ _ := rfl
  records _ _ := rfl
  opened _ _ h := .inl h
  ints _ _ := rfl
  floats := rfl

theorem incrSpanHeld (owner : String → String) (r : Redis) {k : SpanKey} (hk : k.tenant = some X)
    (q : ℚ) : Confined owner X r (r.incrSpanHeld k q) where
  budgets _ _ := rfl
  spans j hj := by
    have hne : j ≠ k := by
      rintro rfl
      exact hj hk
    exact Function.update_of_ne hne _ _
  records _ _ := rfl
  opened _ _ h := .inl h
  ints _ _ := rfl
  floats := rfl

theorem pending (owner : String → String) (X : String) (r : Redis) (p : Table String ℚ) :
    Confined owner X r { r with pending := p } where
  budgets _ _ := rfl
  spans _ _ := rfl
  records _ _ := rfl
  opened _ _ h := .inl h
  ints _ _ := rfl
  floats := rfl

theorem setRecord {rid : String} (hrid : owner rid = X) {record : ReservationRecord}
    (hown : OwnRecord X record) (p : Table String ℚ) :
    Confined owner X r { r with reservations := r.reservations.set rid record, pending := p } where
  budgets _ _ := rfl
  spans _ _ := rfl
  records j hj := by
    have hne : j ≠ rid := by
      rintro rfl
      exact hj hrid
    show (r.reservations.set rid record).get j = _
    rw [Table.get_set, if_neg hne]
  opened j record' hget := by
    change (r.reservations.set rid record).get j = _ at hget
    rw [Table.get_set] at hget
    split_ifs at hget with hj
    · rw [hj, hrid, ← Option.some.inj hget]
      exact .inr hown
    · exact .inl hget
  ints _ _ := rfl
  floats := rfl

theorem dropReservation {rid : String} (hrid : owner rid = X) :
    Confined owner X r (dropReservation r rid) where
  budgets _ _ := rfl
  spans _ _ := rfl
  records j hj := by
    have hne : j ≠ rid := by
      rintro rfl
      exact hj hrid
    show (r.reservations.erase rid).get j = _
    rw [Table.get_erase, if_neg hne]
  opened j record' hget := by
    change (r.reservations.erase rid).get j = _ at hget
    rw [Table.get_erase] at hget
    split_ifs at hget
    exact .inl hget
  ints _ _ := rfl
  floats := rfl

theorem admitSpan {span : Option SpanKey} {q spanHeld spanSpent : ℚ}
    (hspan : ∀ k ∈ span, k.tenant = some X)
    (h : admitSpan r span q = .ok (r', spanHeld, spanSpent)) : Confined owner X r r' := by
  rcases admitSpan_ok h with ⟨rfl, -⟩ | ⟨k, spanMax, hk, -, -, rfl⟩
  · exact refl owner X _
  · exact incrSpanHeld owner r (hspan k hk) q

theorem releaseHold (hclean : Clean owner r) {b : BudgetKey} {span : Option SpanKey}
    (hb : b.tenant = none ∨ b.tenant = some X)
    (hspan : ∀ k ∈ span, k.tenant = none ∨ k.tenant = some X) (q : ℚ) :
    Confined owner X r (releaseHold r b span q).1 := by
  have hbudget : Confined owner X r
      (if 0 < min (r.held b) q then r.incrHeld b (-(min (r.held b) q)) else r) := by
    split_ifs with hpos
    · rcases hb with hnone | hown
      · have hzero : r.held b = 0 := by simp [Redis.held, hclean.budgets b hnone]
        have hle := min_le_left (r.held b) q
        rw [hzero] at hle hpos
        exact absurd (lt_of_lt_of_le hpos hle) (lt_irrefl 0)
      · exact setBudget owner r hown _
    · exact refl owner X r
  unfold Budget.releaseHold
  dsimp only
  refine hbudget.trans ?_
  generalize (if 0 < min (r.held b) q then r.incrHeld b (-(min (r.held b) q)) else r) = r₁ at hbudget ⊢
  unfold releaseSpan
  cases hs : span with
  | none => exact refl owner X r₁
  | some k =>
    dsimp only
    split_ifs with hpos
    · rcases hspan k hs with hnone | hown
      · have hzero : r₁.spanHeld k = 0 := by
          simp [Redis.spanHeld, (hbudget.clean hclean).spans k hnone]
        rw [hzero] at hpos
        exact absurd hpos (lt_irrefl 0)
      · exact incrSpanHeld owner r₁ hown _
    · exact refl owner X r₁

end Confined

/-! ### Calls on the store -/

variable (hclean : Clean owner r) (hX : PlainTenant X)
include hclean hX

theorem openHold_confined {rid : String} (hrid : owner rid = X) (c : String) (estimate : ℚ)
    (parent : Option String) (expiresAt : Option ℚ) (clock : ℚ) :
    Confined owner X r
      (Reservation.openHold r (some X) rid c estimate parent expiresAt clock).1 := by
  unfold Reservation.openHold
  split_ifs
  · exact Confined.refl owner X r
  dsimp only
  rw [hX.stripTenant, readKey_of_clean hclean hX, scope_of_clean hclean hX]
  show Confined owner X r (openScript r _ _ ⟨rid, c, X, _, _, _⟩).1
  rcases openScript_cases r ⟨some X, c⟩ (ownSpan X parent) ⟨rid, c, X, parent.getD "", estimate,
    expiresAt.getD (clock + 900)⟩ with ⟨-, hsame⟩ | ⟨balance, r₁, spanHeld, spanSpent, -, -, -, -,
      hspan, hopened⟩
  · rw [hsame]
    exact Confined.refl owner X r
  · have hadmitted : Confined owner X r r₁ := Confined.admitSpan ownSpan_tenant hspan
    have hheld : Confined owner X r₁ (r₁.incrHeld ⟨some X, c⟩ estimate) :=
      Confined.setBudget owner r₁ rfl _
    have hrecord : OwnRecord X (OpenArgs.record ⟨rid, c, X, parent.getD "", estimate,
        expiresAt.getD (clock + 900)⟩ ⟨some X, c⟩ (ownSpan X parent)) := by
      refine ⟨fun k hk => ?_, fun k hk => .inr (ownSpan_tenant k hk), fun hnone => ?_⟩
      · have hkey : (⟨some X, c⟩ : BudgetKey) = k := Option.some.inj hk
        exact .inr (hkey ▸ rfl)
      · simp [OpenArgs.record] at hnone
    rw [hopened]
    exact (hadmitted.trans hheld).trans (Confined.setRecord hrid hrecord _)

theorem reserve_confined (c : String) (estimate : ℚ) (parent : Option String) :
    Confined owner X r (Reservation.reserve r (some X) c estimate parent).1 := by
  unfold Reservation.reserve
  split_ifs
  · exact Confined.refl owner X r
  dsimp only
  rw [hX.stripTenant, readKey_of_clean hclean hX, scope_of_clean hclean hX]
  rcases reserveScript_cases r ⟨some X, c⟩ (ownSpan X parent) estimate with
    ⟨-, hsame⟩ | ⟨balance, r₁, spanHeld, spanSpent, -, -, -, hspan, hreserved⟩
  · rw [hsame]
    exact Confined.refl owner X r
  · have hadmitted : Confined owner X r r₁ := Confined.admitSpan ownSpan_tenant hspan
    rw [hreserved]
    exact hadmitted.trans (Confined.setBudget owner r₁ rfl _)

theorem reconcile_confined (c : String) (reserved : ℚ) (parent : Option String) :
    Confined owner X r (Reservation.reconcile r (some X) c reserved parent).1 := by
  unfold Reservation.reconcile reconcileScript
  dsimp only
  rw [hX.stripTenant, readKey_of_clean hclean hX, scope_of_clean hclean hX]
  exact Confined.releaseHold hclean (.inr rfl) (fun k hk => .inr (ownSpan_tenant k hk)) _

/-- The key that a close releases from belongs to the owner or is a legacy key. -/
theorem heldKeyOf_own {rid : String} {record : ReservationRecord}
    (hget : r.reservations.get rid = some record) (hrid : owner rid = X) :
    (Reservation.heldKeyOf r rid).tenant = none ∨
      (Reservation.heldKeyOf r rid).tenant = some X := by
  have hown := hclean.records rid record hget
  rw [hrid] at hown
  unfold Reservation.heldKeyOf
  rw [hget]
  dsimp only
  cases hkey : record.heldKey with
  | some k => exact hown.held k hkey
  | none =>
    dsimp only
    rcases hown.tenant hkey with hnone | hsome
    · rw [if_pos hnone]
      exact .inl rfl
    · rw [hsome, if_neg hX.nonempty, readKey_of_clean hclean hX]
      exact .inr rfl

theorem close_confined {rid : String} (hrid : owner rid = X) :
    Confined owner X r (Reservation.close r rid).1 := by
  unfold Reservation.close closeScript
  cases hget : r.reservations.get rid with
  | none => exact Confined.pending owner X r _
  | some record =>
    have hown := hclean.records rid record hget
    rw [hrid] at hown
    exact (Confined.releaseHold hclean (heldKeyOf_own hclean hX hget hrid) hown.span _).trans
      (Confined.dropReservation hrid)

omit hclean in
theorem configure_confined {c : String} {balance : ℚ} {alert : Option ℚ} {rpm : Option ℤ}
    (h : configure r (some X) c balance alert rpm = some r') : Confined owner X r r' := by
  obtain ⟨-, row, -, -, rfl⟩ := configure_cases h
  rw [hX.stripTenant]
  exact Confined.setBudget owner r (by simp [budgetPrefix, hX.hasTenant]) row

omit hclean in
theorem topUp_confined {c : String} {amount newBalance : ℚ}
    (h : topUp r (some X) c amount = .ok (r', newBalance)) : Confined owner X r r' := by
  obtain ⟨-, row, rfl, -⟩ := topUp_cases h
  rw [hX.stripTenant]
  exact Confined.setBudget owner r (by simp [budgetPrefix, hX.hasTenant]) _

omit hclean hX in
theorem refresh_confined (owner : String → String) (X : String) (r : Redis) (rid : String)
    (expiresAt : Option ℚ) (clock : ℚ) :
    Confined owner X r (Reservation.refresh r rid expiresAt clock).1 := by
  unfold Reservation.refresh
  cases r.reservations.get rid with
  | none => exact Confined.refl owner X r
  | some record => exact Confined.pending owner X r _

end Store

/-! ### Calls -/

def BudgetCall.named : BudgetCall → Option String
  | .openHold rid .. => some rid
  | .settle rid => some rid
  | .refresh rid .. => some rid
  | _ => none

/-- Nothing but the tenant's own keys, reservations and cache entries changed. -/
structure DeskConfined (owner : String → String) (X : String) (s s' : Desk) : Prop where
  store : Confined owner X s.toRedis s'.toRedis
  cache : ∀ key, key.1 ≠ X → s'.cache key = s.cache key
  apiKeys : s'.apiKeys = s.apiKeys

section Process
variable {owner : String → String} {X : String} {s : Desk}

theorem DeskConfined.trans {s' s'' : Desk} (h : DeskConfined owner X s s')
    (h' : DeskConfined owner X s' s'') : DeskConfined owner X s s'' where
  store := h.store.trans h'.store
  cache key hkey := (h'.cache key hkey).trans (h.cache key hkey)
  apiKeys := h'.apiKeys.trans h.apiKeys

theorem DeskConfined.of_store {r : Redis} (h : Confined owner X s.toRedis r) :
    DeskConfined owner X s { s with toRedis := r } := ⟨h, fun _ _ => rfl, rfl⟩

theorem DeskConfined.ite {ρ : Type} {p : Prop} [Decidable p] {x y : Desk × ρ}
    (hx : DeskConfined owner X s x.1) (hy : DeskConfined owner X s y.1) :
    DeskConfined owner X s (if p then x else y).1 := by
  split_ifs
  · exact hx
  · exact hy

theorem updateCache_confined (owner : String → String) (X : String) (s : Desk) (c : String)
    (e : Option CacheEntry) :
    DeskConfined owner X s { s with cache := Function.update s.cache (X, c) e } where
  store := Confined.refl owner X _
  cache key hkey := by
    apply Function.update_of_ne
    rintro rfl
    exact hkey rfl
  apiKeys := rfl

theorem forget_confined (owner : String → String) (hX : PlainTenant X) (s : Desk) (c : String) :
    DeskConfined owner X s (s.forget (some X) c) := by
  unfold Desk.forget
  rw [hX.stripTenant]
  exact updateCache_confined owner X s c none

theorem countAllowed_confined (owner : String → String) (s : Desk) {key : String}
    (hkey : TenantKey X key) (a : CheckArgs) (fault : Option RedisFault) (d : Decision) :
    DeskConfined owner X s (countAllowed s key a fault d).1 := by
  have hrefl : DeskConfined owner X s s := ⟨Confined.refl owner X _, fun _ _ => rfl, rfl⟩
  have hcounted : DeskConfined owner X s { s with usage := s.usage.incrBy key 1 } := by
    refine ⟨⟨fun _ _ => rfl, fun _ _ => rfl, fun _ _ => rfl, fun _ _ h => .inl h, ?_, rfl⟩,
      fun _ _ => rfl, rfl⟩
    intro j hj
    have hne : j ≠ key := by
      rintro rfl
      exact hj hkey
    exact Function.update_of_ne hne _ _
  unfold countAllowed
  split_ifs
  · exact hrefl
  dsimp only
  split
  · dsimp only
    split_ifs
    · exact hcounted
    · exact hrefl
  · exact hcounted

private theorem checkSnapshot_confined (owner : String → String) (s : Desk) {key : String}
    (hkey : TenantKey X key) (a : CheckArgs) (fault : Option RedisFault) (requests : ℤ)
    (snap : Snapshot) :
    DeskConfined owner X s (checkSnapshot s (some X) a fault key requests snap).1 := by
  have hcached := updateCache_confined owner X s a.customerId
    (some ⟨snap.balanceUsd, snap.heldUsd, a.clock 1⟩)
  unfold checkSnapshot
  dsimp only
  refine DeskConfined.ite hcached (DeskConfined.ite hcached (DeskConfined.ite hcached ?_))
  split
  · exact hcached
  refine DeskConfined.ite hcached ?_
  split
  · exact hcached
  · exact hcached.trans (countAllowed_confined owner _ hkey a fault _)

private theorem check_confined (owner : String → String) (hX : PlainTenant X) (s : Desk)
    (a : CheckArgs)
    (fault : Option RedisFault) : DeskConfined owner X s (check s (some X) a fault).1 := by
  have hrefl : DeskConfined owner X s s := ⟨Confined.refl owner X _, fun _ _ => rfl, rfl⟩
  have hkey : TenantKey X (Py.rateLimitKey (some X) a.customerId (truncate (a.clock 0) / 60)) :=
    hX.inTenant _
  have hredis : DeskConfined owner X s (checkRedis s (some X) a fault).1 := by
    unfold checkRedis
    dsimp only
    refine DeskConfined.ite hrefl (DeskConfined.ite hrefl (DeskConfined.ite hrefl ?_))
    split
    · exact countAllowed_confined owner s hkey a fault _
    · exact checkSnapshot_confined owner s hkey a fault _ _
  unfold check
  rw [hX.stripTenant]
  generalize checkRedis s (some X) a fault = x at hredis ⊢
  obtain ⟨s', d⟩ := x
  cases d with
  | some d => exact hredis
  | none => exact hredis

/-- A call that names the tenant's own reservations is confined to the tenant. -/
theorem call_confined (hclean : Clean owner s.toRedis) (hX : PlainTenant X) (op : BudgetCall)
    (hown : ∀ rid ∈ op.named, owner rid = X) : DeskConfined owner X s (s.call (some X) op).1 := by
  have hrefl : DeskConfined owner X s s := ⟨Confined.refl owner X _, fun _ _ => rfl, rfl⟩
  cases op with
  | configure c balance alert rpm =>
    unfold Desk.call
    dsimp only
    cases h : configure s.toRedis (some X) c balance alert rpm with
    | none => exact hrefl
    | some r =>
      exact (DeskConfined.of_store (configure_confined hX h)).trans (forget_confined owner hX _ c)
  | topUp c amount =>
    unfold Desk.call
    dsimp only
    cases h : topUp s.toRedis (some X) c amount with
    | error e => cases e <;> exact hrefl
    | ok x =>
      exact (DeskConfined.of_store (topUp_confined hX h)).trans (forget_confined owner hX _ c)
  | check a fault => exact check_confined owner hX s a fault
  | openHold rid c estimate parent expiresAt clock =>
    exact DeskConfined.of_store
      (openHold_confined hclean hX (hown rid rfl) c estimate parent expiresAt clock)
  | reserve c estimate parent =>
    exact DeskConfined.of_store (reserve_confined hclean hX c estimate parent)
  | reconcile c reserved parent =>
    exact DeskConfined.of_store (reconcile_confined hclean hX c reserved parent)
  | settle rid => exact DeskConfined.of_store (close_confined hclean hX (hown rid rfl))
  | refresh rid expiresAt clock =>
    exact DeskConfined.of_store (refresh_confined owner X s.toRedis rid expiresAt clock)

end Process

end FluxMeter.Budget
