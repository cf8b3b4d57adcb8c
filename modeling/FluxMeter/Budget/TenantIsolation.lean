import FluxMeter.Budget.Confinement
import FluxMeter.Transition.Unwinding

/-! Tenants do not see each other's budgets and reservations: calls of another tenant leave what a
tenant reads, and its own calls act alike on stores that agree on what it reads. -/
namespace FluxMeter.Budget
open Collections FluxMeter.Keys Transition

/-- A key that a tenant may read: its own, or a legacy one. -/
def Visible (B : String) (t : Option String) : Prop := t = none ∨ t = some B

/-- The two stores agree on what the tenant reads. -/
structure Sees (owner : String → String) (B : String) (r r' : Redis) : Prop where
  budgets : ∀ k : BudgetKey, Visible B k.tenant → r.budgets k = r'.budgets k
  spans : ∀ k : SpanKey, Visible B k.tenant → r.spans k = r'.spans k
  records : ∀ rid, owner rid = B → r.reservations.get rid = r'.reservations.get rid
  ints : ∀ key, TenantKey B key ∨ headOf key ≠ some 't' → r.usage.ints key = r'.usage.ints key
  floats : r.usage.floats = r'.usage.floats

/-- The two processes agree on what the tenant reads. -/
structure DeskSees (owner : String → String) (B : String) (s s' : Desk) : Prop where
  store : Sees owner B s.toRedis s'.toRedis
  cache : ∀ c, s.cache (B, c) = s'.cache (B, c)
  apiKeys : s.apiKeys = s'.apiKeys

theorem sees_equivalence (owner : String → String) (B : String) : Equivalence (Sees owner B) where
  refl _ := ⟨fun _ _ => rfl, fun _ _ => rfl, fun _ _ => rfl, fun _ _ => rfl, rfl⟩
  symm h := ⟨fun k hk => (h.budgets k hk).symm, fun k hk => (h.spans k hk).symm,
    fun rid hrid => (h.records rid hrid).symm, fun key hkey => (h.ints key hkey).symm,
    h.floats.symm⟩
  trans h h' := ⟨fun k hk => (h.budgets k hk).trans (h'.budgets k hk),
    fun k hk => (h.spans k hk).trans (h'.spans k hk),
    fun rid hrid => (h.records rid hrid).trans (h'.records rid hrid),
    fun key hkey => (h.ints key hkey).trans (h'.ints key hkey), h.floats.trans h'.floats⟩

theorem deskSees_equivalence (owner : String → String) (B : String) :
    Equivalence (DeskSees owner B) where
  refl s := ⟨(sees_equivalence owner B).refl s.toRedis, fun _ => rfl, rfl⟩
  symm h := ⟨(sees_equivalence owner B).symm h.store, fun c => (h.cache c).symm, h.apiKeys.symm⟩
  trans h h' := ⟨(sees_equivalence owner B).trans h.store h'.store,
    fun c => (h.cache c).trans (h'.cache c), h.apiKeys.trans h'.apiKeys⟩

section Agreement
variable {owner : String → String} {B : String} {r r' : Redis}

/-- What is confined to one tenant is invisible to the others. -/
theorem Confined.sees {X : String} (hX : PlainTenant X) (hB : PlainTenant B) (hne : X ≠ B)
    (h : Confined owner X r r') : Sees owner B r' r where
  budgets k hk := by
    apply h.budgets
    rintro hown
    rcases hk with hnone | hvisible
    · simp [hown] at hnone
    · exact hne (Option.some.inj (hown.symm.trans hvisible))
  spans k hk := by
    apply h.spans
    rintro hown
    rcases hk with hnone | hvisible
    · simp [hown] at hnone
    · exact hne (Option.some.inj (hown.symm.trans hvisible))
  records rid hrid := h.records rid fun hown => hne (hown.symm.trans hrid)
  ints key hkey := by
    apply h.ints
    intro hown
    rcases hkey with hvisible | hhead
    · exact hne (hX.tenantKey_unique hB hown hvisible)
    · exact hhead hown.headOf
  floats := h.floats

namespace Sees

theorem held (h : Sees owner B r r') {k : BudgetKey} (hk : Visible B k.tenant) :
    r.held k = r'.held k := by
  unfold Redis.held
  rw [h.budgets k hk]

theorem spanHeld (h : Sees owner B r r') {k : SpanKey} (hk : Visible B k.tenant) :
    r.spanHeld k = r'.spanHeld k := by
  unfold Redis.spanHeld
  rw [h.spans k hk]

/-! ### The keys that the tenant reads -/

theorem readKey (h : Sees owner B r r') {t : Option String} (ht : Visible B t) (c : String) :
    budgetPrefixForRead r t c = budgetPrefixForRead r' t c := by
  unfold budgetPrefixForRead
  dsimp only
  have hown : Visible B (budgetPrefix t c).tenant := by
    unfold budgetPrefix
    dsimp only
    split_ifs
    · exact ht
    · exact .inl rfl
  rw [h.budgets _ hown, h.budgets ⟨none, c⟩ (.inl rfl)]

theorem readKey_visible {t : Option String} (ht : Visible B t) (c : String) :
    Visible B (budgetPrefixForRead r t c).tenant := by
  unfold budgetPrefixForRead budgetPrefix
  dsimp only
  split_ifs <;> first | exact ht | exact .inl rfl

theorem spanKey (h : Sees owner B r r') {t : Option String} (ht : Visible B t) (id : String) :
    spanPrefixForRead r t id = spanPrefixForRead r' t id := by
  unfold spanPrefixForRead
  dsimp only
  have hown : Visible B (spanPrefix t id).tenant := by
    unfold spanPrefix
    dsimp only
    split_ifs
    · exact ht
    · exact .inl rfl
  rw [h.spans _ hown, h.spans ⟨none, id⟩ (.inl rfl)]

theorem spanKey_visible {t : Option String} (ht : Visible B t) (id : String) :
    Visible B (spanPrefixForRead r t id).tenant := by
  unfold spanPrefixForRead spanPrefix
  dsimp only
  split_ifs <;> first | exact ht | exact .inl rfl

theorem scope (h : Sees owner B r r') {t : Option String} (ht : Visible B t)
    (parent : Option String) : Reservation.scope r t parent = Reservation.scope r' t parent := by
  unfold Reservation.scope
  cases parent with
  | none => rfl
  | some p =>
    dsimp only
    rw [h.spanKey ht]

theorem scope_visible {t : Option String} (ht : Visible B t) {parent : Option String} :
    ∀ k ∈ Reservation.scope r t parent, Visible B k.tenant := by
  intro k hk
  unfold Reservation.scope at hk
  cases parent with
  | none => simp at hk
  | some p =>
    dsimp only at hk
    split_ifs at hk
    · simp at hk
    · have hkey : spanPrefixForRead r t p = k := Option.some.inj hk
      rw [← hkey]
      exact spanKey_visible ht p

/-! ### Writes -/

theorem setBudget (h : Sees owner B r r') (k : BudgetKey) (row : BudgetRow) :
    Sees owner B (r.setBudget k row) (r'.setBudget k row) where
  budgets j hj := by
    by_cases hjk : j = k
    · rw [hjk, Redis.setBudget_self, Redis.setBudget_self]
    · rw [Redis.setBudget_ne _ _ hjk, Redis.setBudget_ne _ _ hjk, h.budgets j hj]
  spans := h.spans
  records := h.records
  ints := h.ints
  floats := h.floats

theorem incrHeld (h : Sees owner B r r') {k : BudgetKey} (hk : Visible B k.tenant) (q : ℚ) :
    Sees owner B (r.incrHeld k q) (r'.incrHeld k q) := by
  unfold Redis.incrHeld
  rw [h.budgets k hk]
  exact h.setBudget k _

theorem incrSpanHeld (h : Sees owner B r r') {k : SpanKey} (hk : Visible B k.tenant) (q : ℚ) :
    Sees owner B (r.incrSpanHeld k q) (r'.incrSpanHeld k q) where
  budgets := h.budgets
  spans j hj := by
    unfold Redis.incrSpanHeld Redis.setSpan
    dsimp only
    rw [h.spans k hk]
    by_cases hjk : j = k
    · rw [hjk, Function.update_self, Function.update_self]
    · rw [Function.update_of_ne hjk, Function.update_of_ne hjk, h.spans j hj]
  records := h.records
  ints := h.ints
  floats := h.floats

theorem pending (h : Sees owner B r r') (p p' : Table String ℚ) :
    Sees owner B { r with pending := p } { r' with pending := p' } :=
  ⟨h.budgets, h.spans, h.records, h.ints, h.floats⟩

theorem setRecord (h : Sees owner B r r') (rid : String) (record : ReservationRecord)
    (p p' : Table String ℚ) :
    Sees owner B { r with reservations := r.reservations.set rid record, pending := p }
      { r' with reservations := r'.reservations.set rid record, pending := p' } where
  budgets := h.budgets
  spans := h.spans
  records j hj := by
    show (r.reservations.set rid record).get j = (r'.reservations.set rid record).get j
    rw [Table.get_set, Table.get_set, h.records j hj]
  ints := h.ints
  floats := h.floats

theorem dropReservation (h : Sees owner B r r') (rid : String) :
    Sees owner B (dropReservation r rid) (dropReservation r' rid) where
  budgets := h.budgets
  spans := h.spans
  records j hj := by
    show (r.reservations.erase rid).get j = (r'.reservations.erase rid).get j
    rw [Table.get_erase, Table.get_erase, h.records j hj]
  ints := h.ints
  floats := h.floats

theorem admitSpan (h : Sees owner B r r') {span : Option SpanKey}
    (hspan : ∀ k ∈ span, Visible B k.tenant) (q : ℚ) :
    (∃ e, admitSpan r span q = .error e ∧ admitSpan r' span q = .error e) ∨
      ∃ r₁ r₁' spanHeld spanSpent, admitSpan r span q = .ok (r₁, spanHeld, spanSpent) ∧
        admitSpan r' span q = .ok (r₁', spanHeld, spanSpent) ∧ Sees owner B r₁ r₁' := by
  cases span with
  | none => exact .inr ⟨r, r', 0, 0, rfl, rfl, h⟩
  | some k =>
    have hk := hspan k rfl
    unfold Budget.admitSpan
    dsimp only
    rw [← h.spanHeld hk, ← h.spans k hk]
    cases (r.spans k).maxCostUsd with
    | none => exact .inr ⟨r, r', _, _, rfl, rfl, h⟩
    | some spanMax =>
      dsimp only
      split_ifs
      · exact .inl ⟨_, rfl, rfl⟩
      · exact .inr ⟨_, _, _, _, rfl, rfl, h.incrSpanHeld hk q⟩

theorem releaseHold (h : Sees owner B r r') {b : BudgetKey} {span : Option SpanKey}
    (hb : Visible B b.tenant) (hspan : ∀ k ∈ span, Visible B k.tenant) (q : ℚ) :
    Sees owner B (releaseHold r b span q).1 (releaseHold r' b span q).1 ∧
      (releaseHold r b span q).2 = (releaseHold r' b span q).2 := by
  have hbudget : Sees owner B
      (if 0 < min (r.held b) q then r.incrHeld b (-(min (r.held b) q)) else r)
      (if 0 < min (r.held b) q then r'.incrHeld b (-(min (r.held b) q)) else r') := by
    split_ifs
    · exact h.incrHeld hb _
    · exact h
  unfold Budget.releaseHold
  dsimp only
  rw [← h.held hb]
  refine ⟨?_, rfl⟩
  unfold releaseSpan
  cases hs : span with
  | none => exact hbudget
  | some k =>
    dsimp only
    rw [← hbudget.spanHeld (hspan k hs)]
    split_ifs at hbudget ⊢
    all_goals first
      | exact hbudget.incrSpanHeld (hspan k hs) _
      | exact hbudget

/-! ### Calls on the store -/

theorem openHold (h : Sees owner B r r') (hB : PlainTenant B) {rid : String} (hrid : owner rid = B)
    (c : String) (estimate : ℚ) (parent : Option String) (expiresAt : Option ℚ) (clock : ℚ) :
    Sees owner B (Reservation.openHold r (some B) rid c estimate parent expiresAt clock).1
        (Reservation.openHold r' (some B) rid c estimate parent expiresAt clock).1 ∧
      (Reservation.openHold r (some B) rid c estimate parent expiresAt clock).2 =
        (Reservation.openHold r' (some B) rid c estimate parent expiresAt clock).2 := by
  have ht : Visible B (some B) := .inr rfl
  unfold Reservation.openHold
  split_ifs
  · exact ⟨h, rfl⟩
  dsimp only
  rw [hB.stripTenant, h.readKey ht, h.scope ht]
  have hb : Visible B (budgetPrefixForRead r' (some B) c).tenant := readKey_visible ht c
  have hspan : ∀ k ∈ Reservation.scope r' (some B) parent, Visible B k.tenant := scope_visible ht
  generalize budgetPrefixForRead r' (some B) c = budget at hb ⊢
  generalize Reservation.scope r' (some B) parent = span at hspan ⊢
  unfold openScript
  dsimp only
  rw [h.records rid hrid, h.budgets budget hb, h.held hb]
  cases r'.reservations.get rid with
  | some existing => dsimp only; split_ifs <;> exact ⟨h, rfl⟩
  | none =>
    cases (r'.budgets budget).balanceUsd with
    | none => exact ⟨h, rfl⟩
    | some balance =>
      dsimp only
      split_ifs
      · exact ⟨h, rfl⟩
      rcases h.admitSpan hspan estimate with ⟨e, heq, heq'⟩ | ⟨r₁, r₁', spanHeld, spanSpent, heq,
        heq', hadmitted⟩
      · rw [heq, heq']
        exact ⟨h, rfl⟩
      · rw [heq, heq']
        exact ⟨(hadmitted.incrHeld hb estimate).setRecord rid _ _ _, rfl⟩

theorem reserve (h : Sees owner B r r') (hB : PlainTenant B) (c : String) (estimate : ℚ)
    (parent : Option String) :
    Sees owner B (Reservation.reserve r (some B) c estimate parent).1
        (Reservation.reserve r' (some B) c estimate parent).1 ∧
      (Reservation.reserve r (some B) c estimate parent).2 =
        (Reservation.reserve r' (some B) c estimate parent).2 := by
  have ht : Visible B (some B) := .inr rfl
  unfold Reservation.reserve
  split_ifs
  · exact ⟨h, rfl⟩
  dsimp only
  rw [hB.stripTenant, h.readKey ht, h.scope ht]
  have hb : Visible B (budgetPrefixForRead r' (some B) c).tenant := readKey_visible ht c
  have hspan : ∀ k ∈ Reservation.scope r' (some B) parent, Visible B k.tenant := scope_visible ht
  generalize budgetPrefixForRead r' (some B) c = budget at hb ⊢
  generalize Reservation.scope r' (some B) parent = span at hspan ⊢
  unfold reserveScript
  rw [h.budgets budget hb, h.held hb]
  cases (r'.budgets budget).balanceUsd with
  | none => exact ⟨h, rfl⟩
  | some balance =>
    dsimp only
    split_ifs
    · exact ⟨h, rfl⟩
    rcases h.admitSpan hspan estimate with ⟨e, heq, heq'⟩ | ⟨r₁, r₁', spanHeld, spanSpent, heq,
      heq', hadmitted⟩
    · rw [heq, heq']
      exact ⟨h, rfl⟩
    · rw [heq, heq']
      exact ⟨hadmitted.incrHeld hb estimate, rfl⟩

theorem reconcile (h : Sees owner B r r') (hB : PlainTenant B) (c : String) (reserved : ℚ)
    (parent : Option String) :
    Sees owner B (Reservation.reconcile r (some B) c reserved parent).1
        (Reservation.reconcile r' (some B) c reserved parent).1 ∧
      (Reservation.reconcile r (some B) c reserved parent).2 =
        (Reservation.reconcile r' (some B) c reserved parent).2 := by
  have ht : Visible B (some B) := .inr rfl
  have hb : Visible B (budgetPrefixForRead r' (some B) c).tenant := readKey_visible ht c
  have hspan : ∀ k ∈ Reservation.scope r' (some B) parent, Visible B k.tenant := scope_visible ht
  obtain ⟨hreleased, hamount⟩ := h.releaseHold hb hspan (max 0 reserved)
  unfold Reservation.reconcile reconcileScript
  dsimp only
  rw [hB.stripTenant, h.readKey ht, h.scope ht]
  refine ⟨hreleased, ?_⟩
  rw [hreleased.budgets _ hb, h.held hb, hamount]

theorem heldKeyOf (h : Sees owner B r r') (hclean : Clean owner r) {rid : String}
    (hrid : owner rid = B) : Reservation.heldKeyOf r rid = Reservation.heldKeyOf r' rid := by
  unfold Reservation.heldKeyOf
  rw [← h.records rid hrid]
  cases hget : r.reservations.get rid with
  | none => exact h.readKey (.inl rfl) ""
  | some record =>
    dsimp only
    cases hkey : record.heldKey with
    | some k => rfl
    | none =>
      dsimp only
      have hown := (hclean.records rid record hget).tenant hkey
      rw [hrid] at hown
      split_ifs with hempty
      · exact h.readKey (.inl rfl) _
      · rcases hown with hnone | hsome
        · exact absurd hnone hempty
        · rw [hsome]
          exact h.readKey (.inr rfl) _

theorem close (h : Sees owner B r r') (hclean : Clean owner r) (hB : PlainTenant B) {rid : String}
    (hrid : owner rid = B) :
    Sees owner B (Reservation.close r rid).1 (Reservation.close r' rid).1 ∧
      (Reservation.close r rid).2 = (Reservation.close r' rid).2 := by
  unfold Reservation.close closeScript
  rw [← h.heldKeyOf hclean hrid, ← h.records rid hrid]
  cases hget : r.reservations.get rid with
  | none => exact ⟨h.pending _ _, rfl⟩
  | some record =>
    have hown := hclean.records rid record hget
    rw [hrid] at hown
    obtain ⟨hreleased, hamount⟩ := h.releaseHold (heldKeyOf_own hclean hB hget hrid) hown.span
      record.reservedUsd
    refine ⟨hreleased.dropReservation rid, ?_⟩
    show some (record.customerId, (Budget.releaseHold r _ record.spanHeldKey _).2) =
      some (record.customerId, (Budget.releaseHold r' _ record.spanHeldKey _).2)
    rw [hamount]

theorem refresh (h : Sees owner B r r') {rid : String} (hrid : owner rid = B)
    (expiresAt : Option ℚ) (clock : ℚ) :
    Sees owner B (Reservation.refresh r rid expiresAt clock).1
        (Reservation.refresh r' rid expiresAt clock).1 ∧
      (Reservation.refresh r rid expiresAt clock).2 =
        (Reservation.refresh r' rid expiresAt clock).2 := by
  unfold Reservation.refresh
  rw [← h.records rid hrid]
  cases r.reservations.get rid with
  | none => exact ⟨h, rfl⟩
  | some record => exact ⟨h.pending _ _, rfl⟩

theorem snapshot (h : Sees owner B r r') (hB : PlainTenant B) (c : String) :
    snapshot r (some B) c = snapshot r' (some B) c := by
  unfold Budget.snapshot
  rw [hB.stripTenant, h.readKey (.inr rfl), h.budgets _ (readKey_visible (.inr rfl) c)]

theorem configure (h : Sees owner B r r') (c : String) (balance : ℚ) (alert : Option ℚ)
    (rpm : Option ℤ) :
    (configure r (some B) c balance alert rpm = none ∧
        configure r' (some B) c balance alert rpm = none) ∨
      ∃ r₁ r₁', configure r (some B) c balance alert rpm = some r₁ ∧
        configure r' (some B) c balance alert rpm = some r₁' ∧ Sees owner B r₁ r₁' := by
  unfold Budget.configure
  split_ifs
  · exact .inl ⟨rfl, rfl⟩
  · exact .inl ⟨rfl, rfl⟩
  · exact .inl ⟨rfl, rfl⟩
  · exact .inr ⟨_, _, rfl, rfl, h.setBudget _ _⟩

theorem topUp (h : Sees owner B r r') (hB : PlainTenant B) (c : String) (amount : ℚ) :
    (∃ e, topUp r (some B) c amount = .error e ∧ topUp r' (some B) c amount = .error e) ∨
      ∃ r₁ r₁' newBalance, topUp r (some B) c amount = .ok (r₁, newBalance) ∧
        topUp r' (some B) c amount = .ok (r₁', newBalance) ∧ Sees owner B r₁ r₁' := by
  have ht : Visible B (some B) := .inr rfl
  unfold Budget.topUp
  dsimp only
  rw [hB.stripTenant, h.readKey ht]
  have hb : Visible B (budgetPrefixForRead r' (some B) c).tenant := readKey_visible ht c
  have hown : Visible B (budgetPrefix (some B) c).tenant := by
    unfold budgetPrefix
    rw [if_pos hB.hasTenant]
    exact ht
  rw [h.budgets _ hb, h.budgets _ hown]
  by_cases hpos : amount ≤ 0
  · rw [if_pos hpos, if_pos hpos]
    exact .inl ⟨_, rfl, rfl⟩
  rw [if_neg hpos, if_neg hpos]
  cases (r'.budgets (budgetPrefixForRead r' (some B) c)).balanceUsd with
  | none => exact .inl ⟨_, rfl, rfl⟩
  | some balance => exact .inr ⟨_, _, _, rfl, rfl, h.setBudget _ _⟩

theorem incrBy (h : Sees owner B r r') {key : String}
    (hkey : TenantKey B key ∨ headOf key ≠ some 't') (n : ℤ) :
    Sees owner B { r with usage := r.usage.incrBy key n }
      { r' with usage := r'.usage.incrBy key n } where
  budgets := h.budgets
  spans := h.spans
  records := h.records
  ints j hj := by
    show Function.update r.usage.ints key _ j = Function.update r'.usage.ints key _ j
    rw [h.ints key hkey]
    by_cases hjk : j = key
    · rw [hjk, Function.update_self, Function.update_self]
    · rw [Function.update_of_ne hjk, Function.update_of_ne hjk, h.ints j hj]
  floats := h.floats

end Sees

/-! ### The check -/

section Check
variable {s s' : Desk}

theorem rateLimitKey_tenantKey (hB : PlainTenant B) (c : String) (minute : ℤ) :
    TenantKey B (Py.rateLimitKey (some B) c minute) := hB.inTenant _

theorem Sees.sessionRow (h : Sees owner B r r') {key : String}
    (hkey : TenantKey B (key ++ ":event_count") ∨ headOf (key ++ ":event_count") ≠ some 't') :
    sessionRow r.usage key = sessionRow r'.usage key := by
  unfold Budget.sessionRow
  rw [h.floats, h.ints _ hkey]

private theorem sessionPrefixForRead_cases (u : UsageStore) (t : Option String) (id : String) :
    sessionPrefixForRead u t id = Py.scopePrefix t "session" id ∨
      sessionPrefixForRead u t id = "session:" ++ id := by
  unfold sessionPrefixForRead
  dsimp only
  split_ifs
  · exact .inl rfl
  · exact .inl rfl
  · exact .inr rfl
  · exact .inl rfl

theorem Sees.sessionKey (h : Sees owner B r r') (hB : PlainTenant B) (id : String) :
    Budget.sessionRow r.usage (sessionPrefixForRead r.usage (some B) id) =
      Budget.sessionRow r'.usage (sessionPrefixForRead r'.usage (some B) id) := by
  have hown : Budget.sessionRow r.usage (Py.scopePrefix (some B) "session" id) =
      Budget.sessionRow r'.usage (Py.scopePrefix (some B) "session" id) := by
    apply h.sessionRow
    exact .inl ((hB.inTenant ("session" ++ ":" ++ id)).append ":event_count")
  have hlegacy : Budget.sessionRow r.usage ("session:" ++ id) =
      Budget.sessionRow r'.usage ("session:" ++ id) := by
    have hhead : headOf "session:" = some 's' := rfl
    apply h.sessionRow
    right
    rw [headOf_append, headOf_append, hhead]
    simp
  have hkey : sessionPrefixForRead r.usage (some B) id =
      sessionPrefixForRead r'.usage (some B) id := by
    unfold sessionPrefixForRead
    dsimp only
    rw [hown, hlegacy]
  rw [← hkey]
  rcases sessionPrefixForRead_cases r.usage (some B) id with heq | heq
  · rw [heq]
    exact hown
  · rw [heq]
    exact hlegacy

/-- Both processes give the same answer and agree afterwards. -/
def Agree (owner : String → String) (B : String) {ρ : Type} (x y : Desk × ρ) : Prop :=
  DeskSees owner B x.1 y.1 ∧ x.2 = y.2

theorem Agree.ite {ρ : Type} {p : Prop} [Decidable p] {x y x' y' : Desk × ρ}
    (hx : Agree owner B x x') (hy : Agree owner B y y') :
    Agree owner B (if p then x else y) (if p then x' else y') := by
  split_ifs
  · exact hx
  · exact hy

namespace DeskSees

theorem hierarchyDenial (h : DeskSees owner B s s') (hB : PlainTenant B)
    (parentSpanId sessionId : Option String) (estimate : ℚ) :
    hierarchyDenial s (some B) parentSpanId sessionId estimate =
      hierarchyDenial s' (some B) parentSpanId sessionId estimate := by
  have hspan : ∀ id, s.spans (spanPrefixForRead s.toRedis (some B) id) =
      s'.spans (spanPrefixForRead s'.toRedis (some B) id) := by
    intro id
    rw [h.store.spanKey (.inr rfl)]
    exact h.store.spans _ (Sees.spanKey_visible (.inr rfl) id)
  have hsession : ∀ id, sessionRow s.usage (sessionPrefixForRead s.usage (some B) id) =
      sessionRow s'.usage (sessionPrefixForRead s'.usage (some B) id) :=
    fun id => h.store.sessionKey hB id
  unfold Budget.hierarchyDenial
  simp only [hspan, hsession]

theorem checkApiKeyBudget (h : DeskSees owner B s s') (keyId : String) (estimate : ℚ) (nowMs : ℤ) :
    checkApiKeyBudget s keyId estimate nowMs = checkApiKeyBudget s' keyId estimate nowMs := by
  unfold Budget.checkApiKeyBudget capDenial
  rw [h.apiKeys, h.store.floats]

theorem countAllowed (h : DeskSees owner B s s') {key : String} (hkey : TenantKey B key)
    (a : CheckArgs) (fault : Option RedisFault) (d : Decision) :
    Agree owner B (countAllowed s key a fault d) (countAllowed s' key a fault d) := by
  have hcounted : DeskSees owner B { s with usage := s.usage.incrBy key 1 }
      { s' with usage := s'.usage.incrBy key 1 } :=
    ⟨h.store.incrBy (.inl hkey) 1, h.cache, h.apiKeys⟩
  unfold Budget.countAllowed
  refine Agree.ite ⟨h, rfl⟩ ?_
  dsimp only
  split
  · refine ⟨?_, rfl⟩
    dsimp only
    split_ifs
    · exact hcounted
    · exact h
  · exact ⟨hcounted, rfl⟩

theorem updateCache (h : DeskSees owner B s s') (key : String × String) (e : Option CacheEntry) :
    DeskSees owner B { s with cache := Function.update s.cache key e }
      { s' with cache := Function.update s'.cache key e } where
  store := h.store
  cache c := by
    show Function.update s.cache key e (B, c) = Function.update s'.cache key e (B, c)
    by_cases hc : (B, c) = key
    · rw [hc, Function.update_self, Function.update_self]
    · rw [Function.update_of_ne hc, Function.update_of_ne hc, h.cache c]
  apiKeys := h.apiKeys

theorem checkSnapshot (h : DeskSees owner B s s') (hB : PlainTenant B) {key : String}
    (hkey : TenantKey B key) (a : CheckArgs) (fault : Option RedisFault) (requests : ℤ)
    (snap : Snapshot) :
    Agree owner B (checkSnapshot s (some B) a fault key requests snap)
      (checkSnapshot s' (some B) a fault key requests snap) := by
  have hcached := h.updateCache (cacheKey (some B) a.customerId)
    (some ⟨snap.balanceUsd, snap.heldUsd, a.clock 1⟩)
  unfold Budget.checkSnapshot
  dsimp only
  rw [hcached.hierarchyDenial hB]
  simp only [hcached.checkApiKeyBudget]
  refine Agree.ite ⟨hcached, rfl⟩ (Agree.ite ⟨hcached, rfl⟩ (Agree.ite ⟨hcached, rfl⟩ ?_))
  split
  · exact ⟨hcached, rfl⟩
  refine Agree.ite ⟨hcached, rfl⟩ ?_
  split
  · exact ⟨hcached, rfl⟩
  · exact hcached.countAllowed hkey a fault _

theorem checkRedis (h : DeskSees owner B s s') (hB : PlainTenant B) (a : CheckArgs)
    (fault : Option RedisFault) :
    Agree owner B (checkRedis s (some B) a fault) (checkRedis s' (some B) a fault) := by
  have ht : Visible B (some B) := .inr rfl
  have hkey := rateLimitKey_tenantKey hB a.customerId (truncate (a.clock 0) / 60)
  have hown : Visible B (budgetPrefix (some B) a.customerId).tenant := by
    unfold budgetPrefix
    rw [if_pos hB.hasTenant]
    exact ht
  have hrow : s.budgets (budgetPrefixForRead s.toRedis (some B) a.customerId) =
      s'.budgets (budgetPrefixForRead s'.toRedis (some B) a.customerId) := by
    rw [h.store.readKey ht]
    exact h.store.budgets _ (Sees.readKey_visible ht a.customerId)
  unfold Budget.checkRedis
  dsimp only
  rw [hrow, h.store.readKey ht, h.store.budgets _ hown, h.store.ints _ (.inl hkey)]
  refine Agree.ite ⟨h, rfl⟩ (Agree.ite ⟨h, rfl⟩ (Agree.ite ⟨h, rfl⟩ ?_))
  split
  · exact h.countAllowed hkey a fault _
  · exact h.checkSnapshot hB hkey a fault _ _

theorem checkFallback (h : DeskSees owner B s s') (a : CheckArgs) :
    checkFallback s (some B) a = checkFallback s' (some B) a := by
  have hentry : s.cache (cacheKey (some B) a.customerId) =
      s'.cache (cacheKey (some B) a.customerId) := h.cache a.customerId
  unfold Budget.checkFallback
  rw [hentry]

theorem check (h : DeskSees owner B s s') (hB : PlainTenant B) (a : CheckArgs)
    (fault : Option RedisFault) :
    Agree owner B (check s (some B) a fault) (check s' (some B) a fault) := by
  obtain ⟨hstate, hanswer⟩ := h.checkRedis hB a fault
  unfold Budget.check
  rw [hB.stripTenant]
  generalize Budget.checkRedis s (some B) a fault = x at hstate hanswer ⊢
  generalize Budget.checkRedis s' (some B) a fault = y at hstate hanswer ⊢
  obtain ⟨s₁, d⟩ := x
  obtain ⟨s₁', d'⟩ := y
  dsimp only at hstate hanswer
  subst hanswer
  cases d with
  | some d => exact ⟨hstate, rfl⟩
  | none => exact ⟨hstate, hstate.checkFallback a⟩

theorem forget (h : DeskSees owner B s s') (t : Option String) (c : String) :
    DeskSees owner B (s.forget t c) (s'.forget t c) := h.updateCache _ none

theorem of_store (h : DeskSees owner B s s') {r r' : Redis} (hr : Sees owner B r r') :
    DeskSees owner B { s with toRedis := r } { s' with toRedis := r' } := ⟨hr, h.cache, h.apiKeys⟩

/-- A call of the tenant acts alike on processes that agree on what the tenant reads. -/
theorem call (h : DeskSees owner B s s') (hclean : Clean owner s.toRedis) (hB : PlainTenant B)
    (op : BudgetCall) (hown : ∀ rid ∈ op.named, owner rid = B) :
    Agree owner B (s.call (some B) op) (s'.call (some B) op) := by
  cases op with
  | configure c balance alert rpm =>
    unfold Desk.call
    dsimp only
    rcases h.store.configure c balance alert rpm with ⟨heq, heq'⟩ | ⟨r, r', heq, heq', hr⟩
    · rw [heq, heq']
      exact ⟨h, rfl⟩
    · rw [heq, heq']
      exact ⟨(h.of_store hr).forget _ c, congrArg Reply.configured (hr.snapshot hB c)⟩
  | topUp c amount =>
    unfold Desk.call
    dsimp only
    rcases h.store.topUp hB c amount with ⟨e, heq, heq'⟩ | ⟨r, r', newBalance, heq, heq', hr⟩
    · rw [heq, heq']
      cases e <;> exact ⟨h, rfl⟩
    · rw [heq, heq']
      exact ⟨(h.of_store hr).forget _ c, rfl⟩
  | check a fault =>
    obtain ⟨hstate, hanswer⟩ := h.check hB a fault
    exact ⟨hstate, congrArg Reply.decision hanswer⟩
  | openHold rid c estimate parent expiresAt clock =>
    obtain ⟨hstate, hanswer⟩ :=
      h.store.openHold hB (hown rid rfl) c estimate parent expiresAt clock
    exact ⟨h.of_store hstate, congrArg Reply.opened hanswer⟩
  | reserve c estimate parent =>
    obtain ⟨hstate, hanswer⟩ := h.store.reserve hB c estimate parent
    exact ⟨h.of_store hstate, congrArg Reply.reserved hanswer⟩
  | reconcile c reserved parent =>
    obtain ⟨hstate, hanswer⟩ := h.store.reconcile hB c reserved parent
    exact ⟨h.of_store hstate, congrArg (fun x : ℚ × ℚ × ℚ => Reply.reconciled x.1 x.2.1 x.2.2)
      hanswer⟩
  | settle rid =>
    obtain ⟨hstate, hanswer⟩ := h.store.close hclean hB (hown rid rfl)
    exact ⟨h.of_store hstate,
      congrArg (fun x => Reply.settled ((Option.map Prod.snd x).getD 0)) hanswer⟩
  | refresh rid expiresAt clock =>
    obtain ⟨hstate, hanswer⟩ := h.store.refresh (hown rid rfl) expiresAt clock
    exact ⟨h.of_store hstate, congrArg Reply.refreshed hanswer⟩

end DeskSees

end Check

end Agreement

/-! ### Runs -/

/-- One call of a tenant on the shared process. -/
structure TenantCall where
  tenantId : String
  call : BudgetCall

namespace TenantCall

def apply (s : Desk) (c : TenantCall) : Desk := (s.call (some c.tenantId) c.call).1

/-- The tenant is well named, and the call names no reservation of another tenant. -/
structure Own (owner : String → String) (c : TenantCall) : Prop where
  tenant : PlainTenant c.tenantId
  reservations : ∀ rid ∈ c.call.named, owner rid = c.tenantId

end TenantCall

/-- The tenant finds the same snapshots, counters and holds in both processes, and each of its next
calls has the same answer. -/
structure Indistinguishable (owner : String → String) (B : String) (s s' : Desk) : Prop where
  snapshots : ∀ c, snapshot s.toRedis (some B) c = snapshot s'.toRedis (some B) c
  requests : ∀ c minute, s.usage.ints (Py.rateLimitKey (some B) c minute) =
    s'.usage.ints (Py.rateLimitKey (some B) c minute)
  held : ∀ c, s.held (budgetPrefix (some B) c) = s'.held (budgetPrefix (some B) c)
  spanHeld : ∀ id, s.spanHeld (spanPrefix (some B) id) = s'.spanHeld (spanPrefix (some B) id)
  answers : ∀ op : BudgetCall, (∀ rid ∈ op.named, owner rid = B) →
    (s.call (some B) op).2 = (s'.call (some B) op).2

theorem DeskSees.indistinguishable {owner : String → String} {B : String} {s s' : Desk}
    (h : DeskSees owner B s s') (hclean : Clean owner s.toRedis) (hB : PlainTenant B) :
    Indistinguishable owner B s s' where
  snapshots c := h.store.snapshot hB c
  requests c minute := h.store.ints _ (.inl (rateLimitKey_tenantKey hB c minute))
  held c := h.store.held (.inr (by simp [budgetPrefix, hB.hasTenant]))
  spanHeld id := h.store.spanHeld (.inr (by simp [spanPrefix, hB.hasTenant]))
  answers op hown := (h.call hclean hB op hown).2

/-- Two interleavings with the same calls of one tenant are the same to that tenant: what the other
tenants call in between, on whichever customers and spans, changes nothing it can see. -/
theorem tenant_isolation (owner : String → String) {B : String} (hB : PlainTenant B) (s : Desk)
    (hclean : Clean owner s.toRedis) {as bs : List TenantCall}
    (hown : ∀ c ∈ as ++ bs, c.Own owner)
    (hsame : as.filter (fun c => c.tenantId = B) = bs.filter fun c => c.tenantId = B) :
    Indistinguishable owner B (as.foldl TenantCall.apply s) (bs.foldl TenantCall.apply s) := by
  have hinv : ∀ c ∈ as ++ bs, ∀ s : Desk, Clean owner s.toRedis →
      Clean owner (TenantCall.apply s c).toRedis := fun c hc s hs =>
    (call_confined hs (hown c hc).tenant c.call (hown c hc).reservations).store.clean hs
  have hhidden : ∀ c ∈ as ++ bs, decide (c.tenantId ≠ B) = true → ∀ s : Desk,
      Clean owner s.toRedis → DeskSees owner B (TenantCall.apply s c) s := by
    intro c hc hother s hs
    have hne : c.tenantId ≠ B := of_decide_eq_true hother
    have hconfined := call_confined hs (hown c hc).tenant c.call (hown c hc).reservations
    exact ⟨hconfined.store.sees (hown c hc).tenant hB hne,
      fun customer => hconfined.cache (B, customer) hne.symm, hconfined.apiKeys⟩
  have hvisible : ∀ c ∈ as ++ bs, decide (c.tenantId ≠ B) = false → ∀ s t : Desk,
      Clean owner s.toRedis → Clean owner t.toRedis → DeskSees owner B s t →
      DeskSees owner B (TenantCall.apply s c) (TenantCall.apply t c) := by
    intro c hc hmine s t hs _ h
    have heq : c.tenantId = B := not_not.mp (of_decide_eq_false hmine)
    unfold TenantCall.apply
    rw [heq]
    exact (h.call hs hB c.call (heq ▸ (hown c hc).reservations)).1
  have hfilter : (fun c : TenantCall => !decide (c.tenantId ≠ B)) =
      fun c => decide (c.tenantId = B) := by
    funext c
    simp
  have hsees : DeskSees owner B (as.foldl TenantCall.apply s) (bs.foldl TenantCall.apply s) := by
    apply unwinding_on (I := fun s : Desk => Clean owner s.toRedis) TenantCall.apply
      (fun c => decide (c.tenantId ≠ B)) (deskSees_equivalence owner B) ?_ hinv hhidden hvisible
      hclean
    rw [hfilter]
    exact hsame
  have hrun : Clean owner (as.foldl TenantCall.apply s).toRedis :=
    foldl_invariant (I := fun s : Desk => Clean owner s.toRedis) TenantCall.apply
      (fun c hc => hinv c (List.mem_append_left bs hc)) hclean
  exact hsees.indistinguishable hrun hB

/-- Budgets of two tenants for one customer, and a hold of the first of them. -/
def acmeAndGlobex : List TenantCall :=
  [⟨"acme", .configure "c1" 5 none (some 1)⟩, ⟨"globex", .configure "c1" 3 none none⟩,
    ⟨"acme", .openHold "r1" "c1" 4 (some "span") none 0⟩,
    ⟨"acme", .check { customerId := "c1", clock := fun _ => 60 } none⟩,
    ⟨"globex", .check { customerId := "c1", clock := fun _ => 60 } (some .budget)⟩]

theorem tenant_isolation_globex :
    Indistinguishable (fun _ => "acme") "globex" (acmeAndGlobex.foldl TenantCall.apply {})
      ([⟨"globex", .configure "c1" 3 none none⟩,
        ⟨"globex", .check { customerId := "c1", clock := fun _ => 60 } (some .budget)⟩].foldl
          TenantCall.apply {}) := by
  apply tenant_isolation (fun _ => "acme") (by decide) {}
  · refine ⟨fun _ _ => rfl, fun _ _ => rfl, fun rid record hget => ?_⟩
    cases hget
  · intro c hc
    simp only [acmeAndGlobex, List.cons_append, List.nil_append, List.mem_cons, List.not_mem_nil,
      or_false] at hc
    rcases hc with rfl | rfl | rfl | rfl | rfl | rfl | rfl <;>
      exact ⟨by decide, by decide⟩
  · rfl

end FluxMeter.Budget
