import FluxMeter.Usage.BillingMonotone
import FluxMeter.Usage.Noninterference
import FluxMeter.Usage.Writes

/-! Accounting under replays and reordering. Each of the two sinks leaves a store that depends on the
set of its events or windows alone. -/
namespace FluxMeter.Usage
open FluxMeter.Budget FluxMeter.Keys FluxMeter.Model Collections Transition

/-! ### Tame scripts -/

section Tame
variable {hidden : String → Prop}

instance (key : String) : Decidable (Write.PackageCell key) := inferInstanceAs (Decidable (_ ∨ _))

theorem not_packageCell_of_end {key suffix : String} (hkey : endOf key = endOf suffix)
    (h : ¬ Write.PackageCell suffix) : ¬ Write.PackageCell key := by
  unfold Write.PackageCell at h ⊢
  rwa [hkey]

theorem not_packageCell_append (p : String) {suffix : String} (hlong : 2 ≤ suffix.toList.length)
    (h : ¬ Write.PackageCell suffix) : ¬ Write.PackageCell (p ++ suffix) :=
  not_packageCell_of_end (endOf_append p hlong) h

theorem tame_positive (n : ℤ) {w : Write} (h : w.Tame hidden) :
    ∀ w' ∈ Write.positive n w, w'.Tame hidden := by
  unfold Write.positive
  split_ifs
  · simpa using h
  · simp

theorem tame_rollupWrites (a : SinkArgs) (key : String) :
    ∀ w ∈ rollupWrites a key, w.Tame hidden := by
  have hdetail : ∀ (n : ℤ) (field : String), ∀ w ∈ Write.positive n (.hincrBy key field n),
      w.Tame hidden := fun n _ => tame_positive n trivial
  unfold rollupWrites
  simp only [List.forall_mem_append]
  exact ⟨⟨by simp [Write.Tame], hdetail _ _⟩, hdetail _ _⟩

theorem tame_windowWrites {k : SinkKeys} {a : SinkArgs} {t : Option String}
    (hglobal : k.global = globalKey t) (hvolume : ∃ p, k.periodVolume = p ++ ":volume_tokens")
    (hlast : hidden (globalKey t "last_window_end")) :
    ∀ w ∈ windowWrites k a, w.Tame hidden := by
  have hkey : ∀ (p suffix : String) (n : ℤ), 2 ≤ suffix.toList.length →
      ¬ Write.PackageCell suffix → Write.Tame hidden (.incrBy (p ++ suffix) n) :=
    fun p suffix n hlong h => not_packageCell_append p hlong h
  have hglobalKey : ∀ (suffix : String) (n : ℤ), 2 ≤ suffix.toList.length →
      ¬ Write.PackageCell suffix → Write.Tame hidden (.incrBy (k.global suffix) n) := by
    intro suffix n hlong h
    rw [hglobal]
    exact not_packageCell_of_end (globalKey_end t hlong) h
  have hperiod : Write.Tame hidden (.incrBy k.periodVolume a.totalTokens) := by
    obtain ⟨p, hp⟩ := hvolume
    rw [hp]
    exact hkey p _ _ (by decide) (by decide)
  have hend : Write.Tame hidden (.setInt (k.global "last_window_end") a.windowEnd) := by
    rw [hglobal]
    exact hlast
  unfold windowWrites restWrites
  simp only [List.forall_mem_append, List.forall_mem_cons]
  refine ⟨⟨⟨hkey _ _ _ (by decide) (by decide), hkey _ _ _ (by decide) (by decide),
    hkey _ _ _ (by decide) (by decide), hkey _ _ _ (by decide) (by decide),
    hkey _ _ _ (by decide) (by decide), hkey _ _ _ (by decide) (by decide),
    hkey _ _ _ (by decide) (by decide), trivial, trivial, List.forall_mem_nil _⟩, ?_⟩, trivial,
    List.forall_mem_nil _⟩
  refine ⟨⟨⟨⟨?_, ?_⟩, ?_⟩, tame_rollupWrites a _⟩, tame_rollupWrites a _⟩
  · exact tame_positive _ (hkey _ _ _ (by decide) (by decide))
  · exact tame_positive _ (hkey _ _ _ (by decide) (by decide))
  · exact ⟨hglobalKey _ _ (by decide) (by decide), hglobalKey _ _ (by decide) (by decide),
      hglobalKey _ _ (by decide) (by decide), hglobalKey _ _ (by decide) (by decide), trivial, hend,
      hperiod, List.forall_mem_nil _⟩

private theorem tame_sessionWrites (a : ProjectionArgs) (key : String) :
    ∀ w ∈ sessionWrites a key, w.Tame hidden := by
  have hkey : ∀ (suffix : String) (n : ℤ), 2 ≤ suffix.toList.length →
      ¬ Write.PackageCell suffix → Write.Tame hidden (.incrBy (key ++ suffix) n) :=
    fun suffix n hlong h => not_packageCell_append key hlong h
  unfold sessionWrites
  simp only [List.forall_mem_append, List.forall_mem_cons]
  refine ⟨⟨⟨hkey _ _ (by decide) (by decide), hkey _ _ (by decide) (by decide),
    hkey _ _ (by decide) (by decide), hkey _ _ (by decide) (by decide), trivial,
    List.forall_mem_nil _⟩, ?_⟩, ?_⟩
  · exact tame_positive _ (hkey _ _ (by decide) (by decide))
  · exact tame_positive _ (hkey _ _ (by decide) (by decide))

theorem tame_before_draw (k : ProjectionKeys) (a : ProjectionArgs) :
    ∀ w ∈ k.session.toList.flatMap (sessionWrites a) ++ modelRollupWrites a k.modelRollup,
      w.Tame hidden := by
  rw [List.forall_mem_append]
  constructor
  · intro w hw
    obtain ⟨key, -, hw⟩ := List.mem_flatMap.mp hw
    exact tame_sessionWrites a key w hw
  · unfold modelRollupWrites
    simp [Write.Tame]

theorem tame_after_draw (k : ProjectionKeys) (a : ProjectionArgs) :
    ∀ w ∈ (k.apiKeyDay.toList ++ k.apiKeyMonth.toList).map (fun key => .incrByFloat key a.costUsd) ++
      k.dims.flatMap (dimTotalsWrites a), w.Tame hidden := by
  rw [List.forall_mem_append, List.forall_mem_map]
  refine ⟨fun _ _ => trivial, ?_⟩
  intro w hw
  obtain ⟨key, -, hw⟩ := List.mem_flatMap.mp hw
  have hcount : ¬ Write.PackageCell (key ++ ":event_count") :=
    not_packageCell_append key (by decide) (by decide)
  have hall : ∀ w ∈ dimTotalsWrites a key, w.Tame hidden := by
    unfold dimTotalsWrites
    simp only [List.forall_mem_cons]
    exact ⟨trivial, hcount, List.forall_mem_nil _⟩
  exact hall w hw

theorem tame_projectionWrites {k : ProjectionKeys} {a : ProjectionArgs} {t : Option String}
    {c : String} (hpackage : k.package = packageKey t c) (htokens : 0 ≤ a.totalTokens) :
    ∀ w ∈ projectionWrites k a, w.Tame hidden := by
  obtain ⟨⟨p, hp⟩, -⟩ := packageKey_shape t c
  have hend : endOf k.package = endOf ":tokens_remaining" := by
    rw [hpackage, hp, endOf_append p (by decide)]
  unfold projectionWrites
  rw [List.append_assoc, List.forall_mem_append, List.forall_mem_append, List.forall_mem_singleton]
  exact ⟨⟨tame_before_draw k a, hend, htokens⟩, tame_after_draw k a⟩

theorem alike_swap (hseen : ∀ key, Write.PackageCell key → ¬ hidden key) {ws ws' : List Write}
    (hws : ∀ w ∈ ws, w.Tame hidden) (hws' : ∀ w ∈ ws', w.Tame hidden) (u : UsageStore) :
    Alike hidden (ws'.foldl Write.run (ws.foldl Write.run u))
      (ws.foldl Write.run (ws'.foldl Write.run u)) := by
  rw [← List.foldl_append, ← List.foldl_append]
  have hboth : ∀ w ∈ ws ++ ws', w.Tame hidden := List.forall_mem_append.mpr ⟨hws, hws'⟩
  exact (Write.swappable hseen hboth).foldl_perm (alike_equivalence hidden) List.perm_append_comm
    trivial trivial ((alike_equivalence hidden).refl u)

end Tame

/-! ### The event projection -/

/-- An event with the monthly volume that the meter stamped on it. -/
structure Stamped where
  event : TokenEvent
  monthlyBefore : ℤ
  deriving DecidableEq

def Stamped.id (x : Stamped) : String := TokenEvent.orNull x.event.eventId

/-- The texts that the last event overwrites: the customer of a session, and the heartbeat. -/
def Overwritten (key : String) : Prop :=
  key = heartbeatKey ∨ ∃ session, key = session ++ ":customer_id"

/-- Budgets, spans, reservation records and window guards. -/
def outsideUsage (r : Redis) : Redis := { r with windowReservations := fun _ => [], usage := {} }

/-- Two stores that agree on all but the overwritten texts; a set is known by its members. -/
structure SameAccounts (s s' : Keyspace) : Prop where
  projected : s.projected = s'.projected
  usage : Alike (fun _ => False) s.usage s'.usage
  windowReservations : ∀ window rid,
    rid ∈ s.windowReservations window ↔ rid ∈ s'.windowReservations window
  texts : ∀ key, ¬ Overwritten key → s.texts key = s'.texts key
  others : outsideUsage s.toRedis = outsideUsage s'.toRedis
  ranked : s.ranked = s'.ranked

theorem sameAccounts_equivalence : Equivalence SameAccounts where
  refl s := ⟨rfl, (alike_equivalence _).refl s.usage, fun _ _ => Iff.rfl, fun _ _ => rfl, rfl, rfl⟩
  symm h := ⟨h.projected.symm, (alike_equivalence _).symm h.usage,
    fun w r => (h.windowReservations w r).symm, fun k hk => (h.texts k hk).symm, h.others.symm,
    h.ranked.symm⟩
  trans h h' := ⟨h.projected.trans h'.projected, (alike_equivalence _).trans h.usage h'.usage,
    fun w r => (h.windowReservations w r).trans (h'.windowReservations w r),
    fun k hk => (h.texts k hk).trans (h'.texts k hk), h.others.trans h'.others,
    h.ranked.trans h'.ranked⟩

def projectionBody (s : Keyspace) (k : ProjectionKeys) (a : ProjectionArgs) : Keyspace :=
  { s with
    projected := Function.update s.projected k.projection true
    toRedis := { attachToWindow s.toRedis k a with usage := projectUsage s.usage k a }
    texts := projectTexts s.texts k a }

section Body
variable {s s' : Keyspace} {k k' : ProjectionKeys} {a a' : ProjectionArgs} {t t' : Option String}
  {c c' : String}

theorem mem_windowReservations (s : Keyspace) (k : ProjectionKeys) (a : ProjectionArgs)
    (window rid : String) : rid ∈ (projectionBody s k a).windowReservations window ↔
      rid ∈ s.windowReservations window ∨ (k.window = some window ∧ rid = a.reservationId) := by
  show rid ∈ (attachToWindow s.toRedis k a).windowReservations window ↔ _
  unfold attachToWindow
  cases hw : k.window with
  | none => simp
  | some w =>
    dsimp only [attachReservation]
    by_cases hsame : window = w
    · subst hsame
      rw [Function.update_self]
      by_cases hmem : a.reservationId ∈ s.windowReservations window
      · rw [if_pos hmem]
        constructor
        · exact Or.inl
        · rintro (h | ⟨-, rfl⟩)
          · exact h
          · exact hmem
      · rw [if_neg hmem, List.mem_cons, or_comm]
        simp
    · rw [Function.update_of_ne hsame]
      simp [Ne.symm hsame]

theorem outsideUsage_projectionBody (s : Keyspace) (k : ProjectionKeys) (a : ProjectionArgs) :
    outsideUsage (projectionBody s k a).toRedis = outsideUsage s.toRedis := by
  unfold projectionBody attachToWindow
  cases k.window <;> rfl

theorem texts_projectionBody (s : Keyspace) (k : ProjectionKeys) (a : ProjectionArgs) {key : String}
    (hkey : ¬ Overwritten key) : (projectionBody s k a).texts key = s.texts key := by
  apply projectTexts_frame
  · intro hmem
    obtain ⟨session, -, rfl⟩ := List.mem_map.mp hmem
    exact hkey (Or.inr ⟨session, rfl⟩)
  · intro hbeat
    exact hkey (Or.inl hbeat)

theorem usage_projectionBody (s : Keyspace) (k : ProjectionKeys) (a : ProjectionArgs) :
    (projectionBody s k a).usage = (projectionWrites k a).foldl Write.run s.usage :=
  (foldl_projectionWrites s.usage k a).symm

theorem projectionBody_congr (hpackage : k.package = packageKey t c) (htokens : 0 ≤ a.totalTokens)
    (clock : String) (h : SameAccounts s s') :
    SameAccounts (projectionBody s k { a with clock := clock }) (projectionBody s' k a) := by
  constructor
  case projected =>
    show Function.update s.projected _ _ = Function.update s'.projected _ _
    rw [h.projected]
  case usage =>
    have hclock : (projectionBody s k { a with clock := clock }).usage =
      (projectionBody s k a).usage := rfl
    rw [hclock, usage_projectionBody, usage_projectionBody]
    exact (Write.swappable (fun _ _ => id) (tame_projectionWrites hpackage htokens)).foldl_congr
      trivial trivial h.usage
  case windowReservations =>
    intro window rid
    rw [mem_windowReservations, mem_windowReservations, h.windowReservations]
  case texts =>
    intro key hkey
    rw [texts_projectionBody _ _ _ hkey, texts_projectionBody _ _ _ hkey, h.texts key hkey]
  case others => rw [outsideUsage_projectionBody, outsideUsage_projectionBody, h.others]
  case ranked => exact h.ranked

theorem projectionBody_swap (s : Keyspace) (hpackage : k.package = packageKey t c)
    (hpackage' : k'.package = packageKey t' c') (htokens : 0 ≤ a.totalTokens)
    (htokens' : 0 ≤ a'.totalTokens) (hkeys : k.projection ≠ k'.projection) :
    SameAccounts (projectionBody (projectionBody s k a) k' a')
      (projectionBody (projectionBody s k' a') k a) := by
  constructor
  case projected =>
    show Function.update (Function.update s.projected k.projection true) k'.projection true =
      Function.update (Function.update s.projected k'.projection true) k.projection true
    exact Function.update_comm hkeys _ _ _
  case usage =>
    simp only [usage_projectionBody]
    exact alike_swap (fun _ _ => id) (tame_projectionWrites hpackage htokens)
      (tame_projectionWrites hpackage' htokens') s.usage
  case windowReservations =>
    intro window rid
    simp only [mem_windowReservations]
    exact or_right_comm
  case texts =>
    intro key hkey
    simp only [texts_projectionBody _ _ _ hkey]
  case others => simp only [outsideUsage_projectionBody]
  case ranked => rfl

end Body

namespace Projection
variable (P : Projection)

/-- One delivery of a stamped event, at a clock of its own. -/
def deliver (s : Keyspace) (x : Stamped × String) : Keyspace :=
  (P.apply s x.1.event x.1.monthlyBefore x.2).1

/-- The same at no clock. -/
def account : Keyspace → Stamped → Keyspace :=
  guarded (fun s key => s.projected key) (fun x => P.projectionKey x.event.eventId) fun s x =>
    projectionBody s (P.keys x.event) (P.args x.event x.monthlyBefore "")

theorem marks : Marks (fun s key => Keyspace.projected s key)
    (fun x : Stamped => P.projectionKey x.event.eventId) fun s x =>
      projectionBody s (P.keys x.event) (P.args x.event x.monthlyBefore "") := by
  intro s x key
  show Function.update s.projected (P.projectionKey x.event.eventId) true key = true ↔ _
  by_cases hkey : key = P.projectionKey x.event.eventId
  · simp [hkey]
  · simp [hkey]

theorem deliver_eq (s : Keyspace) (x : Stamped × String) : P.deliver s x =
    if s.projected (P.projectionKey x.1.event.eventId) then s
    else projectionBody s (P.keys x.1.event) (P.args x.1.event x.1.monthlyBefore x.2) := by
  unfold deliver apply projectionScript
  have hkey : (P.keys x.1.event).projection = P.projectionKey x.1.event.eventId := rfl
  rw [hkey]
  split_ifs <;> rfl

theorem deliver_account {s s' : Keyspace} {x : Stamped × String}
    (htokens : 0 ≤ x.1.event.getTotalTokens) (h : SameAccounts s s') :
    SameAccounts (P.deliver s x) (P.account s' x.1) := by
  have hguard : s.projected (P.projectionKey x.1.event.eventId) =
      s'.projected (P.projectionKey x.1.event.eventId) := by rw [h.projected]
  rw [deliver_eq, hguard]
  unfold account guarded
  dsimp only
  split_ifs with hdone
  · exact h
  · exact projectionBody_congr (k := P.keys x.1.event) (a := P.args x.1.event x.1.monthlyBefore "")
      rfl htokens x.2 h

theorem swappable_account {events : List Stamped}
    (hids : ∀ x ∈ events, ∀ y ∈ events,
      P.projectionKey x.event.eventId = P.projectionKey y.event.eventId → x = y)
    (htokens : ∀ x ∈ events, 0 ≤ x.event.getTotalTokens) :
    Swappable (fun _ => True) SameAccounts P.account events where
  keeps _ _ _ _ := trivial
  congr x hx s s' _ _ h := by
    have hs := P.deliver_account (x := (x, "")) (htokens x hx) (sameAccounts_equivalence.refl s)
    exact sameAccounts_equivalence.trans (sameAccounts_equivalence.symm hs)
      (P.deliver_account (htokens x hx) h)
  swap x hx y hy s _ := by
    by_cases hxy : x = y
    · subst hxy
      exact sameAccounts_equivalence.refl _
    · have hkey : P.projectionKey x.event.eventId ≠ P.projectionKey y.event.eventId :=
        fun h => hxy (hids x hx y hy h)
      exact guarded_swap sameAccounts_equivalence P.marks hkey fun _ _ =>
        projectionBody_swap s rfl rfl (htokens x hx) (htokens y hy) hkey

theorem deliver_insensitive {deliveries deliveries' : List (Stamped × String)}
    (hsame : ∀ x, x ∈ deliveries.map Prod.fst ↔ x ∈ deliveries'.map Prod.fst)
    (hids : ∀ x ∈ deliveries.map Prod.fst, ∀ y ∈ deliveries.map Prod.fst,
      P.projectionKey x.event.eventId = P.projectionKey y.event.eventId → x = y)
    (htokens : ∀ x ∈ deliveries.map Prod.fst, 0 ≤ x.event.getTotalTokens) (s : Keyspace) :
    SameAccounts (deliveries.foldl P.deliver s) (deliveries'.foldl P.deliver s) := by
  have hrun : ∀ l : List (Stamped × String), (∀ x ∈ l.map Prod.fst, 0 ≤ x.event.getTotalTokens) →
      SameAccounts (l.foldl P.deliver s) ((l.map Prod.fst).foldl P.account s) := by
    intro l hl
    refine foldl_map_related ?_ (sameAccounts_equivalence.refl s)
    intro x hx s s' h
    exact P.deliver_account (hl x.1 (List.mem_map_of_mem hx)) h
  have hset := foldl_guarded_of_mem_iff sameAccounts_equivalence P.marks
    (P.swappable_account hids htokens) hsame (s := s) trivial
  exact sameAccounts_equivalence.trans (hrun deliveries htokens)
    (sameAccounts_equivalence.trans hset
      (sameAccounts_equivalence.symm (hrun deliveries' fun x hx => htokens x ((hsame x).mpr hx))))

end Projection

/-! ### The window sink -/

/-- The number that the last window of a tenant overwrites. -/
def LastWindowEnd (key : String) : Prop := ∃ t, key = globalKey t "last_window_end"

theorem not_lastWindowEnd {key : String} (hkey : Write.PackageCell key) : ¬ LastWindowEnd key := by
  rintro ⟨t, rfl⟩
  exact not_packageCell_of_end (globalKey_end t (by decide)) (by decide) hkey

/-- Two stores that agree on all but the last window ends. -/
structure SameBooks (r r' : Redis) : Prop where
  usage : Alike LastWindowEnd r.usage r'.usage
  budgets : r.budgets = r'.budgets
  spans : r.spans = r'.spans
  reservations : r.reservations = r'.reservations
  pending : r.pending = r'.pending
  windowReservations : r.windowReservations = r'.windowReservations
  applied : r.applied = r'.applied

theorem sameBooks_equivalence : Equivalence SameBooks where
  refl r := ⟨(alike_equivalence _).refl r.usage, rfl, rfl, rfl, rfl, rfl, rfl⟩
  symm h := ⟨(alike_equivalence _).symm h.usage, h.budgets.symm, h.spans.symm, h.reservations.symm,
    h.pending.symm, h.windowReservations.symm, h.applied.symm⟩
  trans h h' := ⟨(alike_equivalence _).trans h.usage h'.usage, h.budgets.trans h'.budgets,
    h.spans.trans h'.spans, h.reservations.trans h'.reservations, h.pending.trans h'.pending,
    h.windowReservations.trans h'.windowReservations, h.applied.trans h'.applied⟩

/-- What a window with no reservations attached does to the row of its budget. -/
def pay (costUsd : ℚ) (row : BudgetRow) : BudgetRow :=
  let counted := { row with totalDeductedUsd := incrByFloat row.totalDeductedUsd costUsd }
  match row.balanceUsd with
  | none => counted
  | some balance => counted.deduct balance costUsd

theorem pay_some {row : BudgetRow} {balance : ℚ} (h : row.balanceUsd = some balance) (costUsd : ℚ) :
    pay costUsd row = { row with
      totalDeductedUsd := incrByFloat row.totalDeductedUsd costUsd
      balanceUsd := some (withdraw (balance, row.debtUsd) costUsd).1
      debtUsd := (withdraw (balance, row.debtUsd) costUsd).2 } := by
  unfold pay
  rw [h]
  dsimp only
  unfold BudgetRow.deduct withdraw
  dsimp only
  split_ifs <;> rfl

theorem pay_none {row : BudgetRow} (h : row.balanceUsd = none) (costUsd : ℚ) :
    pay costUsd row =
      { row with totalDeductedUsd := incrByFloat row.totalDeductedUsd costUsd } := by
  unfold pay
  rw [h]

theorem pay_comm {p q : ℚ} (hp : 0 ≤ p) (hq : 0 ≤ q) (row : BudgetRow) :
    pay q (pay p row) = pay p (pay q row) := by
  cases h : row.balanceUsd with
  | none =>
    have hcounted : ∀ c, (pay c row).balanceUsd = none := fun c => by rw [pay_none h]; exact h
    rw [pay_none (hcounted p), pay_none (hcounted q), pay_none h, pay_none h]
    simp only [incrByFloat_comm]
  | some balance =>
    have hpaid : ∀ c, (pay c row).balanceUsd = some (withdraw (balance, row.debtUsd) c).1 :=
      fun c => by rw [pay_some h]
    rw [pay_some (hpaid p), pay_some (hpaid q), pay_some h, pay_some h]
    have hcells := withdraw_comm hp hq (balance, row.debtUsd)
    simp only [Prod.mk.eta, hcells]
    rw [incrByFloat_comm]

def windowBody (r : Redis) (agg : UsageAggregate) : Redis :=
  let k := sinkKeys agg
  let a := sinkArgs agg
  let r₁ := settleWindow (recordWindow r k a) k
  match (r₁.budgets k.budget).balanceUsd with
  | none => r₁
  | some balance => r₁.setBudget k.budget ((r₁.budgets k.budget).deduct balance a.costUsd)

def idOf (agg : UsageAggregate) : String := (sinkKeys agg).windowId

theorem invoke_eq (r : Redis) (agg : UsageAggregate) :
    (invoke r agg).1 = guarded (fun r id => r.applied id) idOf windowBody r agg := by
  unfold invoke sinkScript guarded windowBody idOf
  split_ifs
  · rfl
  · dsimp only
    cases ((settleWindow (recordWindow r (sinkKeys agg) (sinkArgs agg)) (sinkKeys agg)).budgets
      (sinkKeys agg).budget).balanceUsd <;> rfl

private theorem windowBody_applied (r : Redis) (agg : UsageAggregate) :
    (windowBody r agg).applied = Function.update r.applied (idOf agg) true := by
  have hsettled := (settleWindow_guarded (recordWindow r (sinkKeys agg) (sinkArgs agg))
    (sinkKeys agg)).2
  unfold windowBody
  dsimp only
  cases ((settleWindow (recordWindow r (sinkKeys agg) (sinkArgs agg)) (sinkKeys agg)).budgets
    (sinkKeys agg).budget).balanceUsd with
  | none => exact hsettled
  | some balance => exact hsettled

theorem marks_windowBody : Marks (fun r id => Redis.applied r id) idOf windowBody := by
  intro r agg id
  show (windowBody r agg).applied id = true ↔ id = idOf agg ∨ r.applied id = true
  rw [windowBody_applied]
  by_cases hid : id = idOf agg
  · simp [hid]
  · simp [hid]

/-- A window with no reservations attached counts its usage and pays. -/
def accountWindow (r : Redis) (agg : UsageAggregate) : Redis :=
  { r with
    applied := Function.update r.applied (idOf agg) true
    usage := (windowWrites (sinkKeys agg) (sinkArgs agg)).foldl Write.run r.usage
    budgets := adjust r.budgets (sinkKeys agg).budget (pay agg.getCostUsd) }

section Windows
variable {r r' : Redis} {agg agg' : UsageAggregate}

theorem windowBody_unattached (h : r.windowReservations (idOf agg) = []) :
    windowBody r agg = accountWindow r agg := by
  have hsettled : settleWindow (recordWindow r (sinkKeys agg) (sinkArgs agg)) (sinkKeys agg) =
      recordWindow r (sinkKeys agg) (sinkArgs agg) := by
    have hempty : (recordWindow r (sinkKeys agg) (sinkArgs agg)).windowReservations
        (sinkKeys agg).windowId = [] := h
    unfold settleWindow
    rw [hempty, Function.update_eq_self_iff.mpr hempty.symm]
    rfl
  have hrow : (recordWindow r (sinkKeys agg) (sinkArgs agg)).budgets (sinkKeys agg).budget =
      { r.budgets (sinkKeys agg).budget with
        totalDeductedUsd := incrByFloat (r.budgets (sinkKeys agg).budget).totalDeductedUsd
          agg.getCostUsd } := Function.update_self _ _ _
  unfold windowBody accountWindow
  dsimp only
  rw [hsettled, foldl_windowWrites]
  cases hbalance : (r.budgets (sinkKeys agg).budget).balanceUsd with
  | none =>
    have hnone : ((recordWindow r (sinkKeys agg) (sinkArgs agg)).budgets
        (sinkKeys agg).budget).balanceUsd = none := by rw [hrow, hbalance]
    rw [hnone]
    unfold adjust
    rw [pay_none hbalance]
    rfl
  | some balance =>
    have hsome : ((recordWindow r (sinkKeys agg) (sinkArgs agg)).budgets
        (sinkKeys agg).budget).balanceUsd = some balance := by rw [hrow, hbalance]
    have hpay : pay agg.getCostUsd (r.budgets (sinkKeys agg).budget) =
        ((recordWindow r (sinkKeys agg) (sinkArgs agg)).budgets (sinkKeys agg).budget).deduct
          balance agg.getCostUsd := by
      rw [hrow]
      unfold pay
      rw [hbalance]
      rfl
    rw [hsome]
    unfold adjust
    rw [hpay]
    show (recordWindow r (sinkKeys agg) (sinkArgs agg)).setBudget _ _ = _
    unfold recordWindow Redis.setBudget
    dsimp only
    rw [Function.update_idem]
    rfl

theorem tame_window (agg : UsageAggregate) :
    ∀ w ∈ windowWrites (sinkKeys agg) (sinkArgs agg), w.Tame LastWindowEnd :=
  tame_windowWrites (t := agg.tenantId) rfl ⟨_, rfl⟩ ⟨agg.tenantId, rfl⟩

theorem usage_accountWindow (r : Redis) (agg : UsageAggregate) : (accountWindow r agg).usage =
    (windowWrites (sinkKeys agg) (sinkArgs agg)).foldl Write.run r.usage := rfl

private theorem accountWindow_congr (agg : UsageAggregate) (h : SameBooks r r') :
    SameBooks (accountWindow r agg) (accountWindow r' agg) := by
  constructor
  case usage =>
    rw [usage_accountWindow, usage_accountWindow]
    exact (Write.swappable (fun _ => not_lastWindowEnd) (tame_window agg)).foldl_congr trivial trivial
      h.usage
  case budgets =>
    show adjust r.budgets _ _ = adjust r'.budgets _ _
    rw [h.budgets]
  case applied =>
    show Function.update r.applied _ _ = Function.update r'.applied _ _
    rw [h.applied]
  case spans => exact h.spans
  case reservations => exact h.reservations
  case pending => exact h.pending
  case windowReservations => exact h.windowReservations

private theorem accountWindow_swap (r : Redis) (hids : idOf agg ≠ idOf agg')
    (hcost : 0 ≤ agg.getCostUsd)
    (hcost' : 0 ≤ agg'.getCostUsd) :
    SameBooks (accountWindow (accountWindow r agg) agg')
      (accountWindow (accountWindow r agg') agg) := by
  constructor
  case usage =>
    simp only [usage_accountWindow]
    exact alike_swap (fun _ => not_lastWindowEnd) (tame_window agg) (tame_window agg') r.usage
  case budgets => exact adjust_comm (pay_comm hcost hcost') r.budgets _ _
  case applied => exact Function.update_comm hids true true r.applied
  case spans => rfl
  case reservations => rfl
  case pending => rfl
  case windowReservations => rfl

end Windows

private theorem invoke_insensitive {aggs aggs' : List UsageAggregate}
    (hsame : ∀ agg, agg ∈ aggs ↔ agg ∈ aggs')
    (hids : ∀ agg ∈ aggs, ∀ agg' ∈ aggs, idOf agg = idOf agg' → agg = agg')
    (hcost : ∀ agg ∈ aggs, 0 ≤ agg.getCostUsd) {r : Redis}
    (hfree : ∀ agg ∈ aggs, r.windowReservations (idOf agg) = []) :
    SameBooks (aggs.foldl (fun r agg => (invoke r agg).1) r)
      (aggs'.foldl (fun r agg => (invoke r agg).1) r) := by
  have hstep : (fun r agg => (invoke r agg).1) =
      guarded (fun r id => Redis.applied r id) idOf windowBody := by
    funext r agg
    exact invoke_eq r agg
  rw [hstep]
  refine foldl_guarded_of_mem_iff (I := fun r => ∀ agg ∈ aggs, r.windowReservations (idOf agg) = [])
    sameBooks_equivalence marks_windowBody ?_ hsame hfree
  constructor
  case keeps =>
    intro agg hagg r hr agg' hagg'
    unfold guarded
    split_ifs
    · exact hr agg' hagg'
    · rw [windowBody_unattached (hr agg hagg)]
      exact hr agg' hagg'
  case congr =>
    intro agg hagg r r' hr hr' h
    refine guarded_congr (congrFun h.applied (idOf agg)) h ?_
    rw [windowBody_unattached (hr agg hagg), windowBody_unattached (hr' agg hagg)]
    exact accountWindow_congr agg h
  case swap =>
    intro agg hagg agg' hagg' r hr
    by_cases hsame : agg = agg'
    · subst hsame
      exact sameBooks_equivalence.refl _
    · have hid : idOf agg ≠ idOf agg' := fun h => hsame (hids agg hagg agg' hagg' h)
      refine guarded_swap sameBooks_equivalence marks_windowBody hid fun _ _ => ?_
      have hfree : ∀ a, (accountWindow r a).windowReservations = r.windowReservations := fun _ => rfl
      rw [windowBody_unattached (hr agg hagg), windowBody_unattached (hr agg' hagg'),
        windowBody_unattached (by rw [hfree]; exact hr agg' hagg'),
        windowBody_unattached (by rw [hfree]; exact hr agg hagg)]
      exact accountWindow_swap r hid (hcost agg hagg) (hcost agg' hagg')

/-- Accounting depends on the set of events and on the set of windows alone, as long as no event has
a negative total of tokens and no window a negative cost. -/
theorem accounting_insensitive (P : Projection) :
    (∀ (s : Keyspace) (deliveries deliveries' : List (Stamped × String)),
      (∀ x, x ∈ deliveries.map Prod.fst ↔ x ∈ deliveries'.map Prod.fst) →
      (∀ x ∈ deliveries.map Prod.fst, ∀ y ∈ deliveries.map Prod.fst, x.id = y.id → x = y) →
      (∀ x ∈ deliveries.map Prod.fst, ∀ y ∈ deliveries.map Prod.fst,
        P.sha256 x.id = P.sha256 y.id → x.id = y.id) →
      (∀ x ∈ deliveries.map Prod.fst, 0 ≤ x.event.getTotalTokens) →
      SameAccounts (deliveries.foldl P.deliver s) (deliveries'.foldl P.deliver s)) ∧
    (∀ (r : Redis) (aggs aggs' : List UsageAggregate),
      (∀ agg, agg ∈ aggs ↔ agg ∈ aggs') →
      (∀ agg ∈ aggs, ∀ agg' ∈ aggs, idOf agg = idOf agg' → agg = agg') →
      (∀ agg ∈ aggs, 0 ≤ agg.costMicro) →
      (∀ agg ∈ aggs, r.windowReservations (idOf agg) = []) →
      SameBooks (aggs.foldl (fun r agg => (invoke r agg).1) r)
        (aggs'.foldl (fun r agg => (invoke r agg).1) r)) := by
  constructor
  · intro s deliveries deliveries' hsame hids hsha htokens
    refine P.deliver_insensitive hsame (fun x hx y hy hkey => ?_) htokens s
    have hdigest : P.sha256 x.id = P.sha256 y.id :=
      (String.append_right_inj "projection:").mp hkey
    exact hids x hx y hy (hsha x hx y hy hdigest)
  · intro r aggs aggs' hsame hids hcost hfree
    refine invoke_insensitive hsame hids (fun agg hagg => ?_) hfree
    have hcost' : (0 : ℚ) ≤ agg.costMicro := Int.cast_nonneg (hcost agg hagg)
    exact div_nonneg hcost' (by norm_num)

/-- Two events on one package and two windows on one balance, in either order. -/
theorem accounting_insensitive_prepaid :
    SameAccounts
      ([(⟨usedTokens 12, 0⟩, "1"), (⟨{ usedTokens 30 with eventId := some "e2" }, 12⟩, "2")].foldl
        flatProjection.deliver prepaid)
      ([(⟨{ usedTokens 30 with eventId := some "e2" }, 12⟩, "3"), (⟨usedTokens 12, 0⟩, "4"),
        (⟨usedTokens 12, 0⟩, "5")].foldl flatProjection.deliver prepaid) ∧
    SameBooks
      ([{ windowStart := 0, costMicro := 700000 }, { windowStart := 10000, costMicro := 600000 }].foldl
        (fun r agg => (invoke r agg).1) prepaid.toRedis)
      ([{ windowStart := 10000, costMicro := 600000 }, { windowStart := 0, costMicro := 700000 },
        { windowStart := 10000, costMicro := 600000 }].foldl
        (fun r agg => (invoke r agg).1) prepaid.toRedis) := by
  obtain ⟨hevents, hwindows⟩ := accounting_insensitive flatProjection
  constructor
  · refine hevents _ _ _ ?_ (by decide) (by decide) (by decide)
    intro x
    simp only [List.map_cons, List.map_nil, List.mem_cons, List.not_mem_nil, or_false]
    tauto
  · refine hwindows _ _ _ ?_ (by decide +kernel) (by decide) (by decide)
    intro agg
    simp only [List.mem_cons, List.not_mem_nil, or_false]
    tauto

/-- Counts that are not negative one by one, with a total that has wrapped. -/
def wrappedTotal : TokenEvent :=
  { usedTokens 2147483647 with eventId := some "e2", outputTokens := 1 }

/-- The order shows where a total has wrapped: the event puts tokens into the package. -/
theorem not_accounting_insensitive :
    ¬ ∀ (P : Projection) (s : Keyspace) (deliveries deliveries' : List (Stamped × String)),
      (∀ x, x ∈ deliveries.map Prod.fst ↔ x ∈ deliveries'.map Prod.fst) →
      (∀ x ∈ deliveries.map Prod.fst, ∀ y ∈ deliveries.map Prod.fst, x.id = y.id → x = y) →
      (∀ x ∈ deliveries.map Prod.fst, ∀ y ∈ deliveries.map Prod.fst,
        P.sha256 x.id = P.sha256 y.id → x.id = y.id) →
      (∀ x ∈ deliveries.map Prod.fst, 0 ≤ x.event.inputTokens ∧ 0 ≤ x.event.outputTokens ∧
        0 ≤ x.event.cacheReadTokens ∧ 0 ≤ x.event.cacheWriteTokens ∧
        0 ≤ x.event.reasoningTokens ∧ 0 ≤ x.event.embeddingTokens) →
      SameAccounts (deliveries.foldl P.deliver s) (deliveries'.foldl P.deliver s) := by
  intro h
  have hsame := h flatProjection prepaid [(⟨usedTokens 30, 0⟩, "1"), (⟨wrappedTotal, 0⟩, "2")]
    [(⟨wrappedTotal, 0⟩, "1"), (⟨usedTokens 30, 0⟩, "2")]
    (fun x => by
      simp only [List.map_cons, List.map_nil, List.mem_cons, List.not_mem_nil, or_false]
      tauto)
    (by decide) (by decide) (by decide)
  have hints := hsame.usage.ints (packageKey (some "t") "acme") not_false
  revert hints
  decide +kernel

end FluxMeter.Usage
