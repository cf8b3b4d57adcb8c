import FluxMeter.Sdk.Wrap

/-! Whether a wrapped call gives back what it holds. Only the end of the stream and the kill
reconcile, and they reconcile the estimate whether or not it was reserved. -/
namespace FluxMeter.Sdk
open FluxMeter.Budget FluxMeter.Keys

/-- The call reconciles what the server held for it, and the customer's hold is as before. -/
structure Balanced (w : Wrapper) (b : Behaviour) (r : Redis) : Prop where
  amounts : (call w b r).reconciledUsd = (call w b r).heldUsd
  held : (call w b r).store.held (holdKey w r) = r.held (holdKey w r)

/-- The server grants the estimate when it is asked. -/
def Grants (w : Wrapper) (r : Redis) : Prop :=
  0 < w.estimatedCostUsd ∧ budgetFound w r = true ∧
    ∃ balance, (r.budgets (holdKey w r)).balanceUsd = some balance ∧
      r.held (holdKey w r) + w.estimatedCostUsd ≤ balance

/-- The call gets as far as `meter.reserve`. -/
def Reserves (w : Wrapper) (b : Behaviour) : Prop :=
  admitted w b = true ∧ b.stream = true ∧ w.apiUrl = true

/-- The server holds the estimate for the call. -/
def Holds (w : Wrapper) (b : Behaviour) (r : Redis) : Prop :=
  Reserves w b ∧ b.reserve ≠ .refused ∧ Grants w r

/-- The token counts after the items. -/
def readItems (t : Tokens) (items : List StreamItem) : Tokens :=
  items.foldl (fun t item => match item with
    | .chunk c => t.noteChunk c
    | .fault => t) t

/-- Asked `n` times, the stream comes to its end or to a chunk that takes the estimated cost over
the reserved amount. -/
def ReadsOut (w : Wrapper) (reservedUsd : ℚ) (t : Tokens) (items : List StreamItem) (n : ℕ) :
    Prop :=
  items.length < n ∨ ∃ k < n, ∃ c, items[k]? = some (.chunk c) ∧
    reservedUsd < (readItems t (items.take (k + 1))).estimate w

/-- The call asks to reconcile: the provider is called, and its stream is read out. -/
def AsksBack (w : Wrapper) (b : Behaviour) (r : Redis) : Prop :=
  Reserves w b ∧ 0 < w.estimatedCostUsd ∧ (w.failOpen = true ∨ b.reserve = .replied ∧ Grants w r) ∧
    ∃ items, b.provider = .stream items ∧ ReadsOut w w.estimatedCostUsd {} items b.pulls

/-! ### The stream -/

theorem readsOut_nil {w : Wrapper} {q : ℚ} {t : Tokens} {n : ℕ} :
    ReadsOut w q t [] n ↔ 0 < n := by
  simp [ReadsOut]

theorem readsOut_cons {w : Wrapper} {q : ℚ} {t : Tokens} {item : StreamItem}
    {items : List StreamItem} {n : ℕ} :
    ReadsOut w q t (item :: items) (n + 1) ↔
      (∃ c, item = .chunk c ∧ q < (t.noteChunk c).estimate w) ∨
        ReadsOut w q (readItems t [item]) items n := by
  unfold ReadsOut
  constructor
  · rintro (hlong | ⟨k, hk, c, hget, hover⟩)
    · right
      left
      simpa using hlong
    · cases k with
      | zero =>
        left
        have hitem : item = .chunk c := by simpa using hget
        subst hitem
        exact ⟨c, rfl, hover⟩
      | succ k => exact Or.inr (Or.inr ⟨k, by omega, c, hget, hover⟩)
  · rintro (⟨c, rfl, hover⟩ | hlong | ⟨k, hk, c, hget, hover⟩)
    · exact Or.inr ⟨0, by omega, c, rfl, hover⟩
    · left
      simpa using hlong
    · exact Or.inr ⟨k + 1, by omega, c, hget, hover⟩

namespace KillableStream
variable {w : Wrapper}

theorem pull_closed (n : ℕ) {s : KillableStream} (h : s.closed = true) : pull w n s = [] := by
  have hfinish : ∀ s : KillableStream, s.closed = true → s.finish w = (s, []) := by
    intro s hs
    unfold finish
    rw [if_pos hs]
  induction n generalizing s with
  | zero => rfl
  | succ n ih =>
    have hnext : (s.next w).2 = [] ∧ (s.next w).1.closed = true := by
      unfold next
      cases hrest : s.rest with
      | nil =>
        dsimp only
        rw [hfinish s h]
        exact ⟨rfl, h⟩
      | cons item rest =>
        cases item with
        | fault => exact ⟨rfl, h⟩
        | chunk c =>
          dsimp only
          split_ifs
          · rw [hfinish { s with rest := rest, tokens := s.tokens.noteChunk c } h]
            exact ⟨rfl, h⟩
          · exact ⟨rfl, h⟩
    rw [pull, hnext.1, ih hnext.2]
    rfl

theorem pull_silent (n : ℕ) {s : KillableStream} (h : ¬ (0 < s.reservedUsd ∧ w.apiUrl = true)) :
    pull w n s = [] := by
  have hfinish : ∀ s : KillableStream, ¬ (0 < s.reservedUsd ∧ w.apiUrl = true) →
      (s.finish w).2 = [] ∧ (s.finish w).1.reservedUsd = s.reservedUsd := by
    intro s hs
    unfold finish
    split_ifs with hclosed hasks
    · exact ⟨rfl, rfl⟩
    · exact absurd (by simpa using hasks) hs
    · exact ⟨rfl, rfl⟩
  induction n generalizing s with
  | zero => rfl
  | succ n ih =>
    have hnext : (s.next w).2 = [] ∧ (s.next w).1.reservedUsd = s.reservedUsd := by
      unfold next
      cases hrest : s.rest with
      | nil => exact hfinish s h
      | cons item rest =>
        cases item with
        | fault => exact ⟨rfl, rfl⟩
        | chunk c =>
          dsimp only
          split_ifs
          · exact hfinish { s with rest := rest, tokens := s.tokens.noteChunk c } h
          · exact ⟨rfl, rfl⟩
    rw [pull, hnext.1, ih (by rw [hnext.2]; exact h)]
    rfl

open Classical in
theorem pull_open (n : ℕ) {q : ℚ} (hq : 0 < q) (hurl : w.apiUrl = true) (t : Tokens)
    (items : List StreamItem) :
    pull w n { reservedUsd := q, tokens := t, rest := items } =
      if ReadsOut w q t items n then [q] else [] := by
  have hfinish : ∀ s : KillableStream, s.reservedUsd = q → s.closed = false →
      s.finish w = ({ s with closed := true }, [q]) := by
    intro s hs hopen
    unfold finish
    rw [if_neg (by simp [hopen]), if_pos (by simp [hs, hq, hurl]), hs]
  induction n generalizing t items with
  | zero =>
    have hnot : ¬ ReadsOut w q t items 0 := by simp [ReadsOut]
    rw [if_neg hnot]
    rfl
  | succ n ih =>
    rw [pull]
    cases items with
    | nil =>
      rw [if_pos (readsOut_nil.mpr (Nat.succ_pos n))]
      unfold next
      dsimp only
      rw [hfinish _ rfl rfl, pull_closed n rfl]
      rfl
    | cons item items =>
      cases item with
      | fault =>
        have hstep : ReadsOut w q t (.fault :: items) (n + 1) ↔ ReadsOut w q t items n := by
          rw [readsOut_cons]
          simp [readItems]
        unfold next
        dsimp only
        rw [ih, List.nil_append]
        simp only [hstep]
      | chunk c =>
        unfold next
        dsimp only
        by_cases hover : q < (t.noteChunk c).estimate w
        · rw [if_pos ⟨hq, hover⟩, if_pos (readsOut_cons.mpr (Or.inl ⟨c, rfl, hover⟩)),
            hfinish _ rfl rfl, pull_closed n rfl]
          rfl
        · have hstep : ReadsOut w q t (.chunk c :: items) (n + 1) ↔
              ReadsOut w q (t.noteChunk c) items n := by
            rw [readsOut_cons]
            simp [readItems, hover]
          rw [if_neg (fun h => hover h.2), ih, List.nil_append]
          simp only [hstep]

end KillableStream

/-! ### The budget service -/

section Service
variable {w : Wrapper} {r : Redis}

theorem reserveBudget_of_grants (h : Grants w r) :
    (reserveBudget w r).1 = r.incrHeld (holdKey w r) w.estimatedCostUsd ∧
    (reserveBudget w r).2.elim false ReserveReply.isReserved = true := by
  obtain ⟨hpos, hfound, balance, hbalance, hcovered⟩ := h
  have hcovers : ¬ balance - r.held (holdKey w r) < w.estimatedCostUsd := by linarith
  have hreserve : Reservation.reserve r w.tenantId w.customerId w.estimatedCostUsd none =
      reserveScript r (holdKey w r) none w.estimatedCostUsd := if_neg (not_le.mpr hpos)
  unfold reserveBudget
  rw [if_neg (by simp [hpos, hfound]), hreserve]
  unfold reserveScript
  dsimp only
  rw [hbalance]
  dsimp only
  rw [if_neg hcovers]
  exact ⟨rfl, rfl⟩

theorem reserveBudget_of_not_grants (h : ¬ Grants w r) :
    (reserveBudget w r).1 = r ∧
    (reserveBudget w r).2.elim false ReserveReply.isReserved = false := by
  unfold reserveBudget
  split_ifs with hearly
  · exact ⟨rfl, rfl⟩
  simp only [Bool.or_eq_true, decide_eq_true_eq, Bool.not_eq_true', not_or, not_le,
    Bool.not_eq_false] at hearly
  have hreserve : Reservation.reserve r w.tenantId w.customerId w.estimatedCostUsd none =
      reserveScript r (holdKey w r) none w.estimatedCostUsd := if_neg (not_le.mpr hearly.1)
  rw [hreserve]
  rcases reserveScript_cases r (holdKey w r) none w.estimatedCostUsd with
    ⟨hrefused, hsame⟩ | ⟨balance, _, _, _, -, hbalance, hcovered, -⟩
  · exact ⟨hsame, hrefused⟩
  · exact absurd ⟨hearly.1, hearly.2, balance, hbalance, hcovered⟩ h

theorem budgetPrefixForRead_incrHeld {k : BudgetKey} (q : ℚ) (hk : (r.budgets k).present = true)
    (t : Option String) (c : String) :
    budgetPrefixForRead (r.incrHeld k q) t c = budgetPrefixForRead r t c := by
  have hpresent : ∀ j, ((r.incrHeld k q).budgets j).present = (r.budgets j).present := by
    intro j
    by_cases hj : j = k
    · subst hj
      rw [hk]
      simp [BudgetRow.present, Redis.incrHeld, incrByFloat]
    · simp [Redis.incrHeld, Redis.setBudget, hj]
  unfold budgetPrefixForRead
  simp only [hpresent]

theorem keys_of_grants (h : Grants w r) :
    holdKey w (r.incrHeld (holdKey w r) w.estimatedCostUsd) = holdKey w r ∧
    budgetFound w (r.incrHeld (holdKey w r) w.estimatedCostUsd) = budgetFound w r := by
  obtain ⟨-, -, balance, hbalance, -⟩ := h
  have hpresent : (r.budgets (holdKey w r)).present = true := by
    simp [BudgetRow.present, hbalance]
  constructor
  · exact budgetPrefixForRead_incrHeld _ hpresent _ _
  · unfold budgetFound
    rw [budgetPrefixForRead_incrHeld _ hpresent, Redis.balanceUsd_incrHeld]

theorem reconcile_missing (q : ℚ) (o : Outcome) (hfound : budgetFound w o.store = false) :
    o.reconcile w q = o := by
  have hfailed : reconcileBudget w o.store q = (o.store, false) := if_pos (by simp [hfound])
  unfold Outcome.reconcile
  rw [hfailed]
  rfl

theorem reconcile_held {q : ℚ} (hq : 0 < q) (o : Outcome) (hfound : budgetFound w o.store = true) :
    (o.reconcile w q).reconciledUsd = o.reconciledUsd + q ∧ (o.reconcile w q).heldUsd = o.heldUsd ∧
    (o.reconcile w q).store = (releaseHold o.store (holdKey w o.store) none q).1 := by
  unfold Outcome.reconcile reconcileBudget
  rw [if_neg (by simp [hfound])]
  refine ⟨rfl, rfl, ?_⟩
  change (releaseHold o.store (holdKey w o.store) none (max 0 q)).1 = _
  rw [max_eq_right hq.le]

theorem held_release_incrHeld (k : BudgetKey) {q : ℚ} (hq : 0 < q) :
    (releaseHold (r.incrHeld k q) k none q).1.held k = r.held k ↔ 0 ≤ r.held k := by
  have hheld : (r.incrHeld k q).held k = r.held k + q := by
    rw [Redis.held_incrHeld, if_pos rfl]
  constructor
  · intro hback
    by_contra hneg
    rw [not_le] at hneg
    have hmin : min (r.held k + q) q = r.held k + q := min_eq_left (by linarith)
    unfold releaseHold releaseSpan at hback
    dsimp only at hback
    rw [hheld, hmin] at hback
    split_ifs at hback with hpos
    · rw [Redis.held_incrHeld, if_pos rfl, hheld] at hback
      linarith
    · rw [hheld] at hback
      linarith
  · intro hnonneg
    have hexact := (releaseHold_exact none hq (by rw [hheld]; linarith)).2 k
    rw [hexact, if_pos rfl, hheld]
    ring

end Service

/-! ### The call -/

section Call
variable {w : Wrapper} {b : Behaviour} {r : Redis}

theorem create_of_reserves (h : Reserves w b) : create w b r =
    ((reserveHold w b.reserve r).1, (reserveHold w b.reserve r).2.1,
      opened w b (reserveHold w b.reserve r).2.2) := by
  obtain ⟨hadmitted, hstream, hurl⟩ := h
  unfold create
  rw [if_neg (by simp [hadmitted]), if_pos (by simp [hstream, hurl])]

theorem create_of_not_reserves (h : ¬ Reserves w b) : (create w b r).1 = r ∧
    (create w b r).2.1 = 0 ∧ ∀ s, (create w b r).2.2 = some s → w.apiUrl = false := by
  unfold create
  by_cases hrefused : (!admitted w b) = true
  · rw [if_pos hrefused]
    exact ⟨rfl, rfl, fun s hs => nomatch hs⟩
  have hasks : ¬ (b.stream && w.apiUrl) = true := by
    intro hasks
    rw [Bool.and_eq_true] at hasks
    exact h ⟨by simpa using hrefused, hasks.1, hasks.2⟩
  rw [if_neg hrefused, if_neg hasks]
  refine ⟨rfl, rfl, fun s hs => ?_⟩
  unfold opened at hs
  cases hprovider : b.provider with
  | raises => simp [hprovider] at hs
  | response => simp [hprovider] at hs
  | stream items =>
    cases hstream : b.stream with
    | false => simp [hprovider, hstream] at hs
    | true => simpa [hstream] using hasks

open Classical in
theorem create_store : (create w b r).1 =
      (if Holds w b r then r.incrHeld (holdKey w r) w.estimatedCostUsd else r) ∧
    (create w b r).2.1 = if Holds w b r then w.estimatedCostUsd else 0 := by
  by_cases hreserves : Reserves w b
  · rw [create_of_reserves hreserves]
    dsimp only
    by_cases hgrants : Grants w r
    · obtain ⟨hstore, hgranted⟩ := reserveBudget_of_grants hgrants
      unfold reserveHold
      dsimp only
      rw [hstore, hgranted]
      cases hreserve : b.reserve with
      | refused => simp [Holds, hreserve]
      | lost => simp [Holds, hreserve, hreserves, hgrants]
      | replied => simp [Holds, hreserve, hreserves, hgrants]
    · obtain ⟨hstore, hrefused⟩ := reserveBudget_of_not_grants hgrants
      unfold reserveHold
      dsimp only
      rw [hstore, hrefused]
      cases b.reserve <;> simp [Holds, hgrants]
  · obtain ⟨hstore, hheld, -⟩ := create_of_not_reserves hreserves
    rw [hstore, hheld, if_neg (fun h => hreserves h.1), if_neg (fun h => hreserves h.1)]
    exact ⟨rfl, rfl⟩

private theorem reserveHold_goesOn : ((reserveHold w b.reserve r).2.2 = none ↔
      ¬ (w.failOpen = true ∨ b.reserve = .replied ∧ Grants w r)) ∧
    ∀ q, (reserveHold w b.reserve r).2.2 = some q →
      (if q ≠ 0 then q else w.estimatedCostUsd) = w.estimatedCostUsd := by
  by_cases hgrants : Grants w r
  · obtain ⟨-, hgranted⟩ := reserveBudget_of_grants hgrants
    unfold reserveHold
    dsimp only
    rw [hgranted]
    cases b.reserve <;> cases w.failOpen <;> simp [hgrants]
  · obtain ⟨-, hrefused⟩ := reserveBudget_of_not_grants hgrants
    unfold reserveHold
    dsimp only
    rw [hrefused]
    cases b.reserve <;> cases w.failOpen <;> simp [hgrants]

open Classical in
theorem create_requests : (create w b r).2.2.elim [] (KillableStream.pull w b.pulls) =
    if AsksBack w b r then [w.estimatedCostUsd] else [] := by
  by_cases hreserves : Reserves w b
  case neg =>
    rw [if_neg (fun h => hreserves h.1)]
    cases hstream : (create w b r).2.2 with
    | none => rfl
    | some s =>
      have hurl := (create_of_not_reserves hreserves).2.2 s hstream
      exact KillableStream.pull_silent _ (by simp [hurl])
  obtain ⟨hnone, hamount⟩ := reserveHold_goesOn (w := w) (b := b) (r := r)
  rw [create_of_reserves hreserves]
  dsimp only
  cases hreserved : (reserveHold w b.reserve r).2.2 with
  | none => rw [if_neg fun h => hnone.mp hreserved h.2.2.1]; rfl
  | some q =>
    have hgoes : w.failOpen = true ∨ b.reserve = .replied ∧ Grants w r := by
      by_contra hstop
      rw [hnone.mpr hstop] at hreserved
      exact absurd hreserved (by simp)
    unfold opened
    cases hprovider : b.provider with
    | raises => rw [if_neg (by simp [AsksBack, hprovider])]; rfl
    | response => rw [if_neg (by simp [AsksBack, hprovider])]; rfl
    | stream items =>
      dsimp only
      rw [if_pos hreserves.2.1, hamount q hreserved]
      by_cases hpos : 0 < w.estimatedCostUsd
      · have hasks : AsksBack w b r ↔ ReadsOut w w.estimatedCostUsd {} items b.pulls := by
          simp [AsksBack, hprovider, hreserves, hpos, hgoes]
        simp only [hasks]
        exact KillableStream.pull_open b.pulls hpos hreserves.2.2 {} items
      · rw [if_neg fun h => hpos h.2.1]
        exact KillableStream.pull_silent _ fun h => hpos h.1

private theorem call_of_asksBack (h : AsksBack w b r)
    (hfound : budgetFound w (create w b r).1 = true) :
    (call w b r).reconciledUsd = w.estimatedCostUsd ∧ (call w b r).heldUsd = (create w b r).2.1 ∧
    (call w b r).store = (releaseHold (create w b r).1 (holdKey w (create w b r).1) none
      w.estimatedCostUsd).1 := by
  have hrequests := create_requests (w := w) (b := b) (r := r)
  rw [if_pos h] at hrequests
  unfold call
  dsimp only
  rw [hrequests]
  obtain ⟨hamount, hheld, hstore⟩ :=
    reconcile_held h.2.1 ⟨(create w b r).1, (create w b r).2.1, 0⟩ hfound
  rw [zero_add] at hamount
  exact ⟨hamount, hheld, hstore⟩

private theorem call_of_not (h : ¬ (AsksBack w b r ∧ budgetFound w (create w b r).1 = true)) :
    (call w b r).reconciledUsd = 0 ∧ (call w b r).heldUsd = (create w b r).2.1 ∧
    (call w b r).store = (create w b r).1 := by
  have hrequests := create_requests (w := w) (b := b) (r := r)
  unfold call
  dsimp only
  rw [hrequests]
  split_ifs with hasks
  · have hfound : budgetFound w (create w b r).1 = false := by simpa [hasks] using h
    rw [List.foldl_cons, List.foldl_nil, reconcile_missing w.estimatedCostUsd
      ⟨(create w b r).1, (create w b r).2.1, 0⟩ hfound]
    exact ⟨rfl, rfl, rfl⟩
  · exact ⟨rfl, rfl, rfl⟩

end Call

/-- A wrapped call is balanced exactly when the server holds the estimate for it if and only if
its stream is read out while there is a budget (and the customer's hold was not negative). -/
theorem balanced_iff (w : Wrapper) (b : Behaviour) (r : Redis) :
    Balanced w b r ↔ (Holds w b r ↔ AsksBack w b r ∧ budgetFound w r = true) ∧
      (Holds w b r → 0 ≤ r.held (holdKey w r)) := by
  classical
  obtain ⟨hstore, hheld⟩ := create_store (w := w) (b := b) (r := r)
  have hfound : budgetFound w (create w b r).1 = budgetFound w r := by
    rw [hstore]
    split_ifs with hholds
    · exact (keys_of_grants hholds.2.2).2
    · rfl
  have hq : ∀ h : AsksBack w b r, w.estimatedCostUsd ≠ 0 := fun h => ne_of_gt h.2.1
  by_cases hback : AsksBack w b r ∧ budgetFound w r = true
  · have hpos := hback.1.2.1
    obtain ⟨hreconciled, hheldUsd, hafter⟩ := call_of_asksBack hback.1 (hfound.trans hback.2)
    by_cases hholds : Holds w b r
    · rw [if_pos hholds] at hstore hheld
      rw [hstore, (keys_of_grants hholds.2.2).1] at hafter
      have hsame := held_release_incrHeld (r := r) (holdKey w r) hpos
      constructor
      · intro h
        have hkept := h.held
        rw [hafter] at hkept
        exact ⟨⟨fun _ => hback, fun _ => hholds⟩, fun _ => hsame.mp hkept⟩
      · rintro ⟨-, hnonneg⟩
        refine ⟨by rw [hreconciled, hheldUsd, hheld], ?_⟩
        rw [hafter]
        exact hsame.mpr (hnonneg hholds)
    · rw [if_neg hholds] at hheld
      constructor
      · intro h
        have hamounts := h.amounts
        rw [hreconciled, hheldUsd, hheld] at hamounts
        exact absurd hamounts (hq hback.1)
      · rintro ⟨hiff, -⟩
        exact absurd (hiff.mpr hback) hholds
  · have hnot : ¬ (AsksBack w b r ∧ budgetFound w (create w b r).1 = true) := by rwa [hfound]
    obtain ⟨hreconciled, hheldUsd, hafter⟩ := call_of_not hnot
    by_cases hholds : Holds w b r
    · rw [if_pos hholds] at hheld
      constructor
      · intro h
        have hamounts := h.amounts
        rw [hreconciled, hheldUsd, hheld] at hamounts
        exact absurd hamounts.symm (ne_of_gt hholds.2.2.1)
      · rintro ⟨hiff, -⟩
        exact absurd (hiff.mp hholds) hback
    · rw [if_neg hholds] at hstore hheld
      constructor
      · intro _
        exact ⟨⟨fun h => absurd h hholds, fun h => absurd h hback⟩, fun h => absurd h hholds⟩
      · intro _
        refine ⟨by rw [hreconciled, hheldUsd, hheld], ?_⟩
        rw [hafter, hstore]

/-- A customer with a balance of one dollar, five cents of it held by another call. -/
def oneDollar : Redis :=
  { budgets := fun k => if k = ⟨none, "cust_1"⟩ then
      { balanceUsd := some 1, heldUsd := some (1 / 20) } else {} }

/-- The service refuses to reserve, the call goes on because it fails open, and the end of the
stream releases the five cents that another call holds. -/
theorem overrelease :
    (call { customerId := "cust_1" } { reserve := .refused, provider := .stream [], pulls := 1 }
      oneDollar).heldUsd = 0 ∧
    (call { customerId := "cust_1" } { reserve := .refused, provider := .stream [], pulls := 1 }
      oneDollar).reconciledUsd = 1 / 20 ∧
    (call { customerId := "cust_1" } { reserve := .refused, provider := .stream [], pulls := 1 }
      oneDollar).store.held ⟨none, "cust_1"⟩ = 0 ∧
    ¬ Balanced { customerId := "cust_1" }
      { reserve := .refused, provider := .stream [], pulls := 1 } oneDollar := by
  have hheld : (call { customerId := "cust_1" }
      { reserve := .refused, provider := .stream [], pulls := 1 } oneDollar).heldUsd = 0 := by
    decide +kernel
  have hreconciled : (call { customerId := "cust_1" }
      { reserve := .refused, provider := .stream [], pulls := 1 } oneDollar).reconciledUsd =
      1 / 20 := by
    decide +kernel
  refine ⟨hheld, hreconciled, by decide +kernel, fun h => ?_⟩
  have hamounts := h.amounts
  rw [hreconciled, hheld] at hamounts
  norm_num at hamounts

end FluxMeter.Sdk
