import FluxMeter.Budget.Holds

/-! What the closers do to a store: one closed record gives back exactly its amount, and so
does every record of a settled window or of an expiry sweep. -/
namespace FluxMeter.Budget
open Collections FluxMeter.Keys

/-! ### Closing one record -/

theorem close_of_some {r : Redis} {rid : String} {record : ReservationRecord} {b : BudgetKey}
    (hget : r.reservations.get rid = some record) (hkey : record.heldKey = some b) :
    Reservation.close r rid =
      (dropReservation (releaseHold r b record.spanHeldKey record.reservedUsd).1 rid,
        some (record.customerId, (releaseHold r b record.spanHeldKey record.reservedUsd).2)) := by
  simp only [Reservation.close, Reservation.heldKeyOf, closeScript, hget, hkey, Option.bind_some]

theorem close_of_none {r : Redis} {rid : String} (hget : r.reservations.get rid = none) :
    Reservation.close r rid = ({ r with pending := r.pending.erase rid }, none) := by
  simp only [Reservation.close, closeScript, hget]

theorem settleOne_of_some {r : Redis} {rid : String} {record : ReservationRecord}
    (b : BudgetKey) (hget : r.reservations.get rid = some record) :
    settleOne b r rid =
      dropReservation (releaseHold r b (sinkSpan record) record.reservedUsd).1 rid := by
  simp only [settleOne, hget, Option.map_some, Option.getD_some, Option.bind_some]

theorem settleOne_of_none {r : Redis} {rid : String} (b : BudgetKey)
    (hget : r.reservations.get rid = none) :
    settleOne b r rid = dropReservation (releaseHold r b none 0).1 rid := by
  simp only [settleOne, hget, Option.map_none, Option.getD_none, Option.bind_none]

section Release
variable {r : Redis} {rid : String} {record : ReservationRecord} {b : BudgetKey} {a : ℚ}

/-- Releasing a record from the key `k` and dropping it keeps the counter of `b` above its
records by the same amount, when `k` is `b` exactly if the record is held on `b`. -/
theorem release_drop_balanced (hr : r.RecordsOpened) (hget : r.reservations.get rid = some record)
    {k : BudgetKey} (hkey : record.heldKey = some b ↔ k = b) (span : Option SpanKey) (ha : 0 ≤ a)
    (hbal : r.recorded b + a = r.held b) :
    (dropReservation (releaseHold r k span record.reservedUsd).1 rid).recorded b + a =
      (dropReservation (releaseHold r k span record.reservedUsd).1 rid).held b := by
  have hres := (releaseHold_frame r k span record.reservedUsd).1
  have hget' : (releaseHold r k span record.reservedUsd).1.reservations.get rid = some record := by
    rw [hres]; exact hget
  have hdrop := dropReservation_recorded hget' b
  have hsame : (releaseHold r k span record.reservedUsd).1.recorded b = r.recorded b := by
    unfold Redis.recorded; rw [hres]
  have hheld : (dropReservation (releaseHold r k span record.reservedUsd).1 rid).held b =
      (releaseHold r k span record.reservedUsd).1.held b := rfl
  by_cases hkb : k = b
  · subst hkb
    have hle := reserved_le_recorded hr hget (hkey.mpr rfl)
    have hexact := (releaseHold_exact span (hr rid record hget).2
      (show record.reservedUsd ≤ r.held k by linarith)).2 k
    have hown : recordHold k record = record.reservedUsd := by simp [recordHold, hkey]
    rw [if_pos rfl] at hexact
    linarith
  · have hother : recordHold b record = 0 := if_neg fun h => hkb (hkey.mp h)
    have hne := releaseHold_held_ne r span record.reservedUsd
      fun h : b = k => hkb h.symm
    linarith

theorem close_balanced (hr : r.RecordsOpened) (ha : 0 ≤ a) (hbal : r.recorded b + a = r.held b) :
    (Reservation.close r rid).1.recorded b + a = (Reservation.close r rid).1.held b := by
  cases hget : r.reservations.get rid with
  | none =>
    rw [close_of_none hget]
    exact hbal
  | some record =>
    obtain ⟨⟨j, hj⟩, -⟩ := hr rid record hget
    rw [close_of_some hget hj]
    exact release_drop_balanced hr hget (by rw [hj, Option.some.injEq]) record.spanHeldKey ha hbal

theorem settleOne_balanced {k : BudgetKey} (hr : r.RecordsOpened)
    (hown : ∀ record, r.reservations.get rid = some record → (record.heldKey = some b ↔ k = b))
    (ha : 0 ≤ a) (hbal : r.recorded b + a = r.held b) :
    (settleOne k r rid).recorded b + a = (settleOne k r rid).held b := by
  cases hget : r.reservations.get rid with
  | none =>
    rw [settleOne_of_none k hget]
    have hres := (releaseHold_frame r k none 0).1
    have hgone : (releaseHold r k none 0).1.reservations.get rid = none := by
      rw [hres]
      exact hget
    have hdrop := (dropReservation_of_none hgone).1 b
    have hsame : (releaseHold r k none 0).1.recorded b = r.recorded b := by
      unfold Redis.recorded; rw [hres]
    have hheld : (dropReservation (releaseHold r k none 0).1 rid).held b = r.held b :=
      releaseHold_zero r k none b
    linarith
  | some record =>
    rw [settleOne_of_some k hget]
    exact release_drop_balanced hr hget (hown record hget) (sinkSpan record) ha hbal

end Release

theorem close_reservations (r : Redis) (rid k : String) :
    (Reservation.close r rid).1.reservations.get k =
      if k = rid then none else r.reservations.get k := by
  unfold Reservation.close closeScript
  cases hget : r.reservations.get rid with
  | none =>
    dsimp only
    split_ifs with hk
    · rw [hk]; exact hget
    · rfl
  | some record =>
    dsimp only [dropReservation]
    rw [Table.get_erase, (releaseHold_frame r _ _ _).1]

theorem settleOne_reservations (b : BudgetKey) (r : Redis) (rid k : String) :
    (settleOne b r rid).reservations.get k =
      if k = rid then none else r.reservations.get k := by
  unfold settleOne
  dsimp only [dropReservation]
  rw [Table.get_erase, (releaseHold_frame r _ _ _).1]

theorem close_budgets (r : Redis) (rid : String) (j : BudgetKey) :
    (Reservation.close r rid).1.budgets j =
      { r.budgets j with heldUsd := ((Reservation.close r rid).1.budgets j).heldUsd } := by
  unfold Reservation.close closeScript
  cases r.reservations.get rid with
  | none => rfl
  | some record => exact releaseHold_budgets r _ _ _ j

theorem settleOne_budgets (b : BudgetKey) (r : Redis) (rid : String) (j : BudgetKey) :
    (settleOne b r rid).budgets j =
      { r.budgets j with heldUsd := ((settleOne b r rid).budgets j).heldUsd } :=
  releaseHold_budgets r b _ _ j

theorem close_guards (r : Redis) (rid : String) :
    (Reservation.close r rid).1.applied = r.applied ∧
      (Reservation.close r rid).1.windowReservations = r.windowReservations := by
  unfold Reservation.close closeScript
  cases hget : r.reservations.get rid with
  | none => exact ⟨rfl, rfl⟩
  | some record =>
    obtain ⟨-, -, hwin, happ⟩ := releaseHold_frame r (Reservation.heldKeyOf r rid)
      (record.spanHeldKey) record.reservedUsd
    exact ⟨happ, hwin⟩

/-! ### Closing many -/

/-- What every closer keeps whatever it closes: all of a budget but its hold, and the records it
leaves. -/
structure Removes (r₀ r : Redis) : Prop where
  rows : ∀ j, r.budgets j = { r₀.budgets j with heldUsd := (r.budgets j).heldUsd }
  kept : ∀ k record, r.reservations.get k = some record → r₀.reservations.get k = some record

/-- A closer that settles `b` only with its own records also keeps the counter of `b` above
them by `a`. -/
structure Closed (b : BudgetKey) (a : ℚ) (r₀ r : Redis) : Prop extends Removes r₀ r where
  balanced : r.recorded b + a = r.held b

namespace Removes
variable {r₀ r : Redis}

theorem refl (r : Redis) : Removes r r := ⟨fun _ => rfl, fun _ _ h => h⟩

theorem balances (h : Removes r₀ r) (j : BudgetKey) :
    (r.budgets j).balanceUsd = (r₀.budgets j).balanceUsd := by
  rw [h.rows j]

theorem recordsOpened (h : Removes r₀ r) (hr : r₀.RecordsOpened) : r.RecordsOpened :=
  fun k record hk => hr k record (h.kept k record hk)

theorem close (h : Removes r₀ r) (rid : String) : Removes r₀ (Reservation.close r rid).1 where
  rows j := by rw [close_budgets r rid j, h.rows j]
  kept k record hk := by
    rw [close_reservations] at hk
    split_ifs at hk
    exact h.kept k record hk

theorem settleOne (h : Removes r₀ r) (b : BudgetKey) (rid : String) :
    Removes r₀ (settleOne b r rid) where
  rows j := by rw [settleOne_budgets b r rid j, h.rows j]
  kept k record hk := by
    rw [settleOne_reservations] at hk
    split_ifs at hk
    exact h.kept k record hk

end Removes

theorem expireDue_fst (r : Redis) (cutoff : ℚ) : (Reservation.expireDue r cutoff).1 =
    (Reservation.due r cutoff).foldl (fun s rid => (Reservation.close s rid).1) r := by
  have hfold : ∀ (l : List String) (acc : Redis × ℕ), (l.foldl (fun acc rid =>
      ((Reservation.close acc.1 rid).1,
        if (Reservation.close acc.1 rid).2.isSome then acc.2 + 1 else acc.2)) acc).1 =
      l.foldl (fun s rid => (Reservation.close s rid).1) acc.1 := by
    intro l
    induction l with
    | nil => exact fun _ => rfl
    | cons rid l ih => exact fun acc => ih _
  exact hfold _ (r, 0)

theorem removes_expireDue (r : Redis) (cutoff : ℚ) :
    Removes r (Reservation.expireDue r cutoff).1 := by
  rw [expireDue_fst]
  exact List.foldlRecOn _ _ (Removes.refl r) fun s hs rid _ => hs.close rid

theorem closed_expireDue {b : BudgetKey} {a : ℚ} {r : Redis} (ha : 0 ≤ a) (hr : r.RecordsOpened)
    (hbal : r.recorded b + a = r.held b) (cutoff : ℚ) :
    Closed b a r (Reservation.expireDue r cutoff).1 := by
  rw [expireDue_fst]
  refine List.foldlRecOn _ _ ⟨Removes.refl r, hbal⟩ fun s hs rid _ => ?_
  exact ⟨hs.toRemoves.close rid, close_balanced (hs.toRemoves.recordsOpened hr) ha hs.balanced⟩

theorem removes_settleAll (k : BudgetKey) (r : Redis) (rids : List String) :
    Removes r (rids.foldl (settleOne k) r) :=
  List.foldlRecOn _ _ (Removes.refl r) fun _ hs rid _ => hs.settleOne k rid

theorem closed_settleAll {b k : BudgetKey} {a : ℚ} {r : Redis} (ha : 0 ≤ a)
    (hr : r.RecordsOpened) (hbal : r.recorded b + a = r.held b) (rids : List String)
    (hown : ∀ rid ∈ rids, ∀ record, r.reservations.get rid = some record →
      (record.heldKey = some b ↔ k = b)) :
    Closed b a r (rids.foldl (settleOne k) r) := by
  refine List.foldlRecOn _ _ ⟨Removes.refl r, hbal⟩ fun s hs rid hrid => ?_
  refine ⟨hs.toRemoves.settleOne k rid,
    settleOne_balanced (hs.toRemoves.recordsOpened hr) (fun record hget => ?_) ha hs.balanced⟩
  exact hown rid hrid record (hs.kept rid record hget)

/-! ### One window -/

theorem recordWindow_budgets (r : Redis) (k : SinkKeys) (a : SinkArgs) (j : BudgetKey) :
    (recordWindow r k a).budgets j =
      { r.budgets j with totalDeductedUsd := ((recordWindow r k a).budgets j).totalDeductedUsd } := by
  unfold recordWindow Redis.setBudget
  by_cases hj : j = k.budget
  · subst hj; simp
  · simp [Function.update_of_ne hj]

theorem settleWindow_removes (r : Redis) (k : SinkKeys) : Removes r (settleWindow r k) := by
  have h := removes_settleAll k.budget r (r.windowReservations k.windowId)
  exact ⟨h.rows, h.kept⟩

/-- Before the deduction a window moves the hold of a row and its counter of deductions. -/
theorem settleWindow_row (r : Redis) (k : SinkKeys) (a : SinkArgs) (j : BudgetKey) :
    ∃ held, (settleWindow (recordWindow r k a) k).budgets j =
      { r.budgets j with
        totalDeductedUsd := if j = k.budget then
          incrByFloat (r.budgets j).totalDeductedUsd a.costUsd else (r.budgets j).totalDeductedUsd
        heldUsd := held } := by
  refine ⟨((settleWindow (recordWindow r k a) k).budgets j).heldUsd, ?_⟩
  rw [(settleWindow_removes (recordWindow r k a) k).rows j]
  by_cases hj : j = k.budget
  · subst hj
    simp [recordWindow]
  · simp [recordWindow, Redis.setBudget_ne _ _ hj, hj]

/-- All a window application can do: nothing when it was applied before, else it records the
counters, settles the attached reservations and, from a configured budget, deducts its cost. -/
theorem sinkScript_cases (r : Redis) (k : SinkKeys) (a : SinkArgs) :
    (r.applied k.windowId = true ∧ (sinkScript r k a).1 = r) ∨
    (r.applied k.windowId = false ∧ (r.budgets k.budget).balanceUsd = none ∧
      (sinkScript r k a).1 = settleWindow (recordWindow r k a) k) ∨
    ∃ balance, r.applied k.windowId = false ∧ (r.budgets k.budget).balanceUsd = some balance ∧
      (sinkScript r k a).1 = (settleWindow (recordWindow r k a) k).setBudget k.budget
        (((settleWindow (recordWindow r k a) k).budgets k.budget).deduct balance a.costUsd) := by
  have hbalance : ((settleWindow (recordWindow r k a) k).budgets k.budget).balanceUsd =
      (r.budgets k.budget).balanceUsd := by
    rw [(settleWindow_removes _ k).balances, recordWindow_budgets]
  unfold sinkScript
  split_ifs with happ
  · exact .inl ⟨happ, rfl⟩
  · have hfresh : r.applied k.windowId = false := by simpa using happ
    dsimp only
    rw [hbalance]
    cases hrow : (r.budgets k.budget).balanceUsd with
    | none => exact .inr (.inl ⟨hfresh, rfl, rfl⟩)
    | some balance => exact .inr (.inr ⟨balance, hfresh, rfl, rfl⟩)

theorem deduct_balanceUsd (row : BudgetRow) (p cost : ℚ) :
    (row.deduct p cost).balanceUsd = some (max 0 (p - cost)) := by
  unfold BudgetRow.deduct
  split_ifs with hover
  · rw [max_eq_left hover.le]
  · rw [max_eq_right (not_lt.mp hover)]

theorem deduct_debtUsd (row : BudgetRow) (p cost : ℚ) :
    number (row.deduct p cost).debtUsd = number row.debtUsd + max 0 (cost - p) := by
  unfold BudgetRow.deduct
  split_ifs with hover
  · rw [number_incrByFloat, neg_sub, max_eq_right (by linarith)]
  · rw [max_eq_left (by linarith), add_zero]

theorem deduct_balanceUsd_isSome (row : BudgetRow) (balance cost : ℚ) :
    (row.deduct balance cost).balanceUsd.isSome := by
  unfold BudgetRow.deduct
  split_ifs <;> rfl

theorem deduct_heldUsd (row : BudgetRow) (balance cost : ℚ) :
    (row.deduct balance cost).heldUsd = row.heldUsd := by
  unfold BudgetRow.deduct
  split_ifs <;> rfl

/-- Two stores that differ only in balances, counters and the bookkeeping of windows. -/
structure SameReservations (r r' : Redis) : Prop where
  reservations : r'.reservations = r.reservations
  spans : r'.spans = r.spans
  heldUsd : ∀ b, (r'.budgets b).heldUsd = (r.budgets b).heldUsd
  present : ∀ b, (r'.budgets b).balanceUsd.isSome = (r.budgets b).balanceUsd.isSome

theorem settleOne_missing (b : BudgetKey) {r : Redis} {rid : String}
    (hget : r.reservations.get rid = none) : SameReservations r (settleOne b r rid) := by
  have hnothing : (releaseHold r b none 0).1 = r := by
    unfold releaseHold
    dsimp only
    rw [if_neg (not_lt.mpr (min_le_right _ _))]
    rfl
  rw [settleOne_of_none b hget, hnothing]
  exact ⟨Table.erase_of_none _ hget, rfl, fun _ => rfl, fun _ => rfl⟩

theorem close_missing {r : Redis} {rid : String} (hget : r.reservations.get rid = none) :
    SameReservations r (Reservation.close r rid).1 := by
  rw [close_of_none hget]
  exact ⟨rfl, rfl, fun _ => rfl, fun _ => rfl⟩

/-- A property of the reservations that every settlement of the window keeps, the window keeps. -/
theorem sinkScript_preserves {P : Redis → Prop} {r : Redis} {k : SinkKeys} (a : SinkArgs)
    (hsame : ∀ r₁ r₂, SameReservations r₁ r₂ → P r₁ → P r₂)
    (hsettle : r.applied k.windowId = false → ∀ rid ∈ r.windowReservations k.windowId,
      ∀ r₁, P r₁ → P (settleOne k.budget r₁ rid))
    (h : P r) : P (sinkScript r k a).1 := by
  have hsettled : r.applied k.windowId = false → P (settleWindow (recordWindow r k a) k) := by
    intro hfresh
    have hrecord : P (recordWindow r k a) := by
      refine hsame r _ ⟨rfl, rfl, fun b => ?_, fun b => ?_⟩ h
      · rw [recordWindow_budgets]
      · rw [recordWindow_budgets]
    have hloop : P ((r.windowReservations k.windowId).foldl (settleOne k.budget)
        (recordWindow r k a)) :=
      List.foldlRecOn _ _ hrecord fun r₁ h₁ rid hrid => hsettle hfresh rid hrid r₁ h₁
    have hemptied : SameReservations ((r.windowReservations k.windowId).foldl
        (settleOne k.budget) (recordWindow r k a)) (settleWindow (recordWindow r k a) k) :=
      ⟨rfl, rfl, fun _ => rfl, fun _ => rfl⟩
    exact hsame _ _ hemptied hloop
  rcases sinkScript_cases r k a with ⟨-, heq⟩ | ⟨hfresh, -, heq⟩ | ⟨balance, hfresh, hbalance, heq⟩
  · rw [heq]
    exact h
  · rw [heq]
    exact hsettled hfresh
  · rw [heq]
    have hrow : ((settleWindow (recordWindow r k a) k).budgets k.budget).balanceUsd =
        some balance := by
      rw [(settleWindow_removes _ k).balances, recordWindow_budgets]
      exact hbalance
    have hdeducted : SameReservations (settleWindow (recordWindow r k a) k)
        ((settleWindow (recordWindow r k a) k).setBudget k.budget
          (((settleWindow (recordWindow r k a) k).budgets k.budget).deduct balance a.costUsd)) := by
      refine ⟨rfl, rfl, fun b => ?_, fun b => ?_⟩
      · by_cases hb : b = k.budget
        · rw [hb, Redis.setBudget_self, deduct_heldUsd]
        · rw [Redis.setBudget_ne _ _ hb]
      · by_cases hb : b = k.budget
        · rw [hb, Redis.setBudget_self, deduct_balanceUsd_isSome, hrow]
          rfl
        · rw [Redis.setBudget_ne _ _ hb]
    exact hsame _ _ hdeducted (hsettled hfresh)

theorem settleAll_frame (k : BudgetKey) (r : Redis) (rids : List String) :
    (rids.foldl (settleOne k) r).applied = r.applied ∧
      (rids.foldl (settleOne k) r).windowReservations = r.windowReservations ∧
      ∀ rid, rid ∉ rids →
        (rids.foldl (settleOne k) r).reservations.get rid = r.reservations.get rid := by
  refine List.foldlRecOn (motive := fun s : Redis => s.applied = r.applied ∧
    s.windowReservations = r.windowReservations ∧
    ∀ rid, rid ∉ rids → s.reservations.get rid = r.reservations.get rid) rids (settleOne k)
    ⟨rfl, rfl, fun _ _ => rfl⟩ fun s hs x hx => ?_
  obtain ⟨happ, hwin, hget⟩ := hs
  obtain ⟨-, -, hwin', happ'⟩ := releaseHold_frame s k
    ((s.reservations.get x).bind sinkSpan)
    (((s.reservations.get x).map ReservationRecord.reservedUsd).getD 0)
  refine ⟨happ'.trans happ, hwin'.trans hwin, fun rid hrid => ?_⟩
  have hne : rid ≠ x := by
    intro h
    exact hrid (h ▸ hx)
  rw [settleOne_reservations, if_neg hne]
  exact hget rid hrid

/-- The first application of a window sets its guard, empties its reservation set, and leaves
every record that was not in it. -/
theorem sinkScript_fresh {r : Redis} {k : SinkKeys} (a : SinkArgs)
    (hfresh : r.applied k.windowId = false) :
    (sinkScript r k a).1.applied = Function.update r.applied k.windowId true ∧
      (sinkScript r k a).1.windowReservations = Function.update r.windowReservations k.windowId [] ∧
      ∀ rid, rid ∉ r.windowReservations k.windowId →
        (sinkScript r k a).1.reservations.get rid = r.reservations.get rid := by
  obtain ⟨happ, hwin, hget⟩ := settleAll_frame k.budget (recordWindow r k a)
    ((recordWindow r k a).windowReservations k.windowId)
  have hset : (settleWindow (recordWindow r k a) k).applied =
        Function.update r.applied k.windowId true ∧
      (settleWindow (recordWindow r k a) k).windowReservations =
        Function.update r.windowReservations k.windowId [] ∧
      ∀ rid, rid ∉ r.windowReservations k.windowId →
        (settleWindow (recordWindow r k a) k).reservations.get rid = r.reservations.get rid :=
    ⟨happ, rfl, hget⟩
  rcases sinkScript_cases r k a with ⟨hyes, -⟩ | ⟨-, -, h⟩ | ⟨balance, -, -, h⟩
  · rw [hfresh] at hyes
    simp at hyes
  · rw [h]; exact hset
  · rw [h]; exact hset

/-- The row with the cost of a window counted, and another hold. -/
def BudgetRow.recorded (row : BudgetRow) (costUsd : ℚ) (held : Option ℚ) : BudgetRow :=
  { row with
    totalDeductedUsd := incrByFloat row.totalDeductedUsd costUsd
    heldUsd := held }

/-- All a window can do to its own budget: nothing when it was applied before, else it counts its
cost, and a balance is charged. -/
theorem sinkScript_row_self (r : Redis) (k : SinkKeys) (a : SinkArgs) :
    (r.applied k.windowId = true ∧ (sinkScript r k a).1.budgets k.budget = r.budgets k.budget) ∨
    (r.applied k.windowId = false ∧ (r.budgets k.budget).balanceUsd = none ∧ ∃ held,
      (sinkScript r k a).1.budgets k.budget = (r.budgets k.budget).recorded a.costUsd held) ∨
    ∃ balance held, r.applied k.windowId = false ∧
      (r.budgets k.budget).balanceUsd = some balance ∧
      (sinkScript r k a).1.budgets k.budget =
        ((r.budgets k.budget).recorded a.costUsd held).deduct balance a.costUsd := by
  obtain ⟨held, hrow⟩ := settleWindow_row r k a k.budget
  rw [if_pos rfl] at hrow
  rcases sinkScript_cases r k a with ⟨happ, h⟩ | ⟨hfresh, hnone, h⟩ | ⟨balance, hfresh, hsome, h⟩
  · exact .inl ⟨happ, by rw [h]⟩
  · exact .inr (.inl ⟨hfresh, hnone, held, h ▸ hrow⟩)
  · refine .inr (.inr ⟨balance, held, hfresh, hsome, ?_⟩)
    rw [h, Redis.setBudget_self, hrow]
    rfl

theorem sinkScript_row_ne (r : Redis) (k : SinkKeys) (a : SinkArgs) {b : BudgetKey}
    (hb : b ≠ k.budget) :
    ∃ held, (sinkScript r k a).1.budgets b = { r.budgets b with heldUsd := held } := by
  obtain ⟨held, hrow⟩ := settleWindow_row r k a b
  rw [if_neg hb] at hrow
  rcases sinkScript_cases r k a with ⟨-, h⟩ | ⟨-, -, h⟩ | ⟨balance, -, -, h⟩
  · exact ⟨(r.budgets b).heldUsd, by rw [h]⟩
  · exact ⟨held, h ▸ hrow⟩
  · exact ⟨held, by rw [h, Redis.setBudget_ne _ _ hb, hrow]⟩

theorem sinkScript_other {r : Redis} {k : SinkKeys} (a : SinkArgs) {b : BudgetKey}
    (hb : b ≠ k.budget) :
    ((sinkScript r k a).1.budgets b).balanceUsd = (r.budgets b).balanceUsd ∧
      ((sinkScript r k a).1.budgets b).debtUsd = (r.budgets b).debtUsd := by
  obtain ⟨held, hrow⟩ := sinkScript_row_ne r k a hb
  rw [hrow]
  exact ⟨rfl, rfl⟩

theorem sinkScript_paid {r : Redis} {k : SinkKeys} {a : SinkArgs} {balance : ℚ}
    (hfresh : r.applied k.windowId = false)
    (hbal : (r.budgets k.budget).balanceUsd = some balance) (hcost : a.costUsd ≤ balance) :
    ((sinkScript r k a).1.budgets k.budget).balanceUsd = some (balance - a.costUsd) ∧
      ((sinkScript r k a).1.budgets k.budget).debtUsd = (r.budgets k.budget).debtUsd := by
  rcases sinkScript_row_self r k a with ⟨hyes, -⟩ | ⟨-, hnone, -⟩ | ⟨balance', held, -, hsome, hrow⟩
  · rw [hfresh] at hyes
    simp at hyes
  · rw [hnone] at hbal
    simp at hbal
  · rw [hbal, Option.some.injEq] at hsome
    subst hsome
    rw [hrow]
    unfold BudgetRow.deduct
    rw [if_neg (by linarith)]
    exact ⟨rfl, rfl⟩

end FluxMeter.Budget
