import Mathlib.Data.Set.Basic
import Mathlib.Logic.Function.Basic
import Mathlib.Tactic.Linarith
import Mathlib.Tactic.Ring

/-! A store as a function from keys to cells. Actions on different cells can be swapped; of those on
one cell, increments can, and withdrawals that turn what is missing into debt. -/
namespace Collections
variable {κ ν : Type*}

/-- The action writes only the cells of `S`, by what it reads there. -/
structure Local (S : Set κ) (act : (κ → ν) → κ → ν) : Prop where
  frame : ∀ f, ∀ k ∉ S, act f k = f k
  congr : ∀ f g, (∀ k ∈ S, f k = g k) → ∀ k ∈ S, act f k = act g k

namespace Local
variable {S T : Set κ} {act act' : (κ → ν) → κ → ν}

/-- Actions on different cells can be swapped. -/
theorem comm (h : Local S act) (h' : Local T act') (hdisjoint : ∀ k ∈ S, k ∉ T) (f : κ → ν) :
    act' (act f) = act (act' f) := by
  funext k
  by_cases hS : k ∈ S
  · have hread : ∀ j ∈ S, act' f j = f j := fun j hj => h'.frame f j (hdisjoint j hj)
    rw [h'.frame _ k (hdisjoint k hS)]
    exact (h.congr _ _ hread k hS).symm
  · rw [h.frame _ k hS]
    by_cases hT : k ∈ T
    · have hread : ∀ j ∈ T, act f j = f j := fun j hj => h.frame f j fun hS => hdisjoint j hS hj
      exact h'.congr _ _ hread k hT
    · rw [h'.frame _ k hT, h'.frame _ k hT, h.frame f k hS]

/-- An action on cells that are seen acts alike on stores that look alike. -/
theorem alike (h : Local S act) {seen : κ → Prop} (hseen : ∀ k ∈ S, seen k) {f g : κ → ν}
    (hfg : ∀ k, seen k → f k = g k) : ∀ k, seen k → act f k = act g k := by
  intro k hk
  by_cases hS : k ∈ S
  · exact h.congr f g (fun j hj => hfg j (hseen j hj)) k hS
  · rw [h.frame f k hS, h.frame g k hS, hfg k hk]

end Local

section Adjust
variable [DecidableEq κ]

/-- One cell with a new value computed from the old one. -/
def adjust (f : κ → ν) (k : κ) (φ : ν → ν) : κ → ν := Function.update f k (φ (f k))

theorem adjust_self (f : κ → ν) (k : κ) (φ : ν → ν) : adjust f k φ k = φ (f k) :=
  Function.update_self _ _ _

theorem adjust_of_ne (f : κ → ν) {j k : κ} (φ : ν → ν) (h : j ≠ k) : adjust f k φ j = f j :=
  Function.update_of_ne h _ _

theorem local_adjust (k : κ) (φ : ν → ν) : Local {k} fun f => adjust f k φ where
  frame f j hj := adjust_of_ne f φ hj
  congr f g h := by
    rintro j rfl
    rw [adjust_self, adjust_self, h j rfl]

theorem adjust_comm {φ ψ : ν → ν} (h : ∀ v, ψ (φ v) = φ (ψ v)) (f : κ → ν) (j k : κ) :
    adjust (adjust f j φ) k ψ = adjust (adjust f k ψ) j φ := by
  by_cases hjk : j = k
  · subst hjk
    unfold adjust
    rw [Function.update_self, Function.update_self, Function.update_idem, Function.update_idem, h]
  · refine (local_adjust j φ).comm (local_adjust k ψ) ?_ f
    rintro _ rfl
    exact hjk

end Adjust

/-! ### Withdrawals -/

section Withdrawals
variable {M : Type*} [CommRing M] [LinearOrder M] [IsStrictOrderedRing M]

/-- What is left of a prepaid amount, and the debt, which exists once something was missing. -/
def withdraw (cell : M × Option M) (amount : M) : M × Option M :=
  if cell.1 - amount < 0 then (0, some (cell.2.getD 0 + -(cell.1 - amount)))
  else (cell.1 - amount, cell.2)

omit [IsStrictOrderedRing M] in
/-- A withdrawal lowers what is left less what is owed by its amount. -/
theorem withdraw_balance (cell : M × Option M) (amount : M) :
    (withdraw cell amount).1 - (withdraw cell amount).2.getD 0 =
      cell.1 - cell.2.getD 0 - amount := by
  unfold withdraw
  split_ifs
  · rw [Option.getD_some]
    ring
  · ring

omit [IsStrictOrderedRing M] in
theorem withdraw_nonneg (cell : M × Option M) (amount : M) : 0 ≤ (withdraw cell amount).1 := by
  unfold withdraw
  split_ifs with hshort
  · exact le_refl 0
  · exact not_lt.mp hshort

/-- The debt grows by what the amount exceeds the cell by. -/
theorem withdraw_debt (cell : M × Option M) (amount : M) :
    (withdraw cell amount).2.getD 0 = cell.2.getD 0 + max 0 (amount - cell.1) := by
  unfold withdraw
  split_ifs with hshort
  · have hmissing : 0 ≤ amount - cell.1 := by linarith
    rw [max_eq_right hmissing, Option.getD_some]
    ring
  · have hcovered : amount - cell.1 ≤ 0 := by linarith [not_lt.mp hshort]
    rw [max_eq_left hcovered, add_zero]

/-- Two withdrawals are one of their sum. -/
theorem withdraw_withdraw (cell : M × Option M) (p : M) {q : M} (hq : 0 ≤ q) :
    withdraw (withdraw cell p) q = withdraw cell (p + q) := by
  obtain ⟨left, debt⟩ := cell
  unfold withdraw
  dsimp only
  by_cases hshort : left - p < 0
  · have hboth : left - (p + q) < 0 := by linarith
    rw [if_pos hshort, if_pos hboth]
    dsimp only
    rw [Option.getD_some]
    split_ifs with hq'
    · rw [show debt.getD 0 + -(left - p) + -(0 - q) = debt.getD 0 + -(left - (p + q)) by ring]
    · have hzero : q = 0 := by linarith
      rw [hzero, add_zero, sub_zero]
  · rw [if_neg hshort]
    dsimp only
    rw [sub_sub]

theorem withdraw_comm {p q : M} (hp : 0 ≤ p) (hq : 0 ≤ q) (cell : M × Option M) :
    withdraw (withdraw cell p) q = withdraw (withdraw cell q) p := by
  rw [withdraw_withdraw cell p hq, withdraw_withdraw cell q hp, add_comm]

end Withdrawals

end Collections
