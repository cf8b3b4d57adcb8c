import Mathlib.Data.List.Basic
import Mathlib.Order.Lattice

/-! Lists that are sorted by a key, and the first elements of a list that is ranked by one, the
greatest key first. Elements of equal keys keep their order. -/
namespace Collections

section Ranking
variable {α ω : Type*} [LinearOrder ω]

/-- `sort(key=key)`. -/
def sortedBy (key : α → ω) (l : List α) : List α := l.mergeSort fun a b => key a ≤ key b

/-- `sort(key=key, reverse=True)`. -/
def ranked (key : α → ω) (l : List α) : List α := sortedBy (fun a => OrderDual.toDual (key a)) l

/-- The first `n` of them. -/
def top (key : α → ω) (n : ℕ) (l : List α) : List α := (ranked key l).take n

variable {key : α → ω} {n : ℕ} {l : List α} {a : α}

theorem perm_sortedBy (key : α → ω) (l : List α) : (sortedBy key l).Perm l := List.mergeSort_perm l _

@[simp] theorem mem_sortedBy : a ∈ sortedBy key l ↔ a ∈ l := (perm_sortedBy key l).mem_iff

@[simp] theorem mem_ranked : a ∈ ranked key l ↔ a ∈ l := mem_sortedBy

theorem pairwise_sortedBy (key : α → ω) (l : List α) :
    (sortedBy key l).Pairwise fun a b => key a ≤ key b := by
  refine (List.pairwise_mergeSort ?_ ?_ l).imp of_decide_eq_true
  · intro a b c hab hbc
    exact decide_eq_true (le_trans (of_decide_eq_true hab) (of_decide_eq_true hbc))
  · intro a b
    rcases le_total (key a) (key b) with h | h
    · simp [h]
    · simp [h]

theorem pairwise_ranked (key : α → ω) (l : List α) :
    (ranked key l).Pairwise fun a b => key b ≤ key a :=
  pairwise_sortedBy (fun a => OrderDual.toDual (key a)) l

theorem pairwise_top (key : α → ω) (n : ℕ) (l : List α) :
    (top key n l).Pairwise fun a b => key b ≤ key a :=
  (pairwise_ranked key l).sublist (List.take_sublist n _)

theorem mem_of_mem_top (h : a ∈ top key n l) : a ∈ l := mem_ranked.mp (List.mem_of_mem_take h)

theorem length_top_le (key : α → ω) (n : ℕ) (l : List α) : (top key n l).length ≤ n := by
  unfold top
  rw [List.length_take]
  exact Nat.min_le_left _ _

/-- What is left out comes after `n` elements whose keys are not less. -/
theorem mem_top_or (h : a ∈ l) :
    a ∈ top key n l ∨ (top key n l).length = n ∧ ∀ b ∈ top key n l, key a ≤ key b := by
  have hsplit : top key n l ++ (ranked key l).drop n = ranked key l := List.take_append_drop _ _
  have hmem : a ∈ top key n l ++ (ranked key l).drop n := by rw [hsplit, mem_ranked]; exact h
  refine (List.mem_append.mp hmem).imp_right fun hdrop => ⟨?_, ?_⟩
  · have hlong : n < (ranked key l).length := by
      by_contra hshort
      rw [List.drop_eq_nil_of_le (by omega)] at hdrop
      exact List.not_mem_nil hdrop
    unfold top
    rw [List.length_take]
    omega
  · have hpairs := pairwise_ranked key l
    rw [← hsplit] at hpairs
    exact fun b hb => (List.pairwise_append.mp hpairs).2.2 b hb a hdrop

/-- Nothing is left out where there are less than `n`. -/
theorem perm_of_length_top (h : (top key n l).length < n) : (top key n l).Perm l := by
  have hshort : (ranked key l).length ≤ n := by
    unfold top at h
    rw [List.length_take] at h
    omega
  unfold top
  rw [List.take_of_length_le hshort]
  exact perm_sortedBy _ l

end Ranking

end Collections
