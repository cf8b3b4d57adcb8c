import Mathlib.Algebra.Order.BigOperators.Group.Finset

/-! What a run adds to a measure where each key counts once, at its first step. -/
namespace Transition
variable {σ α κ M : Type*} [AddCommMonoid M]

/-- A step that marks its key, if it has one, and adds the amount of the key where the key is not
marked yet. -/
structure CountsOnce (done : σ → κ → Prop) (measure : σ → M) (amount : κ → M) (key : α → Option κ)
    (step : σ → α → σ) (a : α) : Prop where
  marks : ∀ s k, done (step s a) k ↔ key a = some k ∨ done s k
  first : ∀ s k, key a = some k → ¬ done s k → measure (step s a) = measure s + amount k
  again : ∀ s k, key a = some k → done s k → measure (step s a) = measure s
  other : ∀ s, key a = none → measure (step s a) = measure s

/-- The state `t` comes from `s` by counting the keys of `keys`. -/
structure Counted (done : σ → κ → Prop) (measure : σ → M) (amount : κ → M) (s t : σ)
    (keys : Finset κ) : Prop where
  marked : ∀ k, done t k ↔ k ∈ keys ∨ done s k
  fresh : ∀ k ∈ keys, ¬ done s k
  total : measure t = measure s + ∑ k ∈ keys, amount k

section
variable {done : σ → κ → Prop} {measure : σ → M} {amount : κ → M} {key : α → Option κ}
  {step : σ → α → σ} {s t : σ} {a : α} {keys : Finset κ}

theorem Counted.refl (s : σ) : Counted done measure amount s s ∅ where
  marked k := by simp
  fresh k hk := absurd hk (Finset.notMem_empty k)
  total := by rw [Finset.sum_empty, add_zero]

theorem Counted.step_none (h : Counted done measure amount s t keys)
    (ha : CountsOnce done measure amount key step a) (hkey : key a = none) :
    Counted done measure amount s (step t a) keys where
  marked k := by
    rw [ha.marks, hkey, h.marked]
    simp
  fresh := h.fresh
  total := (ha.other t hkey).trans h.total

variable [DecidableEq κ]

theorem Counted.step_some (h : Counted done measure amount s t keys)
    (ha : CountsOnce done measure amount key step a) {k : κ} (hkey : key a = some k)
    (hfresh : ¬ done s k) : Counted done measure amount s (step t a) (insert k keys) := by
  have hmarks : ∀ j, done (step t a) j ↔ j = k ∨ done t j := by
    intro j
    rw [ha.marks, hkey, Option.some.injEq, eq_comm]
  by_cases hmem : k ∈ keys
  · have hdone : done t k := (h.marked k).mpr (Or.inl hmem)
    rw [Finset.insert_eq_of_mem hmem]
    refine ⟨fun j => ?_, h.fresh, (ha.again t k hkey hdone).trans h.total⟩
    rw [hmarks, h.marked]
    constructor
    · rintro (rfl | hj)
      · exact Or.inl hmem
      · exact hj
    · exact Or.inr
  · have hnew : ¬ done t k := by
      rw [h.marked]
      exact not_or.mpr ⟨hmem, hfresh⟩
    constructor
    case marked =>
      intro j
      rw [hmarks, h.marked, Finset.mem_insert, or_assoc]
    case fresh =>
      intro j hj
      rcases Finset.mem_insert.mp hj with rfl | hj
      · exact hfresh
      · exact h.fresh j hj
    case total =>
      rw [ha.first t k hkey hnew, h.total, Finset.sum_insert hmem, add_assoc,
        add_comm (amount k)]

theorem counted_foldl {as : List α} (has : ∀ a ∈ as, CountsOnce done measure amount key step a)
    (hfresh : ∀ a ∈ as, ∀ k, key a = some k → ¬ done s k) (h : Counted done measure amount s t keys) :
    Counted done measure amount s (as.foldl step t) (keys ∪ (as.filterMap key).toFinset) := by
  induction as generalizing t keys with
  | nil => simpa using h
  | cons a as ih =>
    have ha := has a List.mem_cons_self
    have hrest := fun b hb => has b (List.mem_cons_of_mem a hb)
    have hrestFresh := fun b hb => hfresh b (List.mem_cons_of_mem a hb)
    rw [List.foldl_cons]
    cases hkey : key a with
    | none =>
      rw [List.filterMap_cons_none hkey]
      exact ih hrest hrestFresh (h.step_none ha hkey)
    | some k =>
      have hnext := ih hrest hrestFresh (h.step_some ha hkey (hfresh a List.mem_cons_self k hkey))
      rw [List.filterMap_cons_some hkey, List.toFinset_cons, Finset.union_insert,
        ← Finset.insert_union]
      exact hnext

/-- Where the amount of a key is the sum over the elements that have it, a run adds the sum over all
elements whose keys it counts. -/
theorem Counted.total_fiberwise {ι : Type*} {A : Finset ι} {g : ι → κ} {f : ι → M}
    (h : Counted done measure (fun k => ∑ x ∈ A with g x = k, f x) s t keys)
    (hkeys : ∀ x ∈ A, g x ∈ keys) : measure t = measure s + ∑ x ∈ A, f x := by
  rw [h.total, Finset.sum_fiberwise_of_maps_to hkeys]

end

/-- Two values of each element, of which one is never above the other and each is taken equally
often, are the same. -/
theorem eq_of_card_fibers {ι : Type*} [PartialOrder M] [IsOrderedCancelAddMonoid M] [DecidableEq M]
    {A : Finset ι} {f g : ι → M} (hle : ∀ x ∈ A, f x ≤ g x)
    (hcard : ∀ k, (A.filter fun x => k = f x).card = (A.filter fun x => k = g x).card) :
    ∀ x ∈ A, f x = g x := by
  have hvalues : A.val.map f = A.val.map g := by
    apply Multiset.ext.mpr
    intro k
    rw [Multiset.count_map, Multiset.count_map]
    exact hcard k
  have hsum : ∑ x ∈ A, f x = ∑ x ∈ A, g x := congrArg Multiset.sum hvalues
  exact (Finset.sum_eq_sum_iff_of_le hle).mp hsum

end Transition
