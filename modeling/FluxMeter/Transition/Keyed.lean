import Mathlib.Data.List.Nodup
import Mathlib.Logic.Function.Basic

/-! Actions on a family of states, each on the state under its own key. Only the order of actions
under one key matters, so a list may be regrouped. -/
namespace Transition
variable {κ β α γ : Type*} [DecidableEq κ] (step : α → β → β × γ)

theorem of_update_eq {f : κ → β} {i j : κ} {b c : β}
    (h : Function.update f i b j = c) : j = i ∧ b = c ∨ f j = c := by
  by_cases hj : j = i
  · subst hj
    rw [Function.update_self] at h
    exact Or.inl ⟨rfl, h⟩
  · rw [Function.update_of_ne hj] at h
    exact Or.inr h

/-- Run the actions in their order; the outcomes carry their keys. -/
def runKeyed : (κ → β) → List (κ × α) → (κ → β) × List (κ × γ)
  | s, [] => (s, [])
  | s, p :: l =>
    let r := step p.2 (s p.1)
    let rest := runKeyed (Function.update s p.1 r.1) l
    (rest.1, (p.1, r.2) :: rest.2)

variable {step} {s t : κ → β} {l l' : List (κ × α)} {k : κ}

@[simp] theorem runKeyed_nil : runKeyed step s [] = (s, []) := rfl

theorem runKeyed_append : runKeyed step s (l ++ l') =
    ((runKeyed step (runKeyed step s l).1 l').1,
      (runKeyed step s l).2 ++ (runKeyed step (runKeyed step s l).1 l').2) := by
  induction l generalizing s with
  | nil => rfl
  | cons p l ih =>
    simp only [List.cons_append, runKeyed]
    rw [ih]

/-- The state and the outcomes under one key come from the actions under that key. -/
theorem runKeyed_filter (hk : t k = s k) :
    (runKeyed step t (l.filter fun p => p.1 = k)).1 k = (runKeyed step s l).1 k ∧
    (runKeyed step t (l.filter fun p => p.1 = k)).2 =
      (runKeyed step s l).2.filter fun p => p.1 = k := by
  induction l generalizing s t with
  | nil => exact ⟨hk, rfl⟩
  | cons p l ih =>
    by_cases hp : p.1 = k
    · have hnext : Function.update t p.1 (step p.2 (t p.1)).1 k =
          Function.update s p.1 (step p.2 (s p.1)).1 k := by
        rw [← hp, Function.update_self, Function.update_self, hp, hk]
      obtain ⟨hstate, houtcomes⟩ := ih hnext
      rw [List.filter_cons_of_pos (by simpa using hp)]
      simp only [runKeyed]
      rw [List.filter_cons_of_pos (by simpa using hp)]
      refine ⟨hstate, ?_⟩
      rw [houtcomes, hp, hk]
    · have hnext : t k = Function.update s p.1 (step p.2 (s p.1)).1 k := by
        rw [Function.update_of_ne (fun heq => hp heq.symm), hk]
      rw [List.filter_cons_of_neg (by simpa using hp)]
      simp only [runKeyed]
      rw [List.filter_cons_of_neg (by simpa using hp)]
      exact ih hnext

/-- Lists with the same actions under every key have the same states and outcomes. -/
theorem runKeyed_regroup (h : ∀ k, (l.filter fun p => p.1 = k) = l'.filter fun p => p.1 = k) :
    (runKeyed step s l).1 = (runKeyed step s l').1 ∧
    ∀ x, x ∈ (runKeyed step s l).2 ↔ x ∈ (runKeyed step s l').2 := by
  constructor
  · funext k
    have hown : (runKeyed step s (l.filter fun p => p.1 = k)).1 k = (runKeyed step s l).1 k :=
      (runKeyed_filter rfl).1
    rw [← hown, h k]
    exact (runKeyed_filter rfl).1
  · intro x
    have hsame : ((runKeyed step s l).2.filter fun p => p.1 = x.1) =
        (runKeyed step s l').2.filter fun p => p.1 = x.1 := by
      have hown : (runKeyed step s (l.filter fun p => p.1 = x.1)).2 =
          (runKeyed step s l).2.filter fun p => p.1 = x.1 := (runKeyed_filter rfl).2
      rw [← hown, h x.1]
      exact (runKeyed_filter rfl).2
    have hmem : ∀ r : List (κ × γ), x ∈ r ↔ x ∈ r.filter fun p => p.1 = x.1 := by
      intro r
      simp
    rw [hmem, hsame, ← hmem]

/-- The outcome of an action depends on the state under its own key only. -/
theorem runKeyed_outcome_congr {i : ℕ} {p : κ × α} (hp : l[i]? = some p) (h : s p.1 = t p.1) :
    (runKeyed step s l).2[i]? = (runKeyed step t l).2[i]? := by
  induction l generalizing s t i with
  | nil => simp at hp
  | cons q l ih =>
    simp only [runKeyed]
    cases i with
    | zero =>
      rw [List.getElem?_cons_zero, List.getElem?_cons_zero]
      rw [List.getElem?_cons_zero] at hp
      rw [Option.some.inj hp, h]
    | succ i =>
      rw [List.getElem?_cons_succ, List.getElem?_cons_succ]
      rw [List.getElem?_cons_succ] at hp
      apply ih hp
      by_cases hq : p.1 = q.1
      · rw [hq] at h ⊢
        rw [Function.update_self, Function.update_self, h]
      · rw [Function.update_of_ne hq, Function.update_of_ne hq, h]

theorem runKeyed_of_notMem (hk : k ∉ l.map Prod.fst) : (runKeyed step s l).1 k = s k := by
  induction l generalizing s with
  | nil => rfl
  | cons p l ih =>
    rw [List.map_cons, List.mem_cons, not_or] at hk
    simp only [runKeyed]
    rw [ih hk.2, Function.update_of_ne hk.1]

variable (step s) in
/-- With one action for each key, every action runs on the state that was there at first. -/
theorem runKeyed_of_nodup (hnodup : (l.map Prod.fst).Nodup) {i : ℕ} {p : κ × α}
    (hp : l[i]? = some p) :
    (runKeyed step s l).2[i]? = some (p.1, (step p.2 (s p.1)).2) ∧
      (runKeyed step s l).1 p.1 = (step p.2 (s p.1)).1 := by
  induction l generalizing s i with
  | nil => simp at hp
  | cons q l ih =>
    rw [List.map_cons, List.nodup_cons] at hnodup
    simp only [runKeyed]
    cases i with
    | zero =>
      rw [List.getElem?_cons_zero] at hp
      obtain rfl := Option.some.inj hp
      rw [runKeyed_of_notMem hnodup.1, Function.update_self]
      exact ⟨rfl, rfl⟩
    | succ i =>
      rw [List.getElem?_cons_succ] at hp ⊢
      have hne : p.1 ≠ q.1 := by
        intro heq
        exact hnodup.1 (heq ▸ List.mem_map_of_mem (List.mem_of_getElem? hp))
      have hrest := ih (s := Function.update s q.1 (step q.2 (s q.1)).1) hnodup.2 hp
      rw [Function.update_of_ne hne] at hrest
      exact hrest

theorem runKeyed_map {α' γ' : Type*} {step' : α' → β → β × γ'} {g : α → α'} {out : γ → γ'}
    (h : ∀ a x, step' (g a) x = ((step a x).1, out (step a x).2)) :
    runKeyed step' s (l.map fun p => (p.1, g p.2)) =
      ((runKeyed step s l).1, (runKeyed step s l).2.map fun p => (p.1, out p.2)) := by
  induction l generalizing s with
  | nil => rfl
  | cons p l ih =>
    simp only [List.map_cons, runKeyed]
    rw [h, ih]

theorem exists_of_mem_runKeyed {x : κ × γ} (h : x ∈ (runKeyed step s l).2) :
    ∃ p ∈ l, ∃ b, x = (p.1, (step p.2 b).2) := by
  induction l generalizing s with
  | nil => cases h
  | cons p l ih =>
    rcases List.mem_cons.mp h with rfl | hrest
    · exact ⟨p, List.mem_cons_self, s p.1, rfl⟩
    · obtain ⟨q, hq, b, rfl⟩ := ih hrest
      exact ⟨q, List.mem_cons_of_mem p hq, b, rfl⟩

theorem length_runKeyed : (runKeyed step s l).2.length = l.length := by
  induction l generalizing s with
  | nil => rfl
  | cons p l ih => simp only [runKeyed, List.length_cons, ih]

end Transition
