import FluxMeter.Transition.Keyed
import Mathlib.Data.List.Count

/-! Keyed actions of which the first under a key decides its state: the later ones find that state and
leave it, so that their order does not matter. -/
namespace Transition
variable {κ β α γ : Type*} [DecidableEq κ] {step : α → β → β × γ} {s : κ → β} {l l' : List (κ × α)}
  {k : κ}

/-- A state that no action changes stays, and every action under its key finds it. -/
theorem runKeyed_of_fixed (hfixed : ∀ a, (step a (s k)).1 = s k) :
    (runKeyed step s l).1 k = s k ∧
      ∀ (i : ℕ) (a : α), l[i]? = some (k, a) →
        (runKeyed step s l).2[i]? = some (k, (step a (s k)).2) := by
  induction l generalizing s with
  | nil => exact ⟨rfl, fun i a hi => by simp at hi⟩
  | cons p l ih =>
    have hnext : Function.update s p.1 (step p.2 (s p.1)).1 k = s k := by
      rw [Function.update_apply]
      split_ifs with hp
      · rw [← hp, hfixed]
      · rfl
    have hrest := ih (s := Function.update s p.1 (step p.2 (s p.1)).1) (by rw [hnext]; exact hfixed)
    rw [hnext] at hrest
    refine ⟨hrest.1, fun i a hi => ?_⟩
    cases i with
    | zero =>
      rw [List.getElem?_cons_zero] at hi
      rw [Option.some.inj hi]
      rfl
    | succ i => exact hrest.2 i a hi

variable (step s) in
/-- Where the first action under a key decides its state, the later ones find that state. -/
theorem runKeyed_of_decided {j : ℕ} {a : α} (ha : l[j]? = some (k, a))
    (hfirst : ∀ i < j, ∀ p, l[i]? = some p → p.1 ≠ k)
    (hdecided : ∀ b, (step b (step a (s k)).1).1 = (step a (s k)).1) :
    (runKeyed step s l).1 k = (step a (s k)).1 ∧
      (runKeyed step s l).2[j]? = some (k, (step a (s k)).2) ∧
      ∀ (i : ℕ) (b : α), j < i → l[i]? = some (k, b) →
        (runKeyed step s l).2[i]? = some (k, (step b (step a (s k)).1).2) := by
  induction l generalizing s j with
  | nil => simp at ha
  | cons p l ih =>
    cases j with
    | zero =>
      rw [List.getElem?_cons_zero] at ha
      obtain rfl := Option.some.inj ha
      have hnext : Function.update s k (step a (s k)).1 k = (step a (s k)).1 :=
        Function.update_self ..
      have hrest := @runKeyed_of_fixed _ _ _ _ _ step (Function.update s k (step a (s k)).1) l k
        (by rw [hnext]; exact hdecided)
      rw [hnext] at hrest
      refine ⟨hrest.1, rfl, fun i b hi hb => ?_⟩
      obtain ⟨i, rfl⟩ := Nat.exists_eq_succ_of_ne_zero (by omega : i ≠ 0)
      exact hrest.2 i b hb
    | succ j =>
      have hp : p.1 ≠ k := hfirst 0 (Nat.succ_pos j) p rfl
      have hnext : Function.update s p.1 (step p.2 (s p.1)).1 k = s k :=
        Function.update_of_ne (Ne.symm hp) _ _
      have hrest := ih (Function.update s p.1 (step p.2 (s p.1)).1) ha
        (fun i hi q hq => hfirst (i + 1) (Nat.succ_lt_succ hi) q hq) (by rw [hnext]; exact hdecided)
      rw [hnext] at hrest
      refine ⟨hrest.1, hrest.2.1, fun i b hi hb => ?_⟩
      obtain ⟨i, rfl⟩ := Nat.exists_eq_succ_of_ne_zero (by omega : i ≠ 0)
      exact hrest.2.2 i b (by omega) hb

/-- Actions under one key that leave its state. -/
theorem runKeyed_eq_map (hk : ∀ p ∈ l, p.1 = k) (hfixed : ∀ p ∈ l, (step p.2 (s k)).1 = s k) :
    runKeyed step s l = (s, l.map fun p => (k, (step p.2 (s k)).2)) := by
  induction l with
  | nil => rfl
  | cons p l ih =>
    obtain ⟨hp, hrest⟩ := List.forall_mem_cons.mp hk
    obtain ⟨hstep, hsteps⟩ := List.forall_mem_cons.mp hfixed
    simp only [runKeyed, List.map_cons]
    rw [hp, hstep, Function.update_eq_self, ih hrest hsteps]

private theorem runKeyed_perm_of_key (hk : ∀ p ∈ l, p.1 = k) (hperm : l.Perm l')
    (hdecided : ∀ p ∈ l, ∀ q ∈ l, (step q.2 (step p.2 (s k)).1).1 = (step p.2 (s k)).1)
    (hfirst : (∀ p ∈ l, (step p.2 (s k)).1 = s k) ∨ l.head? = l'.head?) :
    (runKeyed step s l).1 = (runKeyed step s l').1 ∧
      (runKeyed step s l).2.Perm (runKeyed step s l').2 := by
  have hk' : ∀ p ∈ l', p.1 = k := fun p hp => hk p (hperm.mem_iff.mpr hp)
  rcases hfirst with hfixed | hhead
  · have hfixed' : ∀ p ∈ l', (step p.2 (s k)).1 = s k :=
      fun p hp => hfixed p (hperm.mem_iff.mpr hp)
    rw [runKeyed_eq_map hk hfixed, runKeyed_eq_map hk' hfixed']
    exact ⟨rfl, hperm.map _⟩
  · cases l with
    | nil =>
      rw [List.nil_perm.mp hperm]
      exact ⟨rfl, List.Perm.refl _⟩
    | cons p l =>
      cases l' with
      | nil => cases hhead
      | cons q l' =>
        obtain rfl := Option.some.inj hhead
        obtain ⟨rfl, hrest⟩ := List.forall_mem_cons.mp hk
        have hrest' := (List.forall_mem_cons.mp hk').2
        have hperm' := List.perm_cons p |>.mp hperm
        have hfixed : ∀ q ∈ l, (step q.2 (Function.update s p.1 (step p.2 (s p.1)).1 p.1)).1 =
            Function.update s p.1 (step p.2 (s p.1)).1 p.1 := by
          intro q hq
          rw [Function.update_self]
          exact hdecided p List.mem_cons_self q (List.mem_cons_of_mem p hq)
        simp only [runKeyed]
        rw [runKeyed_eq_map hrest hfixed, runKeyed_eq_map hrest' fun q hq =>
          hfixed q (hperm'.mem_iff.mpr hq)]
        exact ⟨rfl, (hperm'.map _).cons _⟩

/-- Two orders of the actions, where under every key none changes the state or the same is first. -/
theorem runKeyed_perm (step : α → β → β × γ) (s : κ → β) (hperm : l.Perm l')
    (hdecided : ∀ p ∈ l, ∀ q ∈ l, p.1 = q.1 →
      (step q.2 (step p.2 (s p.1)).1).1 = (step p.2 (s p.1)).1)
    (hfirst : ∀ k, (∀ p ∈ l, p.1 = k → (step p.2 (s k)).1 = s k) ∨
      (l.find? fun p => p.1 = k) = l'.find? fun p => p.1 = k) :
    (runKeyed step s l).1 = (runKeyed step s l').1 ∧
      (runKeyed step s l).2.Perm (runKeyed step s l').2 := by
  classical
  have hkey : ∀ k, (runKeyed step s (l.filter fun p => p.1 = k)).1 =
        (runKeyed step s (l'.filter fun p => p.1 = k)).1 ∧
      (runKeyed step s (l.filter fun p => p.1 = k)).2.Perm
        (runKeyed step s (l'.filter fun p => p.1 = k)).2 := by
    intro k
    have hmem : ∀ p ∈ l.filter (fun p => p.1 = k), p ∈ l ∧ p.1 = k := by
      intro p hp
      simpa using hp
    refine runKeyed_perm_of_key (fun p hp => (hmem p hp).2) (hperm.filter _) ?_ ?_
    · intro p hp q hq
      obtain ⟨hpl, rfl⟩ := hmem p hp
      obtain ⟨hql, hqk⟩ := hmem q hq
      exact hdecided p hpl q hql hqk.symm
    · rcases hfirst k with hfixed | hfind
      · exact Or.inl fun p hp => hfixed p (hmem p hp).1 (hmem p hp).2
      · right
        rw [List.head?_filter, List.head?_filter, hfind]
  constructor
  · funext k
    rw [← (runKeyed_filter (k := k) rfl).1, ← (runKeyed_filter (l := l') (k := k) rfl).1,
      (hkey k).1]
  · rw [List.perm_iff_count]
    intro x
    have hcount : ∀ r : List (κ × γ), r.count x = (r.filter fun p => p.1 = x.1).count x := by
      intro r
      rw [List.count_filter (by simp)]
    rw [hcount, hcount (runKeyed step s l').2, ← (runKeyed_filter (k := x.1) rfl).2,
      ← (runKeyed_filter (l := l') (k := x.1) rfl).2]
    exact (hkey x.1).2.count_eq x

end Transition
