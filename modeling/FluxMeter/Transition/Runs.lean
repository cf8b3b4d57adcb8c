import Mathlib.Data.List.Infix
import Mathlib.Data.Option.Basic
import Mathlib.Logic.Function.Iterate

/-! Runs of a partial step function, and the two rules by which an invariant of one step
becomes an invariant of every run. -/
namespace Transition
variable {σ α : Type*}

/-- Execute the actions in order; `none` when an action is not enabled. -/
def run (step : σ → α → Option σ) : σ → List α → Option σ
  | s, [] => some s
  | s, a :: as => (step s a).bind fun t => run step t as

/-- Every action of the run satisfies `ok` in the state it is taken from. -/
def Guarded (step : σ → α → Option σ) (ok : σ → α → Prop) : σ → List α → Prop
  | _, [] => True
  | s, a :: as => ok s a ∧ ∀ t, step s a = some t → Guarded step ok t as

variable {step : σ → α → Option σ} {ok : σ → α → Prop}

instance [∀ s a, Decidable (ok s a)] : ∀ s as, Decidable (Guarded step ok s as)
  | _, [] => isTrue trivial
  | s, a :: as =>
    have : ∀ t, Decidable (Guarded step ok t as) := fun t => instDecidableGuarded t as
    inferInstanceAs (Decidable (ok s a ∧ ∀ t ∈ step s a, Guarded step ok t as))

@[simp] theorem run_nil (s : σ) : run step s [] = some s := rfl

theorem run_cons_eq_some {s t : σ} {a : α} {as : List α} :
    run step s (a :: as) = some t ↔ ∃ u, step s a = some u ∧ run step u as = some t := by
  simp [run, Option.bind_eq_some_iff]

/-- Taking one action again and again leads from `s` to `t`. -/
def Leads (step : σ → α → Option σ) (a : α) (s t : σ) : Prop :=
  ∃ n, run step s (List.replicate n a) = some t

theorem Leads.refl (a : α) (s : σ) : Leads step a s s := ⟨0, rfl⟩

theorem Leads.head {a : α} {s t u : σ} (hstep : step s a = some u) (h : Leads step a u t) :
    Leads step a s t := by
  obtain ⟨n, hrun⟩ := h
  refine ⟨n + 1, ?_⟩
  rw [List.replicate_succ]
  exact run_cons_eq_some.mpr ⟨u, hstep, hrun⟩

/-- A guarded run is guarded as far as it has come, and goes on guarded. -/
theorem Guarded.append {s : σ} {as bs : List α} (h : Guarded step ok s (as ++ bs)) :
    Guarded step ok s as ∧ ∀ t, run step s as = some t → Guarded step ok t bs := by
  induction as generalizing s with
  | nil =>
    refine ⟨trivial, fun t hrun => ?_⟩
    obtain rfl := Option.some.inj hrun
    exact h
  | cons a as ih =>
    refine ⟨⟨h.1, fun u hu => (ih (h.2 u hu)).1⟩, fun t hrun => ?_⟩
    obtain ⟨u, hu, hrest⟩ := run_cons_eq_some.mp hrun
    exact (ih (h.2 u hu)).2 t hrest

/-- A run is guarded just if each of its actions satisfies `ok` in the state to which those before it
lead. -/
theorem guarded_iff_forall {s : σ} {as : List α} : Guarded step ok s as ↔
    ∀ before a rest u, as = before ++ a :: rest → run step s before = some u → ok u a := by
  constructor
  · rintro h before a rest u rfl hrun
    exact (h.append.2 u hrun).1
  · intro h
    induction as generalizing s with
    | nil => trivial
    | cons a as ih =>
      refine ⟨h [] a as s rfl rfl, fun t ht => ih fun before b rest u has hrun => ?_⟩
      exact h (a :: before) b rest u (has ▸ rfl) (run_cons_eq_some.mpr ⟨t, ht, hrun⟩)

/-- An invariant kept by every guarded step holds at the end of every guarded run. -/
theorem guarded_invariant {P : σ → Prop}
    (hstep : ∀ s a t, P s → ok s a → step s a = some t → P t)
    {s t : σ} {as : List α} (hs : P s) (hok : Guarded step ok s as)
    (hrun : run step s as = some t) : P t := by
  induction as generalizing s with
  | nil => exact Option.some.inj hrun ▸ hs
  | cons a as ih =>
    obtain ⟨u, hu, hrest⟩ := run_cons_eq_some.mp hrun
    exact ih (hstep s a u hs hok.1 hu) (hok.2 u hu) hrest

/-- An invariant kept by every step holds at the end of every run. -/
theorem run_invariant {P : σ → Prop} (hstep : ∀ s a t, P s → step s a = some t → P t)
    {s t : σ} {as : List α} (hs : P s) (hrun : run step s as = some t) : P t := by
  induction as generalizing s with
  | nil => exact Option.some.inj hrun ▸ hs
  | cons a as ih =>
    obtain ⟨u, hu, hrest⟩ := run_cons_eq_some.mp hrun
    exact ih (hstep s a u hs hu) hrest

/-- Where just the guarded actions keep a property, it holds all along a run exactly when the run is
guarded. -/
theorem guarded_iff {P : σ → Prop}
    (hstep : ∀ s a, P s → ∃ t, step s a = some t ∧ (P t ↔ ok s a)) {s : σ} (hs : P s) (as : List α) :
    Guarded step ok s as ↔ ∀ before t, before <+: as → run step s before = some t → P t := by
  induction as generalizing s with
  | nil =>
    refine ⟨fun _ before t hbefore hrun => ?_, fun _ => trivial⟩
    rw [List.prefix_nil.mp hbefore] at hrun
    exact Option.some.inj hrun ▸ hs
  | cons a as ih =>
    obtain ⟨u, hu, hkept⟩ := hstep s a hs
    constructor
    · rintro ⟨hok, hrest⟩ before t hbefore hrun
      cases before with
      | nil => exact Option.some.inj hrun ▸ hs
      | cons b before =>
        obtain ⟨rfl, hrest'⟩ := List.cons_prefix_cons.mp hbefore
        obtain ⟨u', hu', hrun⟩ := run_cons_eq_some.mp hrun
        obtain rfl := Option.some.inj (hu.symm.trans hu')
        exact (ih (hkept.mpr hok)).mp (hrest u hu) before t hrest' hrun
    · intro h
      have hnext : P u := h [a] u (by simp) (run_cons_eq_some.mpr ⟨u, hu, run_nil u⟩)
      refine ⟨hkept.mp hnext, fun t ht => ?_⟩
      obtain rfl := Option.some.inj (hu.symm.trans ht)
      refine (ih hnext).mpr fun before t hbefore hrun => ?_
      exact h (a :: before) t (List.cons_prefix_cons.mpr ⟨rfl, hbefore⟩)
        (run_cons_eq_some.mpr ⟨u, hu, hrun⟩)

/-- A total step that lowers a measure until it is done gets done. -/
theorem exists_iterate_done {f : σ → σ} {P done : σ → Prop} (μ : σ → ℕ)
    (hstep : ∀ s, P s → ¬ done s → P (f s) ∧ μ (f s) < μ s) {s : σ} (hs : P s) :
    ∃ k, P (f^[k] s) ∧ done (f^[k] s) := by
  induction h : μ s using Nat.strongRecOn generalizing s with
  | ind n ih =>
    by_cases hdone : done s
    · exact ⟨0, hs, hdone⟩
    · obtain ⟨hnext, hlower⟩ := hstep s hs hdone
      obtain ⟨k, hk⟩ := ih (μ (f s)) (h ▸ hlower) hnext rfl
      exact ⟨k + 1, hk⟩

/-- A total step that keeps an invariant keeps it for ever. -/
theorem iterate_invariant {f : σ → σ} {P : σ → Prop} (hstep : ∀ s, P s → P (f s)) {s : σ}
    (hs : P s) (k : ℕ) : P (f^[k] s) := by
  induction k generalizing s with
  | zero => exact hs
  | succ k ih => exact ih (hstep s hs)

end Transition
