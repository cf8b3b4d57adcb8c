import Mathlib.Data.List.Basic
import Mathlib.Logic.Relation

/-! Runs that may replay and reorder their steps. A guard lets a step act once for each key; where
the bodies can be swapped up to a relation, the end of a run depends on its set of steps alone. -/
namespace Transition
variable {σ α κ : Type*}

/-- The body acts where the key of the step is not marked. -/
def guarded (done : σ → κ → Bool) (key : α → κ) (body : σ → α → σ) (s : σ) (a : α) : σ :=
  if done s (key a) then s else body s a

/-- Bodies that mark their own key and no other. -/
def Marks (done : σ → κ → Bool) (key : α → κ) (body : σ → α → σ) : Prop :=
  ∀ s a k, done (body s a) k = true ↔ k = key a ∨ done s k = true

/-- Steps that keep `I`, act alike on related states and can be swapped, up to `R`. -/
structure Swappable (I : σ → Prop) (R : σ → σ → Prop) (step : σ → α → σ) (as : List α) : Prop where
  keeps : ∀ a ∈ as, ∀ s, I s → I (step s a)
  congr : ∀ a ∈ as, ∀ s t, I s → I t → R s t → R (step s a) (step t a)
  swap : ∀ a ∈ as, ∀ b ∈ as, ∀ s, I s → R (step (step s a) b) (step (step s b) a)

namespace Swappable
variable {I : σ → Prop} {R : σ → σ → Prop} {step : σ → α → σ} {as bs : List α} {s t : σ}

theorem mono (h : Swappable I R step as) (hsub : bs ⊆ as) : Swappable I R step bs where
  keeps a ha := h.keeps a (hsub ha)
  congr a ha := h.congr a (hsub ha)
  swap a ha b hb := h.swap a (hsub ha) b (hsub hb)

theorem foldl_congr (h : Swappable I R step as) (hs : I s) (ht : I t) (hst : R s t) :
    R (as.foldl step s) (as.foldl step t) := by
  induction as generalizing s t with
  | nil => exact hst
  | cons a as ih =>
    have ha : a ∈ a :: as := List.mem_cons_self
    exact ih (h.mono (List.subset_cons_self a as)) (h.keeps a ha s hs) (h.keeps a ha t ht)
      (h.congr a ha s t hs ht hst)

theorem foldl_perm (hR : Equivalence R) (h : Swappable I R step as) (hperm : as.Perm bs)
    (hs : I s) (ht : I t) (hst : R s t) : R (as.foldl step s) (bs.foldl step t) := by
  induction hperm generalizing s t with
  | nil => exact hst
  | @cons a as bs _ ih =>
    have ha : a ∈ a :: as := List.mem_cons_self
    exact ih (h.mono (List.subset_cons_self a as)) (h.keeps a ha s hs) (h.keeps a ha t ht)
      (h.congr a ha s t hs ht hst)
  | swap a b as =>
    have ha : a ∈ b :: a :: as := List.mem_cons_of_mem b List.mem_cons_self
    have hb : b ∈ b :: a :: as := List.mem_cons_self
    have hsb := h.keeps b hb s hs
    have htb := h.keeps b hb t ht
    have hcongr := h.congr a ha _ _ hsb htb (h.congr b hb s t hs ht hst)
    have hrest : as ⊆ b :: a :: as := fun c hc => List.mem_cons_of_mem b (List.mem_cons_of_mem a hc)
    exact (h.mono hrest).foldl_congr (h.keeps a ha _ hsb) (h.keeps b hb _ (h.keeps a ha t ht))
      (hR.trans hcongr (h.swap b hb a ha t ht))
  | trans hab _ ih ih' =>
    exact hR.trans (ih h hs ht hst) (ih' (h.mono hab.symm.subset) ht ht (hR.refl t))

end Swappable

section Guarded
variable {done : σ → κ → Bool} {key : α → κ} {body : σ → α → σ} {s : σ} {a b : α}

theorem guarded_of_done (h : done s (key a) = true) : guarded done key body s a = s := if_pos h

theorem guarded_of_fresh (h : done s (key a) = false) :
    guarded done key body s a = body s a := if_neg (by rw [h]; exact Bool.false_ne_true)

theorem done_guarded (hmarks : Marks done key body) (s : σ) (a : α) (k : κ) :
    done (guarded done key body s a) k = true ↔ k = key a ∨ done s k = true := by
  cases h : done s (key a) with
  | true =>
    rw [guarded_of_done h]
    constructor
    · exact Or.inr
    · rintro (rfl | hk)
      · exact h
      · exact hk
  | false => rw [guarded_of_fresh h, hmarks]

theorem done_guarded_ne (hmarks : Marks done key body) (s : σ) (h : key b ≠ key a) :
    done (guarded done key body s a) (key b) = done s (key b) := by
  rw [Bool.eq_iff_iff, done_guarded hmarks]
  exact or_iff_right h

/-- Guarded steps act alike on related states that have marked the same keys. -/
theorem guarded_congr {R : σ → σ → Prop} {t : σ} (hdone : done s (key a) = done t (key a))
    (h : R s t) (hbody : R (body s a) (body t a)) :
    R (guarded done key body s a) (guarded done key body t a) := by
  cases hs : done s (key a) with
  | true => rwa [guarded_of_done hs, guarded_of_done (hdone.symm.trans hs)]
  | false => rwa [guarded_of_fresh hs, guarded_of_fresh (hdone.symm.trans hs)]

/-- Guarded steps of different keys can be swapped where their bodies can. -/
theorem guarded_swap {R : σ → σ → Prop} (hR : Equivalence R) (hmarks : Marks done key body)
    (hkey : key a ≠ key b)
    (hswap : done s (key a) = false → done s (key b) = false →
      R (body (body s a) b) (body (body s b) a)) :
    R (guarded done key body (guarded done key body s a) b)
      (guarded done key body (guarded done key body s b) a) := by
  have hb := done_guarded_ne hmarks s hkey.symm
  have ha := done_guarded_ne hmarks s hkey
  cases hdone : done s (key a) with
  | true =>
    rw [guarded_of_done hdone, guarded_of_done (ha.trans hdone)]
    exact hR.refl _
  | false =>
    cases hdone' : done s (key b) with
    | true =>
      rw [guarded_of_done hdone', guarded_of_done (hb.trans hdone')]
      exact hR.refl _
    | false =>
      rw [guarded_of_fresh (hb.trans hdone'), guarded_of_fresh (ha.trans hdone),
        guarded_of_fresh hdone, guarded_of_fresh hdone']
      exact hswap hdone hdone'

private theorem foldl_filter_done [DecidableEq α] (hmarks : Marks done key body) (as : List α)
    (h : done s (key a) = true) :
    (as.filter fun b => !b == a).foldl (guarded done key body) s =
      as.foldl (guarded done key body) s := by
  induction as generalizing s with
  | nil => rfl
  | cons b as ih =>
    rw [List.foldl_cons]
    have hnext : done (guarded done key body s b) (key a) = true :=
      (done_guarded hmarks s b _).mpr (Or.inr h)
    by_cases hab : b = a
    · rw [List.filter_cons_of_neg (by simp [hab]), ih h, hab, guarded_of_done h]
    · rw [List.filter_cons_of_pos (by simp [hab]), List.foldl_cons, ih hnext]

/-- A run is that of its first occurrences. -/
theorem foldl_eraseDups [DecidableEq α] (hmarks : Marks done key body) :
    ∀ (as : List α) (s : σ),
      as.eraseDups.foldl (guarded done key body) s = as.foldl (guarded done key body) s
  | [], _ => rfl
  | a :: as, s => by
    have hmarked : done (guarded done key body s a) (key a) = true :=
      (done_guarded hmarks s a _).mpr (Or.inl rfl)
    rw [List.eraseDups_cons, List.foldl_cons, List.foldl_cons, foldl_eraseDups hmarks,
      foldl_filter_done hmarks as hmarked]
  termination_by as => as.length
  decreasing_by exact Nat.lt_succ_of_le (List.length_filter_le _ _)

theorem nodup_eraseDups [DecidableEq α] : ∀ as : List α, as.eraseDups.Nodup
  | [] => List.nodup_nil
  | a :: as => by
    rw [List.eraseDups_cons]
    refine List.nodup_cons.mpr ⟨?_, nodup_eraseDups _⟩
    rw [List.mem_eraseDups]
    simp
  termination_by as => as.length
  decreasing_by exact Nat.lt_succ_of_le (List.length_filter_le _ _)

/-- Two runs of guarded steps over the same set of steps end in related states. -/
theorem foldl_guarded_of_mem_iff {I : σ → Prop} {R : σ → σ → Prop} {as bs : List α}
    (hR : Equivalence R) (hmarks : Marks done key body)
    (h : Swappable I R (guarded done key body) as) (hmem : ∀ a, a ∈ as ↔ a ∈ bs) (hs : I s) :
    R (as.foldl (guarded done key body) s) (bs.foldl (guarded done key body) s) := by
  classical
  have hperm : as.eraseDups.Perm bs.eraseDups :=
    (List.perm_ext_iff_of_nodup (nodup_eraseDups as) (nodup_eraseDups bs)).mpr fun a => by
      rw [List.mem_eraseDups, List.mem_eraseDups, hmem]
  have hsub : as.eraseDups ⊆ as := fun a ha => List.mem_eraseDups.mp ha
  have hrun := (h.mono hsub).foldl_perm hR hperm hs hs (hR.refl s)
  rwa [foldl_eraseDups hmarks, foldl_eraseDups hmarks] at hrun

end Guarded

/-- Runs of two step functions that act alike on related states, step by step. -/
theorem foldl_map_related {β : Type*} {R : σ → σ → Prop} {step : σ → α → σ} {step' : σ → β → σ}
    {f : α → β} {as : List α}
    (h : ∀ a ∈ as, ∀ s t, R s t → R (step s a) (step' t (f a))) {s t : σ} (hst : R s t) :
    R (as.foldl step s) ((as.map f).foldl step' t) := by
  induction as generalizing s t with
  | nil => exact hst
  | cons a as ih =>
    exact ih (fun b hb => h b (List.mem_cons_of_mem a hb)) (h a List.mem_cons_self s t hst)

end Transition
