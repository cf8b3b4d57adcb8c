import Mathlib.Data.List.Basic

/-! Two-run arguments over total step functions. A footprint bounds the keys an operation
writes and the keys whose new value depends on more than their old one; unwinding compares two
runs that differ only in hidden steps. -/
namespace Transition
variable {κ σ α : Type*}

/-- The operation writes at most the keys of `writes`; outside `mixed`, the value it leaves at a
key is determined by the value before at that key. -/
structure Footprint (same : κ → σ → σ → Prop) (writes mixed : List κ) (f : σ → σ) : Prop where
  frame : ∀ k, k ∉ writes → ∀ s, same k (f s) s
  congr : ∀ k, k ∉ mixed → ∀ s t, same k s t → same k (f s) (f t)

namespace Footprint
variable {same : κ → σ → σ → Prop} {writes writes' mixed mixed' : List κ} {f g : σ → σ}

theorem id (hsame : ∀ k, Equivalence (same k)) :
    Footprint same [] [] (fun s : σ => s) where
  frame k _ s := (hsame k).refl s
  congr _ _ _ _ h := h

theorem comp (hsame : ∀ k, Equivalence (same k)) (hf : Footprint same writes mixed f)
    (hg : Footprint same writes' mixed' g) :
    Footprint same (writes ++ writes') (mixed ++ mixed') (fun s => g (f s)) where
  frame k hk s := by
    obtain ⟨hwrites, hwrites'⟩ := not_or.mp (fun h => hk (List.mem_append.mpr h))
    exact (hsame k).trans (hg.frame k hwrites' (f s)) (hf.frame k hwrites s)
  congr k hk s t h := by
    obtain ⟨hmixed, hmixed'⟩ := not_or.mp (fun h => hk (List.mem_append.mpr h))
    exact hg.congr k hmixed' _ _ (hf.congr k hmixed _ _ h)

theorem mono (hf : Footprint same writes mixed f) (hwrites : writes ⊆ writes')
    (hmixed : mixed ⊆ mixed') : Footprint same writes' mixed' f where
  frame k hk := hf.frame k fun h => hk (hwrites h)
  congr k hk := hf.congr k fun h => hk (hmixed h)

/-- An operation that writes every key it reads across is determined outside its writes. -/
theorem of_frame (hsame : ∀ k, Equivalence (same k))
    (hf : ∀ k, k ∉ writes → ∀ s, same k (f s) s) : Footprint same writes writes f where
  frame := hf
  congr k hk s t h :=
    (hsame k).trans (hf k hk s) ((hsame k).trans h ((hsame k).symm (hf k hk t)))

theorem foldl (hsame : ∀ k, Equivalence (same k)) {step : σ → α → σ} {touched : α → List κ}
    (hstep : ∀ a, Footprint same (touched a) [] fun s => step s a) (as : List α) :
    Footprint same (as.flatMap touched) [] fun s => as.foldl step s := by
  induction as with
  | nil => exact Footprint.id hsame
  | cons a as ih => exact (hstep a).comp hsame ih

end Footprint

section Unwinding
variable (step : σ → α → σ) {R : σ → σ → Prop} (hidden : α → Bool)

/-- A run in which an invariant holds is related to the run of its visible steps alone. -/
theorem foldl_visible {I : σ → Prop} (htrans : ∀ {s t u}, R s t → R t u → R s u) (as : List α)
    (hinv : ∀ a ∈ as, ∀ s, I s → I (step s a))
    (hhidden : ∀ a ∈ as, hidden a = true → ∀ s, I s → R (step s a) s)
    (hvisible : ∀ a ∈ as, hidden a = false → ∀ s t, I s → I t → R s t → R (step s a) (step t a))
    {s t : σ} (hs : I s) (ht : I t) (h : R s t) :
    R (as.foldl step s) ((as.filter fun a => !hidden a).foldl step t) := by
  induction as generalizing s t with
  | nil => exact h
  | cons a as ih =>
    have hrest := fun b hb => hhidden b (List.mem_cons_of_mem a hb)
    have hrest' := fun b hb => hvisible b (List.mem_cons_of_mem a hb)
    have hkept := fun b hb => hinv b (List.mem_cons_of_mem a hb)
    have hstep := hinv a List.mem_cons_self
    rw [List.foldl_cons]
    cases ha : hidden a with
    | true =>
      rw [List.filter_cons_of_neg (by simp [ha])]
      exact ih hkept hrest hrest' (hstep s hs) ht (htrans (hhidden a List.mem_cons_self ha s hs) h)
    | false =>
      rw [List.filter_cons_of_pos (by simp [ha]), List.foldl_cons]
      exact ih hkept hrest hrest' (hstep s hs) (hstep t ht)
        (hvisible a List.mem_cons_self ha s t hs ht h)

/-- Two runs with the same visible steps end in related states: where the invariant holds, a
hidden step is invisible and a visible one acts alike on related states. -/
theorem unwinding_on {I : σ → Prop} (hR : Equivalence R) {as bs : List α}
    (hsame : as.filter (fun a => !hidden a) = bs.filter fun a => !hidden a)
    (hinv : ∀ a ∈ as ++ bs, ∀ s, I s → I (step s a))
    (hhidden : ∀ a ∈ as ++ bs, hidden a = true → ∀ s, I s → R (step s a) s)
    (hvisible : ∀ a ∈ as ++ bs, hidden a = false → ∀ s t, I s → I t → R s t →
      R (step s a) (step t a))
    {s : σ} (hs : I s) : R (as.foldl step s) (bs.foldl step s) := by
  have has : R (as.foldl step s) ((as.filter fun a => !hidden a).foldl step s) :=
    foldl_visible (R := R) step hidden hR.trans as (fun a ha => hinv a (List.mem_append_left bs ha))
      (fun a ha => hhidden a (List.mem_append_left bs ha))
      (fun a ha => hvisible a (List.mem_append_left bs ha)) hs hs (hR.refl s)
  have hbs : R (bs.foldl step s) ((bs.filter fun a => !hidden a).foldl step s) :=
    foldl_visible (R := R) step hidden hR.trans bs (fun a ha => hinv a (List.mem_append_right as ha))
      (fun a ha => hhidden a (List.mem_append_right as ha))
      (fun a ha => hvisible a (List.mem_append_right as ha)) hs hs (hR.refl s)
  rw [hsame] at has
  exact hR.trans has (hR.symm hbs)

theorem unwinding (hR : Equivalence R) {as bs : List α}
    (hsame : as.filter (fun a => !hidden a) = bs.filter fun a => !hidden a)
    (hhidden : ∀ a ∈ as ++ bs, hidden a = true → ∀ s, R (step s a) s)
    (hvisible : ∀ a ∈ as ++ bs, hidden a = false → ∀ s t, R s t → R (step s a) (step t a))
    (s : σ) : R (as.foldl step s) (bs.foldl step s) :=
  unwinding_on (I := fun _ => True) step hidden hR hsame (fun _ _ _ _ => trivial)
    (fun a ha hidden s _ => hhidden a ha hidden s)
    (fun a ha visible s t _ _ => hvisible a ha visible s t) trivial

theorem foldl_invariant {I : σ → Prop} {as : List α} (hinv : ∀ a ∈ as, ∀ s, I s → I (step s a))
    {s : σ} (hs : I s) : I (as.foldl step s) :=
  List.foldlRecOn as step hs fun s h a ha => hinv a ha s h

end Unwinding

end Transition
