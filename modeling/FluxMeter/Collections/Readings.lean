import Mathlib.Logic.Basic

/-! What one reads of an accumulator that a list is folded into, where the reading of one step is an
associative operation. -/
namespace Collections

variable {σ α M : Type*} {op : M → M → M} {step : σ → α → σ} {read : σ → M} {amount : α → M}
  {empty : σ}

/-- The reading of a fold is that of the start with that of the fold from the empty accumulator. -/
theorem read_foldl (hassoc : ∀ a b c, op (op a b) c = op a (op b c))
    (hstep : ∀ s x, read (step s x) = op (read s) (amount x)) (ok : M → Prop)
    (hok : ∀ a x, ok a → ok (op a (amount x))) (hunit : ∀ a, ok a → op a (read empty) = a)
    (hempty : ok (read empty)) (l : List α) :
    ∀ s, ok (read s) → read (l.foldl step s) = op (read s) (read (l.foldl step empty)) := by
  induction l with
  | nil => exact fun s hs => (hunit _ hs).symm
  | cons x l ih =>
    intro s hs
    have hnext : ok (read (step s x)) := hstep s x ▸ hok _ x hs
    have hfirst : ok (read (step empty x)) := hstep empty x ▸ hok _ x hempty
    rw [List.foldl_cons, List.foldl_cons, ih _ hnext, ih _ hfirst, hstep, hstep, ← hassoc, ← hassoc,
      hunit _ hs]

end Collections
