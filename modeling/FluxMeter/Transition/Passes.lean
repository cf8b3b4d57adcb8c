import Mathlib.Data.List.Basic

/-! One pass over a list that hands a state on from element to element. -/
namespace Transition
variable {σ α β : Type*}

/-- What the pass makes of the elements, and the state behind the last one. -/
def onePass (step : σ → α → β × σ) : σ → List α → List β × σ
  | s, [] => ([], s)
  | s, a :: as =>
    ((step s a).1 :: (onePass step (step s a).2 as).1, (onePass step (step s a).2 as).2)

variable {step : σ → α → β × σ} {s : σ}

@[simp] theorem length_onePass (as : List α) : (onePass step s as).1.length = as.length := by
  induction as generalizing s with
  | nil => rfl
  | cons a as ih => rw [onePass, List.length_cons, ih, List.length_cons]

/-- An element meets the state that those before it leave. -/
theorem getElem?_onePass {as : List α} {k : ℕ} {a : α} (h : as[k]? = some a) :
    (onePass step s as).1[k]? = some (step (onePass step s (as.take k)).2 a).1 := by
  induction as generalizing s k with
  | nil => cases h
  | cons b as ih =>
    cases k with
    | zero =>
      obtain rfl := Option.some.inj h
      rfl
    | succ k => exact ih h

theorem onePass_take (as : List α) (k : ℕ) :
    (onePass step s as).1.take k = (onePass step s (as.take k)).1 := by
  induction as generalizing s k with
  | nil =>
    rw [List.take_nil]
    exact List.take_nil
  | cons b as ih =>
    cases k with
    | zero => rfl
    | succ k =>
      rw [List.take_succ_cons, onePass, onePass, List.take_succ_cons, ih]

end Transition
