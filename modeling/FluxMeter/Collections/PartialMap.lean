import Mathlib.Data.List.Forall2

/-! Mapping a list by a partial function: the result is there when every value is. -/
namespace Collections
variable {α β γ : Type*}

theorem mapM_eq_some_iff {f : α → Option β} {l : List α} {l' : List β} :
    l.mapM f = some l' ↔ List.Forall₂ (fun a b => f a = some b) l l' := by
  induction l generalizing l' with
  | nil =>
    rw [List.mapM_nil, List.forall₂_nil_left_iff]
    exact ⟨fun h => (Option.some.inj h).symm, fun h => congrArg some h.symm⟩
  | cons x l ih =>
    simp only [List.mapM_cons, Option.bind_eq_bind, Option.bind_eq_some_iff, Option.pure_def,
      Option.some.injEq, List.forall₂_cons_left_iff, ih]
    constructor
    · rintro ⟨y, hy, ys, hys, rfl⟩
      exact ⟨y, ys, hy, hys, rfl⟩
    · rintro ⟨y, ys, hy, hys, rfl⟩
      exact ⟨y, hy, ys, hys, rfl⟩

theorem filterMap_of_forall₂ {f : α → Option β} {l : List α} {l' : List β}
    (h : List.Forall₂ (fun a b => f a = some b) l l') : l.filterMap f = l' := by
  induction h with
  | nil => rfl
  | cons hb _ ih => rw [List.filterMap_cons_some hb, ih]

theorem mapM_map {f : α → Option β} {g : α → γ} {h : β → γ} {l : List α} {l' : List β}
    (hl : l.mapM f = some l') (hfg : ∀ x ∈ l, ∀ y, f x = some y → g x = h y) :
    l.map g = l'.map h := by
  induction l generalizing l' with
  | nil =>
    cases hl
    rfl
  | cons x l ih =>
    simp only [List.mapM_cons, Option.bind_eq_bind, Option.bind_eq_some_iff, Option.pure_def,
      Option.some.injEq] at hl
    obtain ⟨y, hy, ys, hys, rfl⟩ := hl
    obtain ⟨hfirst, hrest⟩ := List.forall_mem_cons.mp hfg
    rw [List.map_cons, List.map_cons, hfirst y hy, ih hys hrest]

theorem mapM_isSome {f : α → Option β} {l : List α} :
    (l.mapM f).isSome ↔ ∀ x ∈ l, (f x).isSome := by
  induction l with
  | nil => simp
  | cons x l ih =>
    rw [List.mapM_cons, List.forall_mem_cons, ← ih]
    cases f x with
    | none => simp
    | some y => cases l.mapM f <;> simp

theorem lookup_mapM {κ : Type*} [DecidableEq κ] {f : α → Option β} {l : List (κ × α)}
    {l' : List (κ × β)} (hl : l.mapM (fun p => (f p.2).map fun y => (p.1, y)) = some l') (k : κ) :
    l'.lookup k = (l.lookup k).bind f := by
  induction l generalizing l' with
  | nil =>
    cases hl
    rfl
  | cons p l ih =>
    simp only [List.mapM_cons, Option.bind_eq_bind, Option.bind_eq_some_iff, Option.pure_def,
      Option.some.injEq, Option.map_eq_some_iff] at hl
    obtain ⟨_, ⟨y, hy, rfl⟩, ys, hys, rfl⟩ := hl
    rw [List.lookup_cons, List.lookup_cons, ih hys]
    cases k == p.1 with
    | true => exact hy.symm
    | false => rfl

end Collections
