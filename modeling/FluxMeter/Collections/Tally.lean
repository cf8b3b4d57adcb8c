import FluxMeter.Collections.Table
import Mathlib.Algebra.BigOperators.Group.List.Basic

/-! Numbers that are missing until something is added to them, and tables filled from a list. -/
namespace Collections

section Tally
variable {M : Type*} [AddCommMonoid M]

/-- Add the numbers of a list; a missing number counts from zero. -/
def tally (v : Option M) : List M → Option M
  | [] => v
  | x :: xs => tally (some (v.getD 0 + x)) xs

@[simp] theorem tally_nil (v : Option M) : tally v [] = v := rfl

theorem tally_of_ne_nil (v : Option M) {xs : List M} (h : xs ≠ []) :
    tally v xs = some (v.getD 0 + xs.sum) := by
  induction xs generalizing v with
  | nil => exact absurd rfl h
  | cons x xs ih =>
    rw [tally, List.sum_cons]
    by_cases hxs : xs = []
    · rw [hxs, tally_nil, List.sum_nil, add_zero]
    · rw [ih _ hxs, Option.getD_some, add_assoc]

theorem tally_eq (v : Option M) (xs : List M) :
    tally v xs = if xs = [] then v else some (v.getD 0 + xs.sum) := by
  split_ifs with h
  · rw [h, tally_nil]
  · exact tally_of_ne_nil v h

theorem getD_tally (v : Option M) (xs : List M) : (tally v xs).getD 0 = v.getD 0 + xs.sum := by
  rw [tally_eq]
  split_ifs with h
  · rw [h, List.sum_nil, add_zero]
  · rfl

theorem tally_none_eq_none {xs : List M} : tally none xs = none ↔ xs = [] := by
  rw [tally_eq]
  split_ifs with h
  · simp [h]
  · simp [h]

theorem tally_congr (v : Option M) {xs ys : List M} (hnil : xs = [] ↔ ys = [])
    (hsum : xs.sum = ys.sum) : tally v xs = tally v ys := by
  rw [tally_eq, tally_eq, hsum]
  by_cases h : xs = []
  · rw [if_pos h, if_pos (hnil.mp h)]
  · rw [if_neg h, if_neg fun hys => h (hnil.mpr hys)]

/-- The numbers that are there have the sum of all, counted as zero where missing. -/
theorem sum_filterMap {α : Type*} (f : α → Option M) (l : List α) :
    (l.filterMap f).sum = (l.map fun a => (f a).getD 0).sum := by
  induction l with
  | nil => rfl
  | cons a l ih =>
    rw [List.map_cons, List.sum_cons, ← ih]
    cases ha : f a with
    | none => rw [List.filterMap_cons_none ha, Option.getD_none, zero_add]
    | some m => rw [List.filterMap_cons_some ha, List.sum_cons, Option.getD_some]

theorem sum_map_ite {α : Type*} (l : List α) (q : α → Prop) [DecidablePred q] (f : α → M) :
    (l.map fun a => if q a then f a else 0).sum = ((l.filter fun a => q a).map f).sum := by
  induction l with
  | nil => rfl
  | cons a l ih =>
    rw [List.map_cons, List.sum_cons, ih]
    by_cases ha : q a
    · rw [if_pos ha, List.filter_cons_of_pos (by simpa using ha), List.map_cons, List.sum_cons]
    · rw [if_neg ha, zero_add, List.filter_cons_of_neg (by simpa using ha)]

end Tally

theorem flatMap_ite {α β : Type*} (l : List α) (q : α → Prop) [DecidablePred q] (f : α → β) :
    (l.flatMap fun a => if q a then [f a] else []) = (l.filter fun a => q a).map f := by
  induction l with
  | nil => rfl
  | cons a l ih =>
    rw [List.flatMap_cons, ih]
    by_cases ha : q a
    · rw [if_pos ha, List.filter_cons_of_pos (by simpa using ha), List.map_cons]
      rfl
    · rw [if_neg ha, List.filter_cons_of_neg (by simpa using ha)]
      rfl

namespace Table
variable {α κ ν : Type*} [DecidableEq κ]

/-- The table that a loop over a list fills: a later value replaces an earlier one. -/
def gather (f : α → Option (κ × ν)) (l : List α) : Table κ ν :=
  l.foldl (fun t a => match f a with
    | some p => t.set p.1 p.2
    | none => t) empty

/-- The table that a loop over a list adds up. -/
def accumulate [Add ν] [Zero ν] (f : α → Option (κ × ν)) (l : List α) : Table κ ν :=
  l.foldl (fun t a => match f a with
    | some p => t.set p.1 ((t.get p.1).getD 0 + p.2)
    | none => t) empty

/-- Where no two elements give one key different values, the order of the loop does not matter. -/
theorem get_gather {f : α → Option (κ × ν)} {l : List α}
    (h : ∀ a ∈ l, ∀ b ∈ l, ∀ k v w, f a = some (k, v) → f b = some (k, w) → v = w) (k : κ) (v : ν) :
    (gather f l).get k = some v ↔ ∃ a ∈ l, f a = some (k, v) := by
  have hloop : ∀ (l' : List α) (t : Table κ ν), (∀ a ∈ l', ∀ b ∈ l', ∀ k v w,
      f a = some (k, v) → f b = some (k, w) → v = w) →
      (∀ a ∈ l', ∀ k v w, f a = some (k, v) → t.get k = some w → v = w) →
      ((l'.foldl (fun t a => match f a with
        | some p => t.set p.1 p.2
        | none => t) t).get k = some v ↔ t.get k = some v ∨ ∃ a ∈ l', f a = some (k, v)) := by
    intro l'
    induction l' with
    | nil => simp
    | cons a l' ih =>
      intro t hl ht
      have hl' : ∀ a ∈ l', ∀ b ∈ l', ∀ k v w, f a = some (k, v) → f b = some (k, w) → v = w :=
        fun a ha b hb => hl a (List.mem_cons_of_mem _ ha) b (List.mem_cons_of_mem _ hb)
      have ht' : ∀ b ∈ l', ∀ k v w, f b = some (k, v) → t.get k = some w → v = w :=
        fun b hb => ht b (List.mem_cons_of_mem a hb)
      rw [List.foldl_cons]
      cases ha : f a with
      | none =>
        rw [ih t hl' ht']
        simp [ha]
      | some p =>
        obtain ⟨j, w⟩ := p
        dsimp only
        rw [ih (t.set j w) hl' ?_, get_set]
        · by_cases hk : k = j
          · subst hk
            rw [if_pos rfl]
            constructor
            · rintro (hw | ⟨b, hb, hfb⟩)
              · exact Or.inr ⟨a, List.mem_cons_self, ha.trans (by rw [Option.some.inj hw])⟩
              · exact Or.inr ⟨b, List.mem_cons_of_mem a hb, hfb⟩
            · rintro (hw | ⟨b, hb, hfb⟩)
              · exact Or.inl (by rw [ht a List.mem_cons_self k w v ha hw])
              · exact Or.inl (by rw [hl a List.mem_cons_self b hb k w v ha hfb])
          · rw [if_neg hk]
            have hnot : f a ≠ some (k, v) := by
              rw [ha]
              intro heq
              exact hk (congrArg Prod.fst (Option.some.inj heq)).symm
            simp [hnot]
        · intro b hb k' v' w' hfb hset
          rw [get_set] at hset
          split_ifs at hset with hk'
          · subst hk'
            rw [← Option.some.inj hset]
            exact hl b (List.mem_cons_of_mem a hb) a List.mem_cons_self k' v' w hfb ha
          · exact ht' b hb k' v' w' hfb hset
  unfold gather
  rw [hloop l empty h (by simp)]
  simp

/-- The table that a loop completes, which replaces no value that is there. -/
def complete (f : α → Option (κ × ν)) (t : Table κ ν) (l : List α) : Table κ ν :=
  l.foldl (fun t a => match f a with
    | some p => if (t.get p.1).isSome then t else t.set p.1 p.2
    | none => t) t

theorem get_complete {f : α → Option (κ × ν)} {l : List α}
    (h : ∀ a ∈ l, ∀ b ∈ l, ∀ k v w, f a = some (k, v) → f b = some (k, w) → v = w) (t : Table κ ν)
    (k : κ) (v : ν) : (complete f t l).get k = some v ↔
      t.get k = some v ∨ t.get k = none ∧ ∃ a ∈ l, f a = some (k, v) := by
  induction l generalizing t with
  | nil => simp [complete]
  | cons a l ih =>
    have hl := ih fun a ha b hb => h a (List.mem_cons_of_mem _ ha) b (List.mem_cons_of_mem _ hb)
    unfold complete at hl ⊢
    rw [List.foldl_cons]
    cases ha : f a with
    | none =>
      rw [hl]
      simp [ha]
    | some p =>
      obtain ⟨j, w⟩ := p
      dsimp only
      by_cases hj : (t.get j).isSome = true
      · rw [if_pos hj, hl]
        refine or_congr_right (and_congr_right fun hk => ?_)
        have hne : f a ≠ some (k, v) := by
          rw [ha]
          intro heq
          obtain ⟨rfl, -⟩ := Prod.mk.inj (Option.some.inj heq)
          rw [hk] at hj
          cases hj
        simp [hne]
      · rw [if_neg hj, hl, get_set]
        rw [Option.isSome_iff_ne_none, not_not] at hj
        by_cases hk : k = j
        · subst hk
          rw [if_pos rfl, hj]
          constructor
          · rintro (hw | ⟨hnone, -⟩)
            · exact Or.inr ⟨rfl, a, List.mem_cons_self, ha.trans (by rw [Option.some.inj hw])⟩
            · cases hnone
          · rintro (hnone | ⟨-, b, hb, hfb⟩)
            · cases hnone
            · exact Or.inl (by rw [h a List.mem_cons_self b hb k w v ha hfb])
        · rw [if_neg hk]
          have hne : f a ≠ some (k, v) := by
            rw [ha]
            intro heq
            exact hk (congrArg Prod.fst (Option.some.inj heq)).symm
          simp [hne]

section Entries
variable {P : κ → ν → Prop} {f : α → Option (κ × ν)} {t : Table κ ν} {l : List α}

theorem set_forall (ht : ∀ k v, t.get k = some v → P k v) {j : κ} {w : ν} (hw : P j w) (k : κ) (v : ν)
    (h : (t.set j w).get k = some v) : P k v := by
  rw [get_set] at h
  split_ifs at h with hk
  · rw [hk, ← Option.some.inj h]
    exact hw
  · exact ht k v h

/-- What holds of every entry that a loop makes holds of what its table has. -/
theorem gather_forall (hf : ∀ a ∈ l, ∀ k v, f a = some (k, v) → P k v) (k : κ) (v : ν)
    (h : (gather f l).get k = some v) : P k v := by
  refine List.foldlRecOn (motive := fun t : Table κ ν => ∀ k v, t.get k = some v → P k v) l _
    (fun k v hget => ?_) (fun t ht a ha => ?_) k v h
  · rw [get_empty] at hget
    cases hget
  · cases hfa : f a with
    | none => exact ht
    | some p => exact set_forall ht (hf a ha p.1 p.2 hfa)

theorem complete_forall (ht : ∀ k v, t.get k = some v → P k v)
    (hf : ∀ a ∈ l, ∀ k v, f a = some (k, v) → P k v) (k : κ) (v : ν)
    (h : (complete f t l).get k = some v) : P k v := by
  refine List.foldlRecOn (motive := fun t : Table κ ν => ∀ k v, t.get k = some v → P k v) l _
    ht (fun t ht a ha => ?_) k v h
  cases hfa : f a with
  | none => exact ht
  | some p =>
    dsimp only
    split_ifs
    · exact ht
    · exact set_forall ht (hf a ha p.1 p.2 hfa)

end Entries

/-- The values that a list has for a key. -/
def valuesAt (f : α → Option (κ × ν)) (k : κ) (l : List α) : List ν :=
  l.filterMap fun a => (f a).bind fun p => if p.1 = k then some p.2 else none

theorem valuesAt_eq_map {f : α → Option (κ × ν)} {k : κ} {l : List α} {q : α → Prop} [DecidablePred q]
    {h : α → ν} (hq : ∀ a ∈ l, q a → f a = some (k, h a))
    (hnot : ∀ a ∈ l, ¬ q a → ∀ v, f a ≠ some (k, v)) :
    valuesAt f k l = (l.filter fun a => q a).map h := by
  induction l with
  | nil => rfl
  | cons a l ih =>
    have hl := ih (fun b hb => hq b (List.mem_cons_of_mem a hb))
      fun b hb => hnot b (List.mem_cons_of_mem a hb)
    unfold valuesAt at hl ⊢
    by_cases ha : q a
    · rw [List.filterMap_cons_some (by rw [hq a List.mem_cons_self ha, Option.bind_some, if_pos rfl]),
        hl, List.filter_cons_of_pos (by simpa using ha), List.map_cons]
    · rw [List.filterMap_cons_none, hl, List.filter_cons_of_neg (by simpa using ha)]
      refine Option.eq_none_iff_forall_ne_some.mpr fun v hv => ?_
      obtain ⟨p, hp, hk⟩ := Option.bind_eq_some_iff.mp hv
      split_ifs at hk with hkey
      exact hnot a List.mem_cons_self ha p.2 (by rw [hp, ← hkey])

theorem get_accumulate [AddCommMonoid ν] (f : α → Option (κ × ν)) (l : List α) (k : κ) :
    (accumulate f l).get k = tally none (valuesAt f k l) := by
  have hloop : ∀ (l' : List α) (t : Table κ ν),
      (l'.foldl (fun t a => match f a with
        | some p => t.set p.1 ((t.get p.1).getD 0 + p.2)
        | none => t) t).get k = tally (t.get k) (valuesAt f k l') := by
    intro l'
    induction l' with
    | nil => exact fun _ => rfl
    | cons a l' ih =>
      intro t
      rw [List.foldl_cons, ih]
      unfold valuesAt
      cases ha : f a with
      | none => rw [List.filterMap_cons_none (by rw [ha]; rfl)]
      | some p =>
        dsimp only
        rw [get_set]
        by_cases hk : k = p.1
        · rw [if_pos hk, List.filterMap_cons_some (by rw [ha, Option.bind_some, if_pos hk.symm]), hk]
          rfl
        · rw [if_neg hk, List.filterMap_cons_none (by
            rw [ha, Option.bind_some, if_neg (Ne.symm hk)])]
  unfold accumulate
  rw [hloop l empty, get_empty]

end Table

section Fibers
variable {α κ M : Type*} [DecidableEq κ] [AddCommMonoid M]

private theorem sum_map_ite_of_mem {keys : List κ} (hnodup : keys.Nodup) {x : κ} (hx : x ∈ keys)
    (m : M) :
    (keys.map fun k => if x = k then m else 0).sum = m := by
  induction keys with
  | nil => exact absurd hx List.not_mem_nil
  | cons k keys ih =>
    obtain ⟨hk, hnodup⟩ := List.nodup_cons.mp hnodup
    rw [List.map_cons, List.sum_cons]
    by_cases hxk : x = k
    · have hrest : (keys.map fun k => if x = k then m else 0).sum = 0 := by
        apply List.sum_eq_zero
        intro y hy
        obtain ⟨j, hj, rfl⟩ := List.mem_map.mp hy
        exact if_neg fun h => hk (by rw [← hxk, h]; exact hj)
      rw [if_pos hxk, hrest, add_zero]
    · rw [if_neg hxk, zero_add]
      exact ih hnodup ((List.mem_cons.mp hx).resolve_left hxk)

/-- Of the elements of a list with pairwise distinct keys, only one has the key of `a`. -/
theorem sum_map_ite_key {l : List α} {g : α → κ} (hnodup : (l.map g).Nodup) {a : α} (ha : a ∈ l)
    (f : α → M) : (l.map fun b => if g b = g a then f b else 0).sum = f a := by
  induction l with
  | nil => exact absurd ha List.not_mem_nil
  | cons b l ih =>
    rw [List.map_cons, List.nodup_cons] at hnodup
    rw [List.map_cons, List.sum_cons]
    rcases List.mem_cons.mp ha with rfl | hl
    · have hrest : (l.map fun b => if g b = g a then f b else 0).sum = 0 := by
        apply List.sum_eq_zero
        intro y hy
        obtain ⟨b, hb, rfl⟩ := List.mem_map.mp hy
        exact if_neg fun h => hnodup.1 (List.mem_map.mpr ⟨b, hb, h⟩)
      rw [if_pos rfl, hrest, add_zero]
    · have hne : g b ≠ g a := fun h => hnodup.1 (List.mem_map.mpr ⟨a, hl, h.symm⟩)
      rw [if_neg hne, zero_add]
      exact ih hnodup.2 hl

/-- A sum over a list, put together from the sums over the elements of each key. -/
theorem sum_fibers {keys : List κ} (hnodup : keys.Nodup) {g : α → κ} {l : List α}
    (hkeys : ∀ a ∈ l, g a ∈ keys) (f : α → M) :
    (keys.map fun k => ((l.filter fun a => g a = k).map f).sum).sum = (l.map f).sum := by
  induction l with
  | nil => simp
  | cons a l ih =>
    obtain ⟨ha, hl⟩ := List.forall_mem_cons.mp hkeys
    have hsplit : ∀ k, (((a :: l).filter fun a => g a = k).map f).sum =
        (if g a = k then f a else 0) + ((l.filter fun a => g a = k).map f).sum := by
      intro k
      by_cases hk : g a = k
      · rw [List.filter_cons_of_pos (by simpa using hk), List.map_cons, List.sum_cons, if_pos hk]
      · rw [List.filter_cons_of_neg (by simpa using hk), if_neg hk, zero_add]
    have hone : (keys.map fun k => if g a = k then f a else 0).sum = f a :=
      sum_map_ite_of_mem hnodup ha (f a)
    simp only [hsplit]
    rw [List.sum_map_add, hone, ih hl, List.map_cons, List.sum_cons]

/-- The values of a table that has a sum for each key add up to the sum of all. -/
theorem Table.weight_of_fibers {t : Table κ M} {l : List α} {g : α → κ} {f : α → M}
    (h : ∀ k, t.get k = tally none ((l.filter fun a => g a = k).map f)) :
    t.weight (fun _ q => q) = (l.map f).sum := by
  have hkeys : ∀ a ∈ l, g a ∈ t.rows.map Prod.fst := by
    intro a ha
    have hne : (l.filter fun b => g b = g a).map f ≠ [] := by
      refine mt List.map_eq_nil_iff.mp (List.ne_nil_of_mem (a := a) ?_)
      exact List.mem_filter.mpr ⟨ha, decide_eq_true rfl⟩
    have hget := (h (g a)).trans (tally_of_ne_nil none hne)
    exact List.mem_map.mpr ⟨_, (t.get_eq_some_iff _ _).mp hget, rfl⟩
  have hrow : ∀ p ∈ t.rows, p.2 = ((l.filter fun a => g a = p.1).map f).sum := by
    intro p hp
    have hget := (t.get_eq_some_iff p.1 p.2).mpr hp
    have hsum := getD_tally none ((l.filter fun a => g a = p.1).map f)
    rw [← h, hget, Option.getD_some, Option.getD_none, zero_add] at hsum
    exact hsum
  rw [← sum_fibers t.nodup hkeys f, List.map_map]
  exact congrArg List.sum (List.map_congr_left hrow)

omit [AddCommMonoid M] in
theorem Table.filter_key (t : Table κ M) (k : κ) :
    (t.rows.filter fun p => p.1 = k).map Prod.snd = (t.get k).toList := by
  obtain ⟨rows, hnodup⟩ := t
  unfold get
  dsimp only at hnodup ⊢
  induction rows with
  | nil => rfl
  | cons p rows ih =>
    obtain ⟨j, v⟩ := p
    rw [List.map_cons, List.nodup_cons] at hnodup
    by_cases hk : j = k
    · subst hk
      have hrest : rows.filter (fun p => p.1 = j) = [] := by
        refine List.filter_eq_nil_iff.mpr fun p hp hkey => ?_
        exact hnodup.1 (List.mem_map.mpr ⟨p, hp, of_decide_eq_true hkey⟩)
      rw [List.filter_cons_of_pos (by simp), hrest, List.lookup_cons, beq_self_eq_true]
      rfl
    · have hb : (k == j) = false := by simpa using Ne.symm hk
      rw [List.filter_cons_of_neg (by simpa using hk), List.lookup_cons, hb]
      exact ih hnodup.2

/-- A sum over keys that contain all those of a table. -/
theorem Table.sum_getD (t : Table κ M) {keys : List κ} (hnodup : keys.Nodup)
    (hkeys : ∀ k, t.get k ≠ none → k ∈ keys) :
    (keys.map fun k => (t.get k).getD 0).sum = t.weight fun _ q => q := by
  have hrows : ∀ p ∈ t.rows, p.1 ∈ keys := by
    intro p hp
    apply hkeys
    rw [(t.get_eq_some_iff p.1 p.2).mpr hp]
    exact Option.some_ne_none _
  have hvalue : ∀ k, (t.get k).getD 0 = ((t.rows.filter fun p => p.1 = k).map Prod.snd).sum := by
    intro k
    rw [t.filter_key]
    cases t.get k with
    | none => rfl
    | some v => exact List.sum_singleton.symm
  simp only [hvalue]
  exact sum_fibers hnodup hrows Prod.snd

end Fibers

end Collections
