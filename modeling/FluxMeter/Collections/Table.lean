import Mathlib.Data.List.Nodup
import Mathlib.Data.List.Dedup
import Mathlib.Algebra.Order.BigOperators.Group.List

/-! Finite tables with unique keys, their weighted totals, and the score queries of a
sorted set. A table carries the uniqueness of its keys, so a total counts each key once. -/
namespace Collections

/-- A finite partial map, kept as rows with pairwise distinct keys. -/
structure Table (κ ν : Type*) where
  rows : List (κ × ν)
  nodup : (rows.map Prod.fst).Nodup

namespace Table
variable {κ ν : Type*} [DecidableEq κ]

def empty : Table κ ν := ⟨[], List.nodup_nil⟩

def get (t : Table κ ν) (k : κ) : Option ν := t.rows.lookup k

def erase (t : Table κ ν) (k : κ) : Table κ ν where
  rows := t.rows.filter fun p => p.1 ≠ k
  nodup := t.nodup.sublist (List.filter_sublist.map _)

def set (t : Table κ ν) (k : κ) (v : ν) : Table κ ν where
  rows := (k, v) :: (t.erase k).rows
  nodup := by
    rw [List.map_cons, List.nodup_cons]
    refine ⟨?_, (t.erase k).nodup⟩
    simp [erase]

theorem lookup_filter_self (l : List (κ × ν)) (k : κ) :
    (l.filter fun p => p.1 ≠ k).lookup k = none := by
  rw [List.lookup_eq_none_iff]
  intro p hp
  have hk := (List.mem_filter.mp hp).2
  simpa using fun h : k = p.1 => (of_decide_eq_true hk) h.symm

theorem lookup_filter_ne (l : List (κ × ν)) {j k : κ} (h : j ≠ k) :
    (l.filter fun p => p.1 ≠ k).lookup j = l.lookup j := by
  induction l with
  | nil => rfl
  | cons p l ih =>
    obtain ⟨a, v⟩ := p
    by_cases ha : a = k
    · have hj : (j == a) = false := by simpa [ha] using h
      rw [List.filter_cons_of_neg (by simpa using ha), List.lookup_cons, hj]
      exact ih
    · rw [List.filter_cons_of_pos (by simpa using ha), List.lookup_cons, List.lookup_cons, ih]

@[simp] theorem get_empty (k : κ) : (empty : Table κ ν).get k = none := rfl

@[simp] theorem get_erase_self (t : Table κ ν) (k : κ) : (t.erase k).get k = none :=
  lookup_filter_self t.rows k

theorem get_erase_ne (t : Table κ ν) {j k : κ} (h : j ≠ k) : (t.erase k).get j = t.get j :=
  lookup_filter_ne t.rows h

@[simp] theorem get_set_self (t : Table κ ν) (k : κ) (v : ν) : (t.set k v).get k = some v := by
  simp [get, set]

theorem get_set_ne (t : Table κ ν) {j k : κ} (v : ν) (h : j ≠ k) :
    (t.set k v).get j = t.get j := by
  have hb : (j == k) = false := by simpa using h
  simp only [get, set, List.lookup_cons, hb]
  exact lookup_filter_ne t.rows h

theorem get_erase (t : Table κ ν) (j k : κ) :
    (t.erase k).get j = if j = k then none else t.get j := by
  by_cases h : j = k
  · subst h; simp
  · rw [if_neg h, get_erase_ne t h]

theorem get_set (t : Table κ ν) (j k : κ) (v : ν) :
    (t.set k v).get j = if j = k then some v else t.get j := by
  by_cases h : j = k
  · subst h; simp
  · rw [if_neg h, get_set_ne t v h]

/-- The rows of a list, of which the first one counts under each key. -/
def ofList (l : List (κ × ν)) : Table κ ν := l.foldr (fun p t => t.set p.1 p.2) empty

theorem get_ofList (l : List (κ × ν)) (k : κ) : (ofList l).get k = l.lookup k := by
  induction l with
  | nil => rfl
  | cons p l ih =>
    obtain ⟨j, v⟩ := p
    have hset : ofList ((j, v) :: l) = (ofList l).set j v := rfl
    rw [hset, get_set, ih, List.lookup_cons]
    by_cases h : k = j
    · rw [if_pos h, beq_iff_eq.mpr h]
    · have hb : (k == j) = false := by simpa using h
      rw [if_neg h, hb]

theorem lookup_eq_some_iff_mem {l : List (κ × ν)} (hl : (l.map Prod.fst).Nodup) (k : κ) (v : ν) :
    l.lookup k = some v ↔ (k, v) ∈ l := by
  induction l with
  | nil => simp
  | cons p l ih =>
    obtain ⟨a, u⟩ := p
    rw [List.map_cons, List.nodup_cons] at hl
    by_cases hk : k = a
    · subst hk
      have hnot : (k, v) ∉ l := fun h => hl.1 (List.mem_map.mpr ⟨_, h, rfl⟩)
      simp only [List.lookup_cons, beq_self_eq_true, Option.some.injEq, List.mem_cons, hnot,
        or_false, Prod.mk.injEq, true_and]
      exact eq_comm
    · have hb : (k == a) = false := by simpa using hk
      have hne : (k, v) ≠ (a, u) := fun h => hk (congrArg Prod.fst h)
      simp only [List.lookup_cons, hb, List.mem_cons, hne, false_or]
      exact ih hl.2

theorem get_eq_some_iff (t : Table κ ν) (k : κ) (v : ν) : t.get k = some v ↔ (k, v) ∈ t.rows :=
  lookup_eq_some_iff_mem t.nodup k v

theorem erase_of_none (t : Table κ ν) {k : κ} (h : t.get k = none) : t.erase k = t := by
  have hrows : (t.rows.filter fun p => p.1 ≠ k) = t.rows := by
    apply List.filter_eq_self.mpr
    intro p hp
    have hget := (t.get_eq_some_iff p.1 p.2).mpr hp
    have hne : p.1 ≠ k := by
      rintro rfl
      rw [h] at hget
      cases hget
    exact decide_eq_true hne
  obtain ⟨rows, hnodup⟩ := t
  unfold erase
  congr

/-- Replace every value in place. -/
def mapValues (t : Table κ ν) (f : κ → ν → ν) : Table κ ν where
  rows := t.rows.map fun p => (p.1, f p.1 p.2)
  nodup := by
    rw [List.map_map]
    exact t.nodup

theorem get_mapValues (t : Table κ ν) (f : κ → ν → ν) (k : κ) :
    (t.mapValues f).get k = (t.get k).map (f k) := by
  unfold get mapValues
  dsimp only
  induction t.rows with
  | nil => rfl
  | cons p l ih =>
    rw [List.map_cons, List.lookup_cons, List.lookup_cons]
    cases hk : k == p.1 with
    | true =>
      rw [eq_of_beq hk]
      rfl
    | false => exact ih

def keys (t : Table κ ν) : List κ := t.rows.map Prod.fst

theorem mem_keys (t : Table κ ν) {k : κ} : k ∈ t.keys ↔ t.get k ≠ none := by
  unfold keys
  rw [List.mem_map, Option.ne_none_iff_exists']
  constructor
  · rintro ⟨p, hp, rfl⟩
    exact ⟨p.2, (t.get_eq_some_iff p.1 p.2).mpr hp⟩
  · rintro ⟨v, hv⟩
    exact ⟨(k, v), (t.get_eq_some_iff k v).mp hv, rfl⟩

def filterKeys (t : Table κ ν) (q : κ → Prop) [DecidablePred q] : Table κ ν where
  rows := t.rows.filter fun p => q p.1
  nodup := t.nodup.sublist (List.filter_sublist.map _)

theorem get_filterKeys (t : Table κ ν) (q : κ → Prop) [DecidablePred q] (k : κ) :
    (t.filterKeys q).get k = if q k then t.get k else none := by
  refine Option.ext fun v => ?_
  have hmem : (k, v) ∈ (t.filterKeys q).rows ↔ (k, v) ∈ t.rows ∧ q k := by
    unfold filterKeys
    rw [List.mem_filter, decide_eq_true_iff]
  by_cases hk : q k
  · rw [if_pos hk, get_eq_some_iff, hmem, ← get_eq_some_iff, and_iff_left hk]
  · rw [if_neg hk, get_eq_some_iff, hmem]
    exact iff_of_false (fun h => hk h.2) (Option.some_ne_none v).symm

section Weight
variable {M : Type*}

def weight [AddCommMonoid M] (t : Table κ ν) (w : κ → ν → M) : M :=
  (t.rows.map fun p => w p.1 p.2).sum

omit [DecidableEq κ] in
@[simp] theorem weight_empty [AddCommMonoid M] (w : κ → ν → M) :
    (empty : Table κ ν).weight w = 0 := rfl

private theorem sum_filter_ne_of_notMem [AddCommMonoid M] (l : List (κ × ν)) (k : κ) (w : κ → ν → M)
    (h : k ∉ l.map Prod.fst) :
    ((l.filter fun p => p.1 ≠ k).map fun p => w p.1 p.2).sum =
      (l.map fun p => w p.1 p.2).sum := by
  have hl : (l.filter fun p => p.1 ≠ k) = l := by
    apply List.filter_eq_self.mpr
    intro p hp
    simpa using fun he : p.1 = k => h (he ▸ List.mem_map.mpr ⟨p, hp, rfl⟩)
  rw [hl]

private theorem sum_filter_ne_add [AddCommMonoid M] (l : List (κ × ν)) (hl : (l.map Prod.fst).Nodup)
    (k : κ) (v : ν) (w : κ → ν → M) (h : (k, v) ∈ l) :
    ((l.filter fun p => p.1 ≠ k).map fun p => w p.1 p.2).sum + w k v =
      (l.map fun p => w p.1 p.2).sum := by
  induction l with
  | nil => simp at h
  | cons p l ih =>
    rw [List.map_cons, List.nodup_cons] at hl
    rcases List.mem_cons.mp h with he | hmem
    · subst he
      have := sum_filter_ne_of_notMem l k w hl.1
      simp only [ne_eq, not_true_eq_false, decide_false, Bool.false_eq_true, not_false_eq_true,
        List.filter_cons_of_neg, List.map_cons, List.sum_cons] at this ⊢
      rw [this, add_comm]
    · have hne : p.1 ≠ k := fun he => hl.1 (he ▸ List.mem_map.mpr ⟨_, hmem, rfl⟩)
      have hi := ih hl.2 hmem
      simp only [ne_eq, hne, not_false_eq_true, decide_true, List.filter_cons_of_pos,
        List.map_cons, List.sum_cons] at hi ⊢
      rw [add_assoc, hi]

/-- Removing a row takes exactly its own weight out of the total. -/
theorem weight_erase_add [AddCommMonoid M] (t : Table κ ν) {k : κ} {v : ν} (w : κ → ν → M)
    (h : t.get k = some v) : (t.erase k).weight w + w k v = t.weight w :=
  sum_filter_ne_add t.rows t.nodup k v w ((t.get_eq_some_iff k v).mp h)

theorem weight_erase_of_none [AddCommMonoid M] (t : Table κ ν) {k : κ} (w : κ → ν → M)
    (h : t.get k = none) : (t.erase k).weight w = t.weight w := by
  rw [t.erase_of_none h]

/-- A row put under a key whose old row weighs nothing adds exactly its own weight. -/
theorem weight_set [AddCommMonoid M] (t : Table κ ν) {k : κ} (v : ν) (w : κ → ν → M)
    (h : ∀ x, t.get k = some x → w k x = 0) : (t.set k v).weight w = w k v + t.weight w := by
  have hset : (t.set k v).weight w = w k v + (t.erase k).weight w := rfl
  cases hget : t.get k with
  | none => rw [hset, t.weight_erase_of_none w hget]
  | some x =>
    have herase := t.weight_erase_add w hget
    rw [h x hget, add_zero] at herase
    rw [hset, herase]

theorem weight_set_of_none [AddCommMonoid M] (t : Table κ ν) {k : κ} (v : ν) (w : κ → ν → M)
    (h : t.get k = none) : (t.set k v).weight w = w k v + t.weight w :=
  t.weight_set v w fun x hx => by rw [h] at hx; cases hx

theorem weight_nonneg [AddCommMonoid M] [PartialOrder M] [IsOrderedAddMonoid M]
    (t : Table κ ν) (w : κ → ν → M) (hw : ∀ k v, t.get k = some v → 0 ≤ w k v) :
    0 ≤ t.weight w := by
  apply List.sum_nonneg
  intro x hx
  obtain ⟨p, hp, rfl⟩ := List.mem_map.mp hx
  exact hw _ _ ((t.get_eq_some_iff p.1 p.2).mpr hp)

theorem weight_mono [AddCommMonoid M] [PartialOrder M] [IsOrderedAddMonoid M]
    (t : Table κ ν) {w w' : κ → ν → M} (h : ∀ k v, t.get k = some v → w k v ≤ w' k v) :
    t.weight w ≤ t.weight w' := by
  apply List.sum_le_sum
  intro p hp
  exact h p.1 p.2 ((t.get_eq_some_iff p.1 p.2).mpr hp)

omit [DecidableEq κ] in
theorem weight_add [AddCommMonoid M] (t : Table κ ν) (w w' : κ → ν → M) :
    t.weight (fun k v => w k v + w' k v) = t.weight w + t.weight w' :=
  List.sum_map_add

/-- A table outweighs another when every row of the other that weighs something has a row of at
least its weight under the same key. -/
theorem weight_le_weight [AddCommMonoid M] [LinearOrder M] [IsOrderedAddMonoid M] {μ : Type*}
    (t : Table κ ν) (u : Table κ μ) {w : κ → ν → M} {w' : κ → μ → M}
    (hw' : ∀ k x, u.get k = some x → 0 ≤ w' k x)
    (h : ∀ k v, t.get k = some v → w k v ≤ 0 ∨ ∃ x, u.get k = some x ∧ w k v ≤ w' k x) :
    t.weight w ≤ u.weight w' := by
  have hrows : ∀ (l : List (κ × ν)), (l.map Prod.fst).Nodup → ∀ u : Table κ μ,
      (∀ k x, u.get k = some x → 0 ≤ w' k x) →
      (∀ p ∈ l, w p.1 p.2 ≤ 0 ∨ ∃ x, u.get p.1 = some x ∧ w p.1 p.2 ≤ w' p.1 x) →
      (l.map fun p => w p.1 p.2).sum ≤ u.weight w' := by
    intro l
    induction l with
    | nil => exact fun _ u hu _ => u.weight_nonneg w' hu
    | cons p l ih =>
      intro hl u hu hp
      rw [List.map_cons, List.nodup_cons] at hl
      rw [List.map_cons, List.sum_cons]
      rcases hp p List.mem_cons_self with hle | ⟨x, hx, hle⟩
      · have hrest := ih hl.2 u hu fun q hq => hp q (List.mem_cons_of_mem p hq)
        calc w p.1 p.2 + (l.map fun p => w p.1 p.2).sum
            ≤ 0 + u.weight w' := add_le_add hle hrest
          _ = u.weight w' := zero_add _
      · -- the matching row is taken out of `u`, where no other row of `l` needs it
        have hrest := ih hl.2 (u.erase p.1) (fun k y hy => hu k y ?_) fun q hq => ?_
        · calc w p.1 p.2 + (l.map fun p => w p.1 p.2).sum
              ≤ w' p.1 x + (u.erase p.1).weight w' := add_le_add hle hrest
            _ = u.weight w' := by rw [add_comm, u.weight_erase_add w' hx]
        · rw [get_erase] at hy
          split_ifs at hy
          exact hy
        · have hne : q.1 ≠ p.1 := fun he => hl.1 (he ▸ List.mem_map.mpr ⟨q, hq, rfl⟩)
          rw [get_erase_ne u hne]
          exact hp q (List.mem_cons_of_mem p hq)
  exact hrows t.rows t.nodup u hw' fun p hp =>
    h p.1 p.2 ((t.get_eq_some_iff p.1 p.2).mpr hp)

theorem weight_congr [AddCommMonoid M] (t : Table κ ν) {w w' : κ → ν → M}
    (h : ∀ k v, t.get k = some v → w k v = w' k v) : t.weight w = t.weight w' := by
  unfold weight
  congr 1
  apply List.map_congr_left
  intro p hp
  exact h _ _ ((t.get_eq_some_iff p.1 p.2).mpr hp)

end Weight

section Values
variable {M : Type*}

omit [DecidableEq κ] in
theorem weight_mapValues [AddCommMonoid M] (t : Table κ ν) (f : κ → ν → ν) (w : κ → ν → M) :
    (t.mapValues f).weight w = t.weight fun k v => w k (f k v) := by
  unfold weight mapValues
  rw [List.map_map]
  rfl

end Values

section Scores
variable {ω : Type*} [LinearOrder ω] [LinearOrder κ]

/-- The order in which a sorted set lists its members: by score, then by member. -/
def byScore (p q : κ × ω) : Bool := p.2 < q.2 ∨ (p.2 = q.2 ∧ p.1 ≤ q.1)

/-- The members whose score satisfies `sel`, in sorted-set order, at most `limit` of them. -/
def rangeByScore (t : Table κ ω) (sel : ω → Bool) (limit : ℕ) : List κ :=
  (((t.rows.filter fun p => sel p.2).mergeSort byScore).take limit).map Prod.fst

omit [LinearOrder κ] in
theorem get_of_mem_rangeByScore [LinearOrder κ] (t : Table κ ω) {sel : ω → Bool} {limit : ℕ} {k : κ}
    (h : k ∈ t.rangeByScore sel limit) : ∃ s, t.get k = some s ∧ sel s := by
  obtain ⟨p, hp, rfl⟩ := List.mem_map.mp h
  have hp' := List.mem_mergeSort.mp (List.mem_of_mem_take hp)
  rw [List.mem_filter] at hp'
  exact ⟨p.2, (t.get_eq_some_iff p.1 p.2).mpr hp'.1, hp'.2⟩

end Scores

end Table

end Collections
