import Mathlib.Data.List.Perm.Basic
import Mathlib.Data.List.Induction
import Mathlib.Tactic.SplitIfs

/-! Grouping by a key with insertion order, as a `defaultdict(list)` filled in a loop does: the
groups stand in the order in which their keys appear, and a group keeps the order of its members. -/
namespace Collections

variable {α κ : Type*} [DecidableEq κ] (key : α → κ)

/-- `groups[key(x)].append(x)`. -/
def insertGroup (x : α) : List (κ × List α) → List (κ × List α)
  | [] => [(key x, [x])]
  | (k, g) :: rest => if k = key x then (k, g ++ [x]) :: rest else (k, g) :: insertGroup x rest

def groupsOf (l : List α) : List (κ × List α) :=
  l.foldl (fun groups x => insertGroup key x groups) []

variable {key}

theorem groupsOf_append_singleton (l : List α) (x : α) :
    groupsOf key (l ++ [x]) = insertGroup key x (groupsOf key l) := by
  unfold groupsOf
  rw [List.foldl_append]
  rfl

private theorem insertGroup_perm (x : α) (groups : List (κ × List α)) :
    ((insertGroup key x groups).flatMap Prod.snd).Perm (groups.flatMap Prod.snd ++ [x]) := by
  induction groups with
  | nil => simp [insertGroup]
  | cons p groups ih =>
    obtain ⟨k, g⟩ := p
    unfold insertGroup
    split_ifs with hk
    · simp only [List.flatMap_cons, List.append_assoc]
      exact List.perm_append_comm.append_left g
    · simp only [List.flatMap_cons, List.append_assoc]
      exact ih.append_left g

theorem groupsOf_perm (l : List α) : ((groupsOf key l).flatMap Prod.snd).Perm l := by
  induction l using List.reverseRecOn with
  | nil => exact List.Perm.refl _
  | append_singleton l x ih =>
    rw [groupsOf_append_singleton]
    exact (insertGroup_perm x _).trans (ih.append_right [x])

private theorem key_insertGroup {x : α} {groups : List (κ × List α)}
    (h : ∀ p ∈ groups, ∀ y ∈ p.2, key y = p.1) :
    ∀ p ∈ insertGroup key x groups, ∀ y ∈ p.2, key y = p.1 := by
  induction groups with
  | nil =>
    intro p hp y hy
    rw [List.mem_singleton.mp hp] at hy ⊢
    rw [List.mem_singleton.mp hy]
  | cons p groups ih =>
    obtain ⟨k, g⟩ := p
    obtain ⟨hfirst, hrest⟩ := List.forall_mem_cons.mp h
    unfold insertGroup
    split_ifs with hk
    · refine List.forall_mem_cons.mpr ⟨fun y hy => ?_, hrest⟩
      rcases List.mem_append.mp hy with hy | hy
      · exact hfirst y hy
      · rw [List.mem_singleton.mp hy]
        exact hk.symm
    · exact List.forall_mem_cons.mpr ⟨hfirst, ih hrest⟩

theorem key_groupsOf (l : List α) : ∀ p ∈ groupsOf key l, ∀ y ∈ p.2, key y = p.1 := by
  induction l using List.reverseRecOn with
  | nil => simp [groupsOf]
  | append_singleton l x ih =>
    rw [groupsOf_append_singleton]
    exact key_insertGroup ih

theorem filter_insertGroup {x : α} {groups : List (κ × List α)} {q : α → Bool}
    (hq : ∀ y, q y = true → q x = true → key y = key x)
    (h : ∀ p ∈ groups, ∀ y ∈ p.2, key y = p.1) (hnodup : (groups.map Prod.fst).Nodup) :
    ((insertGroup key x groups).flatMap Prod.snd).filter q =
      (groups.flatMap Prod.snd).filter q ++ [x].filter q := by
  induction groups with
  | nil => simp [insertGroup]
  | cons p groups ih =>
    obtain ⟨k, g⟩ := p
    obtain ⟨hfirst, hrest⟩ := List.forall_mem_cons.mp h
    rw [List.map_cons, List.nodup_cons] at hnodup
    unfold insertGroup
    split_ifs with hk
    · -- the later groups have other keys
      simp only [List.flatMap_cons, List.filter_append, List.append_assoc]
      congr 1
      cases hx : q x with
      | false => simp [hx]
      | true =>
        have hnone : (groups.flatMap Prod.snd).filter q = [] := by
          apply List.filter_eq_nil_iff.mpr
          intro y hy hqy
          obtain ⟨p, hp, hyp⟩ := List.mem_flatMap.mp hy
          apply hnodup.1
          apply List.mem_map.mpr
          refine ⟨p, hp, ?_⟩
          rw [← hrest p hp y hyp, hq y hqy hx]
          exact hk.symm
        rw [hnone]
        simp
    · simp only [List.flatMap_cons, List.filter_append]
      rw [ih hrest hnodup.2, List.append_assoc]

theorem keys_insertGroup {x : α} {groups : List (κ × List α)}
    (hnodup : (groups.map Prod.fst).Nodup) :
    ((insertGroup key x groups).map Prod.fst).Nodup ∧
      ∀ k, k ∈ (insertGroup key x groups).map Prod.fst → k = key x ∨ k ∈ groups.map Prod.fst := by
  induction groups with
  | nil => simp [insertGroup]
  | cons p groups ih =>
    obtain ⟨k, g⟩ := p
    rw [List.map_cons, List.nodup_cons] at hnodup
    obtain ⟨hnodup', hmem⟩ := ih hnodup.2
    unfold insertGroup
    split_ifs with hk
    · refine ⟨?_, fun j hj => Or.inr hj⟩
      rw [List.map_cons, List.nodup_cons]
      exact hnodup
    · constructor
      · rw [List.map_cons, List.nodup_cons]
        refine ⟨fun hin => ?_, hnodup'⟩
        rcases hmem k hin with heq | hold
        · exact hk heq
        · exact hnodup.1 hold
      · intro j hj
        rcases List.mem_cons.mp hj with rfl | hj
        · exact Or.inr List.mem_cons_self
        · rcases hmem j hj with heq | hold
          · exact Or.inl heq
          · exact Or.inr (List.mem_cons_of_mem _ hold)

theorem keys_groupsOf (l : List α) : ((groupsOf key l).map Prod.fst).Nodup := by
  induction l using List.reverseRecOn with
  | nil => exact List.nodup_nil
  | append_singleton l x ih =>
    rw [groupsOf_append_singleton]
    exact (keys_insertGroup ih).1

theorem exists_of_mem_groupsOf {l : List α} {p : κ × List α} (h : p ∈ groupsOf key l) :
    ∃ x ∈ l, key x = p.1 := by
  have hkeys : ∀ l : List α, ∀ k ∈ (groupsOf key l).map Prod.fst, ∃ x ∈ l, key x = k := by
    intro l
    induction l using List.reverseRecOn with
    | nil => simp [groupsOf]
    | append_singleton l x ih =>
      intro k hk
      rw [groupsOf_append_singleton] at hk
      rcases (keys_insertGroup (keys_groupsOf l)).2 k hk with rfl | hold
      · exact ⟨x, List.mem_append_right l List.mem_cons_self, rfl⟩
      · obtain ⟨y, hy, hkey⟩ := ih k hold
        exact ⟨y, List.mem_append_left [x] hy, hkey⟩
  exact hkeys l p.1 (List.mem_map.mpr ⟨p, h, rfl⟩)

/-- Grouping keeps the order of members that share a key. -/
theorem filter_groupsOf {q : α → Bool} (hq : ∀ x y, q x = true → q y = true → key x = key y)
    (l : List α) : ((groupsOf key l).flatMap Prod.snd).filter q = l.filter q := by
  induction l using List.reverseRecOn with
  | nil => rfl
  | append_singleton l x ih =>
    rw [groupsOf_append_singleton,
      filter_insertGroup (fun y hy hx => hq y x hy hx) (key_groupsOf l) (keys_groupsOf l), ih,
      List.filter_append]

theorem group_eq_filter {l : List α} {p : κ × List α} (h : p ∈ groupsOf key l) :
    p.2 = l.filter fun x => key x = p.1 := by
  have hgroups : ∀ groups : List (κ × List α), (∀ q ∈ groups, ∀ y ∈ q.2, key y = q.1) →
      (groups.map Prod.fst).Nodup → p ∈ groups →
      (groups.flatMap Prod.snd).filter (fun x => key x = p.1) = p.2 := by
    intro groups hkey hnodup hp
    induction groups with
    | nil => cases hp
    | cons q groups ih =>
      obtain ⟨hfirst, hrest⟩ := List.forall_mem_cons.mp hkey
      rw [List.map_cons, List.nodup_cons] at hnodup
      rw [List.flatMap_cons, List.filter_append]
      rcases List.mem_cons.mp hp with rfl | hmem
      · have hown : p.2.filter (fun x => key x = p.1) = p.2 :=
          List.filter_eq_self.mpr fun y hy => by simpa using hfirst y hy
        have hothers : (groups.flatMap Prod.snd).filter (fun x => key x = p.1) = [] := by
          rw [List.filter_eq_nil_iff]
          intro y hy
          obtain ⟨r, hr, hyr⟩ := List.mem_flatMap.mp hy
          have hne : key y ≠ p.1 := fun heq => hnodup.1
            (List.mem_map.mpr ⟨r, hr, (hrest r hr y hyr).symm.trans heq⟩)
          simpa using hne
        rw [hown, hothers, List.append_nil]
      · have hnone : q.2.filter (fun x => key x = p.1) = [] := by
          rw [List.filter_eq_nil_iff]
          intro y hy
          have hne : key y ≠ p.1 := fun heq => hnodup.1
            (List.mem_map.mpr ⟨p, hmem, heq.symm.trans (hfirst y hy)⟩)
          simpa using hne
        rw [hnone, List.nil_append, ih hrest hnodup.2 hmem]
  have hsame : ∀ x y, decide (key x = p.1) = true → decide (key y = p.1) = true → key x = key y :=
    fun x y hx hy => (of_decide_eq_true hx).trans (of_decide_eq_true hy).symm
  exact (hgroups _ (key_groupsOf l) (keys_groupsOf l) h).symm.trans (filter_groupsOf hsame l)

end Collections
