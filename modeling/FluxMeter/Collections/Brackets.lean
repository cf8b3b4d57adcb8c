import Mathlib.Algebra.BigOperators.Group.List.Basic
import Mathlib.Algebra.Order.Ring.Int

/-! Brackets: half-open intervals of integers laid one after another, of which only the last has no
end, and the walk that goes through a range of places from one bracket to the next. -/
namespace Collections

structure Bracket (τ : Type*) where
  label : τ
  start : ℤ
  stop : Option ℤ

namespace Bracket
variable {τ : Type*}

def Contains (b : Bracket τ) (i : ℤ) : Prop := b.start ≤ i ∧ b.stop.all (i < ·)

instance (b : Bracket τ) : DecidablePred b.Contains := fun _ => inferInstanceAs (Decidable (_ ∧ _))

/-- How many of the `n` places from `a` on lie in the bracket. -/
def count (b : Bracket τ) (a n : ℤ) : ℕ :=
  (List.range n.toNat).countP fun k : ℕ => b.Contains (a + k)

/-- How many places follow `i` in the bracket, at most `n`. -/
def room (b : Bracket τ) (n i : ℤ) : ℤ := (b.stop.map fun stop => min n (stop - i)).getD n

variable {b : Bracket τ} {a c n i j : ℤ}

theorem count_nonpos (h : n ≤ 0) : b.count a n = 0 := by
  unfold count
  rw [Int.toNat_of_nonpos h]
  rfl

theorem count_add (hc : 0 ≤ c) (hn : c ≤ n) :
    b.count a n = b.count a c + b.count (a + c) (n - c) := by
  unfold count
  have hparts : n.toNat = c.toNat + (n - c).toNat := by omega
  have hplace : ∀ k : ℕ, a + ((c.toNat + k : ℕ) : ℤ) = a + c + k := by
    intro k
    omega
  rw [hparts, List.range_add, List.countP_append, List.countP_map]
  congr 2
  funext k
  simp only [Function.comp_apply, hplace]

theorem count_all (hc : 0 ≤ c) (h : ∀ i, a ≤ i → i < a + c → b.Contains i) :
    (b.count a c : ℤ) = c := by
  have hall : b.count a c = (List.range c.toNat).length := by
    apply List.countP_eq_length.mpr
    intro k hk
    have hlt := List.mem_range.mp hk
    exact decide_eq_true (h _ (by omega) (by omega))
  rw [hall, List.length_range]
  omega

theorem count_none (h : ∀ i, a ≤ i → i < a + c → ¬ b.Contains i) : b.count a c = 0 := by
  apply List.countP_eq_zero.mpr
  intro k hk
  have hlt := List.mem_range.mp hk
  rw [decide_eq_true_eq]
  exact h _ (by omega) (by omega)

theorem room_bounds (hn : 0 < n) (hi : b.Contains i) : 0 < b.room n i ∧ b.room n i ≤ n := by
  unfold room
  unfold Contains at hi
  cases hstop : b.stop with
  | none => exact ⟨hn, le_refl n⟩
  | some stop =>
    rw [hstop] at hi
    have hlt : i < stop := by simpa using hi.2
    simp only [Option.map_some, Option.getD_some]
    omega

theorem contains_room (hi : b.Contains i) (hlo : i ≤ j) (hhi : j < i + b.room n i) :
    b.Contains j := by
  unfold room at hhi
  unfold Contains at hi ⊢
  cases hstop : b.stop with
  | none => exact ⟨by omega, rfl⟩
  | some stop =>
    rw [hstop] at hhi
    simp only [Option.map_some, Option.getD_some] at hhi
    refine ⟨by omega, ?_⟩
    have hlt : j < stop := by omega
    simpa using hlt

theorem not_contains_after (hlo : i + b.room n i ≤ j) (hhi : j < i + n) : ¬ b.Contains j := by
  unfold room at hlo
  unfold Contains
  cases hstop : b.stop with
  | none =>
    rw [hstop] at hlo
    simp only [Option.map_none, Option.getD_none] at hlo
    omega
  | some stop =>
    rw [hstop] at hlo
    simp only [Option.map_some, Option.getD_some] at hlo
    rintro ⟨-, hlt⟩
    have hlt' : j < stop := by simpa using hlt
    omega

end Bracket

section Laying
variable {τ : Type*} {stop : τ → Option ℤ} {start i : ℤ} {ts : List τ}

/-- The brackets of labels with their ends, from `start` on. -/
def brackets (stop : τ → Option ℤ) : ℤ → List τ → List (Bracket τ)
  | _, [] => []
  | start, t :: ts => ⟨t, start, stop t⟩ :: brackets stop ((stop t).getD start) ts

/-- The ends do not fall, and exactly the last bracket has none. -/
def Ascending (stop : τ → Option ℤ) : ℤ → List τ → Prop
  | _, [] => False
  | start, t :: ts =>
    match stop t with
    | none => ts = []
    | some s => start ≤ s ∧ Ascending stop s ts

theorem start_le_of_mem (h : Ascending stop start ts) :
    ∀ b ∈ brackets stop start ts, start ≤ b.start := by
  induction ts generalizing start with
  | nil => simp [brackets]
  | cons t ts ih =>
    intro b hb
    unfold Ascending at h
    unfold brackets at hb
    rcases List.mem_cons.mp hb with rfl | hb
    · exact le_refl start
    · cases hstop : stop t with
      | none =>
        rw [hstop] at h
        dsimp only at h
        subst h
        simp [brackets] at hb
      | some s =>
        rw [hstop] at h hb
        have hlater := ih h.2 b hb
        have hle := h.1
        omega

theorem label_of_mem : ∀ b ∈ brackets stop start ts, b.label ∈ ts ∧ b.stop = stop b.label := by
  induction ts generalizing start with
  | nil => simp [brackets]
  | cons t ts ih =>
    intro b hb
    unfold brackets at hb
    rcases List.mem_cons.mp hb with rfl | hb
    · exact ⟨List.mem_cons_self, rfl⟩
    · obtain ⟨hlabel, hstop⟩ := ih b hb
      exact ⟨List.mem_cons_of_mem t hlabel, hstop⟩

/-- Every place from the start on lies in a bracket, whose label is the first one that ends after
the place. -/
theorem exists_contains (h : Ascending stop start ts) (hi : start ≤ i) :
    ∃ b ∈ brackets stop start ts, b.Contains i ∧
      ts.find? (fun t => (stop t).all (i < ·)) = some b.label := by
  induction ts generalizing start with
  | nil => exact h.elim
  | cons t ts ih =>
    unfold Ascending at h
    unfold brackets
    by_cases hfirst : (stop t).all (i < ·) = true
    · refine ⟨⟨t, start, stop t⟩, List.mem_cons_self, ⟨hi, hfirst⟩, ?_⟩
      exact List.find?_cons_of_pos hfirst
    · cases hstop : stop t with
      | none => simp [hstop] at hfirst
      | some s =>
        rw [hstop] at h hfirst
        have hs : s ≤ i := by simpa using hfirst
        obtain ⟨b, hb, hcontains, hfind⟩ := ih h.2 hs
        refine ⟨b, List.mem_cons_of_mem _ hb, hcontains, ?_⟩
        rw [List.find?_cons_of_neg (by simpa [hstop] using hs)]
        exact hfind

/-- A test that is right on the brackets begun by `i` finds the same label. -/
theorem find?_of_begun (h : Ascending stop start ts) (hi : start ≤ i) {q : τ → Bool}
    (hq : ∀ b ∈ brackets stop start ts, b.start ≤ i → q b.label = (stop b.label).all (i < ·)) :
    ts.find? q = ts.find? fun t => (stop t).all (i < ·) := by
  induction ts generalizing start with
  | nil => rfl
  | cons t ts ih =>
    unfold Ascending at h
    unfold brackets at hq
    obtain ⟨hfirst, hrest⟩ := List.forall_mem_cons.mp hq
    have hself : q t = (stop t).all (i < ·) := hfirst hi
    rw [List.find?_cons, List.find?_cons, hself]
    cases hstop : stop t with
    | none => rfl
    | some s =>
      rw [hstop] at h hrest
      by_cases hlt : i < s
      · simp [hlt]
      · have hnext : s ≤ i := by omega
        simp only [Option.all_some, hlt, decide_false]
        exact ih h.2 hnext hrest

theorem pairwise_disjoint (h : Ascending stop start ts) :
    (brackets stop start ts).Pairwise fun b c => ∀ i, b.Contains i → ¬ c.Contains i := by
  induction ts generalizing start with
  | nil => exact List.Pairwise.nil
  | cons t ts ih =>
    unfold Ascending at h
    unfold brackets
    cases hstop : stop t with
    | none =>
      rw [hstop] at h
      dsimp only at h
      subst h
      exact List.pairwise_singleton _ _
    | some s =>
      rw [hstop] at h
      refine List.Pairwise.cons ?_ (ih h.2)
      intro c hc i hfirst hlater
      have hlt : i < s := by simpa [Bracket.Contains] using hfirst.2
      have hge := start_le_of_mem h.2 c hc
      have hstart := hlater.1
      omega

end Laying

/-! ### Walks -/

/-- One turn of a walk: `capacity` places from `cursor` on get the label. -/
structure Turn (τ : Type*) where
  label : τ
  cursor : ℤ
  remaining : ℤ
  capacity : ℤ

def Turn.Covers {τ : Type*} (t : Turn τ) (i : ℤ) : Prop := t.cursor ≤ i ∧ i < t.cursor + t.capacity

instance {τ : Type*} (t : Turn τ) : DecidablePred t.Covers :=
  fun _ => inferInstanceAs (Decidable (_ ∧ _))

/-- The turns of a loop that takes a slice of what remains until nothing does. -/
def walk {τ : Type*} (slice : ℤ → ℤ → τ × ℤ) : ℕ → ℤ → ℤ → List (Turn τ)
  | 0, _, _ => []
  | fuel + 1, remaining, cursor =>
    if 0 < remaining then
      let s := slice remaining cursor
      ⟨s.1, cursor, remaining, s.2⟩ :: walk slice fuel (remaining - s.2) (cursor + s.2)
    else []

section Walk
variable {τ : Type*} {slice : ℤ → ℤ → τ × ℤ} {l : List (Bracket τ)} {lo hi : ℤ}

/-- From `lo` up to the end `hi` of the range, a slice is the room in the bracket at the cursor. -/
def Greedy (l : List (Bracket τ)) (slice : ℤ → ℤ → τ × ℤ) (lo hi : ℤ) : Prop :=
  ∀ remaining cursor, 0 < remaining → lo ≤ cursor → cursor + remaining = hi →
    ∃ b ∈ l, b.Contains cursor ∧ slice remaining cursor = (b.label, b.room remaining cursor)

/-- A slice is not empty and not more than what remains. -/
theorem slice_bounds_of_greedy (h : Greedy l slice lo hi) {remaining cursor : ℤ}
    (hpos : 0 < remaining) (hlo : lo ≤ cursor) (hhi : cursor + remaining = hi) :
    0 < (slice remaining cursor).2 ∧ (slice remaining cursor).2 ≤ remaining := by
  obtain ⟨b, -, hcontains, hslice⟩ := h remaining cursor hpos hlo hhi
  rw [hslice]
  exact Bracket.room_bounds hpos hcontains

/-- The walk ends before its fuel does. -/
theorem walk_fuel (h : Greedy l slice lo hi) (fuel extra : ℕ) : ∀ remaining cursor : ℤ,
    remaining ≤ fuel → lo ≤ cursor → cursor + remaining = hi →
      walk slice (fuel + extra) remaining cursor = walk slice fuel remaining cursor := by
  induction fuel with
  | zero =>
    intro remaining cursor hdone _ _
    cases extra with
    | zero => rfl
    | succ extra =>
      rw [Nat.zero_add]
      unfold walk
      rw [if_neg (by omega)]
  | succ fuel ih =>
    intro remaining cursor hfuel hlo hhi
    rw [Nat.succ_add]
    unfold walk
    split_ifs with hpos
    · obtain ⟨hone, hmost⟩ := slice_bounds_of_greedy h hpos hlo hhi
      dsimp only
      rw [ih _ _ (by omega) (by omega) (by omega)]
    · rfl

theorem walk_range (h : Greedy l slice lo hi) (fuel : ℕ) : ∀ remaining cursor : ℤ,
    lo ≤ cursor → cursor + remaining = hi →
      ∀ t ∈ walk slice fuel remaining cursor, 0 < t.remaining ∧ cursor ≤ t.cursor ∧
        t.cursor + t.remaining = hi ∧ (t.label, t.capacity) = slice t.remaining t.cursor := by
  induction fuel with
  | zero => intro remaining cursor _ _ t ht; simp [walk] at ht
  | succ fuel ih =>
    intro remaining cursor hlo hhi t ht
    unfold walk at ht
    split_ifs at ht with hpos
    · obtain ⟨hone, hmost⟩ := slice_bounds_of_greedy h hpos hlo hhi
      rcases List.mem_cons.mp ht with rfl | ht
      · exact ⟨hpos, le_refl cursor, hhi, rfl⟩
      · obtain ⟨hremaining, hcursor, hend, hslice⟩ :=
          ih _ _ (by omega) (by omega) t ht
        exact ⟨hremaining, by omega, hend, hslice⟩
    · simp at ht

/-- Every place of the range is covered by exactly one turn, and no other place by any. -/
theorem walk_covers (h : Greedy l slice lo hi) (fuel : ℕ) : ∀ remaining cursor : ℤ,
    remaining ≤ fuel → lo ≤ cursor → cursor + remaining = hi →
      ∀ i, (walk slice fuel remaining cursor).countP (fun t => t.Covers i) =
        if cursor ≤ i ∧ i < hi then 1 else 0 := by
  induction fuel with
  | zero =>
    intro remaining cursor hdone _ hhi i
    rw [if_neg (by omega)]
    rfl
  | succ fuel ih =>
    intro remaining cursor hfuel hlo hhi i
    unfold walk
    by_cases hpos : 0 < remaining
    · obtain ⟨hone, hmost⟩ := slice_bounds_of_greedy h hpos hlo hhi
      have hrest := ih (remaining - (slice remaining cursor).2)
        (cursor + (slice remaining cursor).2) (by omega) (by omega) (by omega) i
      rw [if_pos hpos, List.countP_cons, hrest]
      by_cases hfirst : Turn.Covers
          ⟨(slice remaining cursor).1, cursor, remaining, (slice remaining cursor).2⟩ i
      · rw [if_pos (decide_eq_true hfirst)]
        obtain ⟨hge, hlt⟩ := hfirst
        dsimp only at hge hlt
        rw [if_neg (by omega), if_pos (by omega)]
      · rw [if_neg (fun hcovers => hfirst (of_decide_eq_true hcovers)), Nat.add_zero]
        unfold Turn.Covers at hfirst
        dsimp only at hfirst
        have hlater : (cursor + (slice remaining cursor).2 ≤ i ∧ i < hi) ↔
            cursor ≤ i ∧ i < hi := by omega
        simp only [hlater]
    · rw [if_neg hpos, if_neg (by omega)]
      rfl

/-- A covered place lies in a bracket with the label of its turn. -/
theorem walk_label (h : Greedy l slice lo hi) {fuel : ℕ} {remaining cursor : ℤ} (hlo : lo ≤ cursor)
    (hhi : cursor + remaining = hi) {t : Turn τ} (ht : t ∈ walk slice fuel remaining cursor) {i : ℤ}
    (hi : t.Covers i) : ∃ b ∈ l, b.label = t.label ∧ b.Contains i := by
  obtain ⟨hpos, hcursor, hend, hslice⟩ := walk_range h fuel remaining cursor hlo hhi t ht
  obtain ⟨b, hb, hcontains, hroom⟩ := h t.remaining t.cursor hpos (by omega) hend
  rw [hroom] at hslice
  obtain ⟨hlabel, hcapacity⟩ := Prod.mk.inj hslice
  refine ⟨b, hb, hlabel.symm, ?_⟩
  apply Bracket.contains_room hcontains hi.1
  rw [← hcapacity]
  exact hi.2

private theorem sum_count_step (hdisjoint : l.Pairwise fun b c => ∀ i, b.Contains i → ¬ c.Contains i)
    {b : Bracket τ} (hb : b ∈ l) {n a : ℤ} (hn : 0 < n) (ha : b.Contains a) (g : τ → ℤ → ℤ)
    (hg : ∀ label, g label 0 = 0) :
    (l.map fun c => g c.label (c.count a n)).sum =
      g b.label (b.room n a) +
        (l.map fun c => g c.label (c.count (a + b.room n a) (n - b.room n a))).sum := by
  obtain ⟨hone, hmost⟩ := Bracket.room_bounds hn ha
  have hinside : ∀ i, a ≤ i → i < a + b.room n a → b.Contains i :=
    fun i hlo hhi => Bracket.contains_room ha hlo hhi
  have hself : (b.count a n : ℤ) = b.room n a := by
    have hall := Bracket.count_all hone.le hinside
    have hafter : b.count (a + b.room n a) (n - b.room n a) = 0 := by
      apply Bracket.count_none
      intro i hlo hhi
      exact Bracket.not_contains_after hlo (by omega)
    rw [Bracket.count_add hone.le hmost, hafter]
    push_cast
    omega
  have hlast : b.count (a + b.room n a) (n - b.room n a) = 0 := by
    have hsplit := Bracket.count_add (b := b) (a := a) hone.le hmost
    have hall := Bracket.count_all hone.le hinside
    omega
  have hother : ∀ c : Bracket τ, (∀ i, b.Contains i → ¬ c.Contains i) →
      c.count a n = c.count (a + b.room n a) (n - b.room n a) := by
    intro c hc
    have hnone : c.count a (b.room n a) = 0 :=
      Bracket.count_none fun i hlo hhi => hc i (hinside i hlo hhi)
    rw [Bracket.count_add hone.le hmost, hnone, Nat.zero_add]
  obtain ⟨before, after, rfl⟩ := List.append_of_mem hb
  rw [List.pairwise_append] at hdisjoint
  obtain ⟨-, hafter, hcross⟩ := hdisjoint
  rw [List.pairwise_cons] at hafter
  have hbefore : (before.map fun c => g c.label (c.count a n)) =
      before.map fun c => g c.label (c.count (a + b.room n a) (n - b.room n a)) := by
    apply List.map_congr_left
    intro c hc
    rw [hother c fun i hi hci => hcross c hc b List.mem_cons_self i hci hi]
  have hlater : (after.map fun c => g c.label (c.count a n)) =
      after.map fun c => g c.label (c.count (a + b.room n a) (n - b.room n a)) := by
    apply List.map_congr_left
    intro c hc
    rw [hother c (hafter.1 c hc)]
  simp only [List.map_append, List.map_cons, List.sum_append, List.sum_cons]
  rw [hbefore, hlater, hself, hlast, Nat.cast_zero, hg]
  omega

/-- What the turns add up to is what the brackets do, each at the number of its places. -/
theorem walk_sum (hdisjoint : l.Pairwise fun b c => ∀ i, b.Contains i → ¬ c.Contains i)
    (h : Greedy l slice lo hi) (g : τ → ℤ → ℤ) (hg : ∀ label, g label 0 = 0) (fuel : ℕ) :
    ∀ remaining cursor : ℤ, remaining ≤ fuel → lo ≤ cursor → cursor + remaining = hi →
      ((walk slice fuel remaining cursor).map fun t => g t.label t.capacity).sum =
        (l.map fun b => g b.label (b.count cursor remaining)).sum := by
  have hzero : ∀ remaining cursor : ℤ, remaining ≤ 0 →
      (l.map fun b => g b.label (b.count cursor remaining)).sum = 0 := by
    intro remaining cursor hnone
    apply List.sum_eq_zero
    intro x hx
    obtain ⟨b, -, rfl⟩ := List.mem_map.mp hx
    rw [Bracket.count_nonpos hnone, Nat.cast_zero, hg]
  induction fuel with
  | zero =>
    intro remaining cursor hdone _ _
    rw [hzero remaining cursor (by omega)]
    rfl
  | succ fuel ih =>
    intro remaining cursor hfuel hlo hhi
    unfold walk
    split_ifs with hpos
    · obtain ⟨b, hb, hcontains, hslice⟩ := h remaining cursor hpos hlo hhi
      obtain ⟨hone, hmost⟩ := Bracket.room_bounds hpos hcontains
      dsimp only
      rw [hslice, List.map_cons, List.sum_cons]
      dsimp only
      rw [ih _ _ (by omega) (by omega) (by omega),
        sum_count_step hdisjoint hb hpos hcontains g hg]
    · rw [hzero remaining cursor (by omega)]
      rfl

end Walk

end Collections
