import Mathlib.Data.List.Basic
import Mathlib.Tactic.SplitIfs

/-! A text cut at a separator, and a stream cut at doubled separators. However it arrives in pieces, a
reader that keeps the open part between two pieces reads the frames of the whole. -/
namespace Collections
variable {α σ : Type*}

/-- A part of a split text has no separator and is within the text. -/
theorem part_of_splitOn [BEq α] [LawfulBEq α] {a : α} {l : List α} :
    ∀ {part : List α}, part ∈ l.splitOn a → a ∉ part ∧ ∀ c ∈ part, c ∈ l := by
  induction l with
  | nil =>
    intro part hpart
    rw [List.splitOn_nil, List.mem_singleton] at hpart
    rw [hpart]
    exact ⟨List.not_mem_nil, fun c hc => hc⟩
  | cons x l ih =>
    intro part hpart
    rw [List.splitOn_cons_eq_if_modifyHead] at hpart
    obtain ⟨first, others, hsplit⟩ := List.exists_cons_of_ne_nil (List.splitOn_ne_nil a l)
    split_ifs at hpart with hx
    · rcases List.mem_cons.mp hpart with rfl | hpart
      · exact ⟨List.not_mem_nil, fun c hc => absurd hc List.not_mem_nil⟩
      · obtain ⟨hnone, hmem⟩ := ih hpart
        exact ⟨hnone, fun c hc => List.mem_cons_of_mem x (hmem c hc)⟩
    · rw [hsplit, List.modifyHead_cons] at hpart
      rcases List.mem_cons.mp hpart with rfl | hpart
      · obtain ⟨hnone, hmem⟩ := ih (hsplit ▸ List.mem_cons_self)
        refine ⟨?_, fun c hc => ?_⟩
        · rw [List.mem_cons, not_or]
          exact ⟨fun h => hx (beq_iff_eq.mpr h.symm), hnone⟩
        · exact List.mem_cons.mpr ((List.mem_cons.mp hc).imp_right (hmem c))
      · obtain ⟨hnone, hmem⟩ := ih (hsplit ▸ List.mem_cons_of_mem first hpart)
        exact ⟨hnone, fun c hc => List.mem_cons_of_mem x (hmem c hc)⟩

/-- An element before the first frame, or before the open part where no frame is complete. -/
def extend (a : α) : List (List α) × List α → List (List α) × List α
  | ([], tail) => ([], a :: tail)
  | (frame :: complete, tail) => ((a :: frame) :: complete, tail)

variable {stopped : σ → Bool} {take : σ → List α → σ}

theorem foldl_take_stopped (hstop : ∀ s frame, stopped s = true → take s frame = s) {s : σ}
    (h : stopped s = true) (complete : List (List α)) : complete.foldl take s = s := by
  induction complete with
  | nil => rfl
  | cons frame complete ih => rw [List.foldl_cons, hstop s frame h, ih]

section Frames
variable [DecidableEq α] (sep : α)

/-- The frames that a doubled separator ends, and the open part behind them. -/
def frames : List α → List (List α) × List α
  | [] => ([], [])
  | [a] => ([], [a])
  | a :: b :: rest =>
    if a = sep ∧ b = sep then ([] :: (frames rest).1, (frames rest).2)
    else extend a (frames (b :: rest))

variable {sep}

/-- The frames with their separators, and the open part, are the stream. -/
theorem frames_join (sep : α) (l : List α) :
    (frames sep l).1.flatMap (· ++ [sep, sep]) ++ (frames sep l).2 = l := by
  induction l using frames.induct sep with
  | case1 => rfl
  | case2 a => rfl
  | case3 a b rest hsep ih =>
    obtain ⟨rfl, rfl⟩ := hsep
    rw [frames, if_pos ⟨rfl, rfl⟩]
    simp [ih]
  | case4 a b rest hsep ih =>
    rw [frames, if_neg hsep]
    cases hframes : frames sep (b :: rest) with
    | mk complete tail =>
      rw [hframes] at ih
      cases complete <;> simpa [extend] using ih

theorem frames_of_none {l : List α} (h : (frames sep l).1 = []) : frames sep l = ([], l) := by
  have hjoin := frames_join sep l
  rw [h] at hjoin
  exact Prod.ext h hjoin

/-- The frames of a longer stream are those of the stream so far, and those of its open part. -/
theorem frames_append (l l' : List α) :
    frames sep (l ++ l') = ((frames sep l).1 ++ (frames sep ((frames sep l).2 ++ l')).1,
      (frames sep ((frames sep l).2 ++ l')).2) := by
  induction l using frames.induct sep with
  | case1 => rfl
  | case2 a => rfl
  | case3 a b rest hsep ih =>
    rw [List.cons_append, List.cons_append, frames, frames, if_pos hsep, if_pos hsep, ih]
    rfl
  | case4 a b rest hsep ih =>
    have hlong : frames sep (a :: b :: rest ++ l') = extend a (frames sep (b :: rest ++ l')) := by
      rw [List.cons_append, List.cons_append, frames, if_neg hsep]
    rw [hlong, ih, frames, if_neg hsep]
    cases hframes : frames sep (b :: rest) with
    | mk complete tail =>
      cases complete with
      | nil =>
        -- no frame so far, so that the whole stream is open
        have htail : tail = b :: rest := by
          have hall := frames_of_none (congrArg Prod.fst hframes)
          rw [hframes] at hall
          exact congrArg Prod.snd hall
        rw [htail]
        exact hlong.symm
      | cons frame complete => rfl

theorem frames_tail (l : List α) : frames sep (frames sep l).2 = ([], (frames sep l).2) := by
  have happend : frames sep (l ++ []) = _ := frames_append l []
  rw [List.append_nil, List.append_nil] at happend
  have hnone := congrArg Prod.fst happend
  exact frames_of_none (List.self_eq_append_right.mp hnone)

theorem frames_of_not_mem {l : List α} (h : sep ∉ l) : (frames sep l).1 = [] := by
  induction l using frames.induct sep with
  | case1 => rfl
  | case2 a => rfl
  | case3 a b rest hsep ih => exact absurd (hsep.1 ▸ List.mem_cons_self) h
  | case4 a b rest hsep ih =>
    rw [frames, if_neg hsep, frames_of_none (ih fun hmem => h (List.mem_cons_of_mem a hmem))]
    rfl

theorem frames_append_of_not_mem (l : List α) {l' : List α} (h : sep ∉ l') :
    (frames sep (l ++ l')).1 = (frames sep l).1 := by
  induction l using frames.induct sep with
  | case1 => exact frames_of_not_mem h
  | case2 a =>
    cases l' with
    | nil => rfl
    | cons b rest =>
      have hb : ¬ (a = sep ∧ b = sep) := fun heq => h (heq.2 ▸ List.mem_cons_self)
      have hlong : frames sep ([a] ++ b :: rest) = extend a (frames sep (b :: rest)) := by
        rw [List.singleton_append, frames, if_neg hb]
      rw [hlong, frames_of_none (frames_of_not_mem h)]
      rfl
  | case3 a b rest hsep ih =>
    rw [List.cons_append, List.cons_append, frames, frames, if_pos hsep, if_pos hsep, ih]
  | case4 a b rest hsep ih =>
    have hlong : frames sep (a :: b :: rest ++ l') = extend a (frames sep (b :: rest ++ l')) := by
      rw [List.cons_append, List.cons_append, frames, if_neg hsep]
    have hextend : ∀ p q : List (List α) × List α, p.1 = q.1 → (extend a p).1 = (extend a q).1 := by
      rintro ⟨complete, tail⟩ ⟨complete', tail'⟩ rfl
      cases complete <;> rfl
    rw [hlong, frames, if_neg hsep]
    exact hextend _ _ ih

/-! ### A reader of frames -/

/-- A reader takes the frames that a piece completes, unless it has stopped; its first component is
the open part. -/
def feed (sep : α) (stopped : σ → Bool) (take : σ → List α → σ) (p : List α × σ) (piece : List α) :
    List α × σ :=
  if stopped p.2 then p
  else ((frames sep (p.1 ++ piece)).2, (frames sep (p.1 ++ piece)).1.foldl take p.2)

theorem foldl_feed_stopped {p : List α × σ} (h : stopped p.2 = true) (pieces : List (List α)) :
    pieces.foldl (feed sep stopped take) p = p := by
  induction pieces with
  | nil => rfl
  | cons piece pieces ih =>
    rw [List.foldl_cons, feed, if_pos h, ih]

/-- The pieces do to the reader what their concatenation does. -/
theorem foldl_feed (hstop : ∀ s frame, stopped s = true → take s frame = s) (pieces : List (List α))
    {pending : List α} (hpending : frames sep pending = ([], pending)) (s : σ) :
    let r := pieces.foldl (feed sep stopped take) (pending, s)
    let whole := frames sep (pending ++ pieces.flatten)
    r.2 = whole.1.foldl take s ∧ (stopped r.2 = false → r.1 = whole.2) := by
  induction pieces generalizing pending s with
  | nil =>
    rw [List.flatten_nil, List.append_nil, hpending]
    exact ⟨rfl, fun _ => rfl⟩
  | cons piece pieces ih =>
    rw [List.foldl_cons, feed]
    split_ifs with hs
    · dsimp only
      rw [foldl_feed_stopped hs, foldl_take_stopped hstop hs]
      refine ⟨rfl, fun h => ?_⟩
      rw [hs] at h
      cases h
    · obtain ⟨hread, hrest⟩ := ih (frames_tail (pending ++ piece))
        ((frames sep (pending ++ piece)).1.foldl take s)
      dsimp only at hread hrest ⊢
      rw [List.flatten_cons, ← List.append_assoc, frames_append (pending ++ piece), List.foldl_append]
      exact ⟨hread, hrest⟩

end Frames

end Collections
