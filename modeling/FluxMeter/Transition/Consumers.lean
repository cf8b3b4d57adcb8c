import Mathlib.Logic.Function.Basic
import Mathlib.Order.Basic

/-! A consumer of one partition of a log, whose group resumes at the committed offset. A committed
offset covers every message below it. -/
namespace Transition

/-- What the group has committed, and the offset that the running consumer reads next. -/
structure Consumer where
  committed : ℕ := 0
  position : ℕ := 0
  deriving DecidableEq

namespace Consumer

/-- A consumer starts, and resumes at the committed offset. -/
def resume (c : Consumer) : Consumer := { c with position := c.committed }

/-- A consumer of a group that has committed nothing starts at an offset of its own. -/
def seek (c : Consumer) (offset : ℕ) : Consumer := { c with position := offset }

/-- The next message is handed out. -/
def advance (c : Consumer) : Consumer := { c with position := c.position + 1 }

def commit (c : Consumer) (offset : ℕ) : Consumer := { c with committed := offset }

@[simp] theorem resume_committed (c : Consumer) : c.resume.committed = c.committed := rfl
@[simp] theorem resume_position (c : Consumer) : c.resume.position = c.committed := rfl
@[simp] theorem seek_committed (c : Consumer) (n : ℕ) : (c.seek n).committed = c.committed := rfl
@[simp] theorem seek_position (c : Consumer) (n : ℕ) : (c.seek n).position = n := rfl
@[simp] theorem advance_committed (c : Consumer) : c.advance.committed = c.committed := rfl
@[simp] theorem advance_position (c : Consumer) : c.advance.position = c.position + 1 := rfl
@[simp] theorem commit_committed (c : Consumer) (n : ℕ) : (c.commit n).committed = n := rfl
@[simp] theorem commit_position (c : Consumer) (n : ℕ) : (c.commit n).position = c.position := rfl

end Consumer

/-- Every offset below `n` is settled. -/
def SettledBelow (settled : ℕ → Prop) (n : ℕ) : Prop := ∀ k < n, settled k

namespace SettledBelow
variable {settled settled' : ℕ → Prop} {m n : ℕ}

theorem zero (settled : ℕ → Prop) : SettledBelow settled 0 := fun _ hk => absurd hk (Nat.not_lt_zero _)

theorem mono (h : SettledBelow settled n) (hgrow : ∀ k, settled k → settled' k) :
    SettledBelow settled' n := fun k hk => hgrow k (h k hk)

theorem succ (h : SettledBelow settled n) (hn : settled n) : SettledBelow settled (n + 1) := by
  intro k hk
  rcases Nat.lt_succ_iff_lt_or_eq.mp hk with hlt | rfl
  · exact h k hlt
  · exact hn

end SettledBelow

end Transition
