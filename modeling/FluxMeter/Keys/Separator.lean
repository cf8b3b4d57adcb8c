import FluxMeter.Collections.Framing
import Mathlib.Data.String.Basic
import Mathlib.Tactic.SplitIfs

/-! Texts put together with the separator `|` and split at it again. -/
namespace FluxMeter.Keys
open Collections

def Plain (s : String) : Prop := '|' ∉ s.toList

instance (s : String) : Decidable (Plain s) := inferInstanceAs (Decidable ('|' ∉ s.toList))

/-- `key.split("\\|", -1)`: trailing empty parts are kept. -/
def splitParts (key : String) : List String := (key.toList.splitOn '|').map String.ofList

theorem splitParts_plain {s : String} (h : Plain s) : splitParts s = [s] := by
  unfold splitParts
  rw [List.splitOn_eq_singleton h, List.map_singleton, String.ofList_toList]

/-- Splitting takes a plain text in front of a separator off again. -/
theorem splitParts_append {s : String} (h : Plain s) (rest : String) :
    splitParts (s ++ "|" ++ rest) = s :: splitParts rest := by
  unfold splitParts
  have hlist : (s ++ "|" ++ rest).toList = s.toList ++ '|' :: rest.toList := by
    simp [String.toList_append]
  rw [hlist, List.splitOn_append_cons_self_of_not_mem h, List.map_cons, String.ofList_toList]

theorem plain_of_mem_splitParts {key part : String} (h : part ∈ splitParts key) : Plain part := by
  obtain ⟨chars, hmem, rfl⟩ := List.mem_map.mp h
  unfold Plain
  rw [String.toList_ofList]
  exact (part_of_splitOn hmem).1

theorem length_splitParts_append (s rest : String) :
    (splitParts (s ++ "|" ++ rest)).length = (splitParts s).length + (splitParts rest).length := by
  unfold splitParts
  have hlist : (s ++ "|" ++ rest).toList = s.toList ++ '|' :: rest.toList := by
    simp [String.toList_append]
  rw [hlist, List.splitOn_append_cons_self, List.map_append, List.length_append]

theorem length_splitParts_pos (s : String) : 0 < (splitParts s).length := by
  unfold splitParts
  rw [List.length_map]
  exact List.length_pos_iff.mpr (List.splitOn_ne_nil _ _)

/-! ### Numbers -/

theorem toString_int (n : ℤ) :
    toString n = if 0 ≤ n then n.toNat.repr else "-" ++ (-n).toNat.repr :=
  Int.repr_eq_if

theorem repr_injective {m n : ℕ} (h : m.repr = n.repr) : m = n := by
  have hdigits : Nat.toDigits 10 m = Nat.toDigits 10 n := by
    rw [← Nat.toList_repr, ← Nat.toList_repr, h]
  rw [← Nat.ofDigitChars_toDigits (n := m) (b := 10) (by omega) (by omega), hdigits,
    Nat.ofDigitChars_toDigits (by omega) (by omega)]

theorem isDigit_of_mem_repr {n : ℕ} {c : Char} (h : c ∈ n.repr.toList) : c.isDigit = true := by
  rw [Nat.toList_repr] at h
  exact Nat.isDigit_of_mem_toDigits (by omega) (by omega) h

theorem plain_toString (n : ℤ) : Plain (toString n) := by
  intro h
  rw [toString_int] at h
  split_ifs at h
  · have hdigit := isDigit_of_mem_repr h
    simp [Char.isDigit] at hdigit
  · rw [String.toList_append, List.mem_append] at h
    rcases h with hsign | hrest
    · simp at hsign
    · have hdigit := isDigit_of_mem_repr hrest
      simp [Char.isDigit] at hdigit

theorem toString_int_injective {m n : ℤ} (h : toString m = toString n) : m = n := by
  have hsign : ∀ a b : ℕ, a.repr ≠ "-" ++ b.repr := by
    intro a b heq
    have hmem : '-' ∈ a.repr.toList := by
      rw [heq, String.toList_append]
      simp
    have hdigit := isDigit_of_mem_repr hmem
    simp [Char.isDigit] at hdigit
  rw [toString_int, toString_int] at h
  split_ifs at h with hm hn hn
  · have hnat := repr_injective h
    omega
  · exact absurd h (hsign _ _)
  · exact absurd h.symm (hsign _ _)
  · have hrest : (-m).toNat.repr = (-n).toNat.repr := by
      have hlist := congrArg String.toList h
      rw [String.toList_append, String.toList_append] at hlist
      exact String.ext (List.append_cancel_left hlist)
    have hnat := repr_injective hrest
    omega

end FluxMeter.Keys
