import Mathlib.Data.List.DropRight

/-! Texts as Python's `str` and `int` read them. -/
namespace FluxMeter.Wire

/-- `str.isspace` of one character. -/
def isSpace (c : Char) : Bool :=
  let n := c.toNat
  (9 ≤ n && n ≤ 13) || (28 ≤ n && n ≤ 32) || n = 0x85 || n = 0xA0 || n = 0x1680 ||
    (0x2000 ≤ n && n ≤ 0x200A) || n = 0x2028 || n = 0x2029 || n = 0x202F || n = 0x205F || n = 0x3000

/-- `strip()`. -/
def strip (text : List Char) : List Char := (text.dropWhile isSpace).rdropWhile isSpace

/-- Decimal digits of ASCII, with single underscores between them. -/
def parseNat (text : List Char) : Option ℕ :=
  if (text.splitOn '_').all fun group => group ≠ [] && group.all Char.isDigit then
    some (Nat.ofDigitChars 10 (text.filter (· ≠ '_')) 0)
  else none

/-- `int(text)`; none where it raises. -/
def parseInt (text : List Char) : Option ℤ :=
  match strip text with
  | '-' :: digits => (parseNat digits).map fun n : ℕ => -(n : ℤ)
  | '+' :: digits => (parseNat digits).map Nat.cast
  | digits => (parseNat digits).map Nat.cast

example : parseInt " -5 ".toList = some (-5) ∧ parseInt "+1_0".toList = some 10 ∧
    parseInt "1__0".toList = none := by decide

theorem strip_of_not_space {text : List Char} (h : ∀ c ∈ text, isSpace c = false) :
    strip text = text := by
  have hfront : text.dropWhile isSpace = text := by
    rw [List.dropWhile_eq_self_iff]
    intro hpos
    rw [h _ (List.getElem_mem hpos)]
    decide
  unfold strip
  rw [hfront, List.rdropWhile_eq_self_iff]
  intro hne
  rw [h _ (List.getLast_mem hne)]
  decide

theorem isSpace_of_isDigit {c : Char} (h : c.isDigit = true) : isSpace c = false := by
  simp only [Char.isDigit, Bool.and_eq_true, decide_eq_true_eq] at h
  have hlow : 48 ≤ c.toNat := h.1
  have hhigh : c.toNat ≤ 57 := h.2
  simp only [isSpace, Bool.or_eq_false_iff, Bool.and_eq_false_iff, decide_eq_false_iff_not]
  omega

section Digits
variable {digits : List Char} (hne : digits ≠ []) (h : ∀ c ∈ digits, c.isDigit = true)
include hne h

theorem parseNat_digits : parseNat digits = some (Nat.ofDigitChars 10 digits 0) := by
  have hunderscore : ∀ c ∈ digits, c ≠ '_' := by
    rintro c hc rfl
    have hdigit := h _ hc
    revert hdigit
    decide
  have hgroups : digits.splitOn '_' = [digits] :=
    List.splitOnP_eq_singleton fun c hc => by simpa using hunderscore c hc
  have hfilter : digits.filter (· ≠ '_') = digits :=
    List.filter_eq_self.mpr fun c hc => by simpa using hunderscore c hc
  unfold parseNat
  rw [hgroups, hfilter, if_pos]
  simpa using ⟨hne, h⟩

theorem parseInt_digits : parseInt digits = some ((Nat.ofDigitChars 10 digits 0 : ℕ) : ℤ) := by
  have hstrip := strip_of_not_space fun c hc => isSpace_of_isDigit (h c hc)
  obtain ⟨c, rest, rfl⟩ := List.exists_cons_of_ne_nil hne
  have hc := h c List.mem_cons_self
  unfold parseInt
  rw [hstrip]
  split
  · rename_i heq
    rw [(List.cons.inj heq).1] at hc
    exact absurd hc (by decide)
  · rename_i heq
    rw [(List.cons.inj heq).1] at hc
    exact absurd hc (by decide)
  · rw [parseNat_digits hne h]
    rfl

theorem parseInt_negative :
    parseInt ('-' :: digits) = some (-((Nat.ofDigitChars 10 digits 0 : ℕ) : ℤ)) := by
  have hspace : ∀ c ∈ '-' :: digits, isSpace c = false := by
    intro c hc
    rcases List.mem_cons.mp hc with rfl | hc
    · decide
    · exact isSpace_of_isDigit (h c hc)
  unfold parseInt
  rw [strip_of_not_space hspace]
  show (parseNat digits).map _ = _
  rw [parseNat_digits hne h]
  rfl

end Digits

end FluxMeter.Wire
