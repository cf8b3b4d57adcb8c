import FluxMeter.Keys.TenantKeys
import Mathlib.Data.List.Infix
import Mathlib.Data.List.TakeWhile
import Mathlib.Tactic.SplitIfs

/-! Which rendered keys can be equal: the tenant in front, the first letter and the last two. -/
namespace FluxMeter.Keys

/-- Neither text goes on from the other with a colon. -/
def Unextended (A B : String) : Prop :=
  ¬ (A ++ ":").toList <+: B.toList ∧ ¬ (B ++ ":").toList <+: A.toList

instance (A B : String) : Decidable (Unextended A B) := inferInstanceAs (Decidable (_ ∧ _))

/-- Tenants that extend neither way give different keys. -/
theorem tenant_eq_of_key {A B rest rest' : String} (h : Unextended A B)
    (hkey : "tenant:" ++ A ++ ":" ++ rest = "tenant:" ++ B ++ ":" ++ rest') : A = B := by
  have hlist : A.toList ++ ':' :: rest.toList = B.toList ++ ':' :: rest'.toList := by
    have hchars := congrArg String.toList hkey
    simp only [String.toList_append, List.append_assoc] at hchars
    have hrest := List.append_cancel_left hchars
    simpa using hrest
  have hA : ¬ (A.toList ++ [':']) <+: B.toList := by simpa [String.toList_append] using h.1
  have hB : ¬ (B.toList ++ [':']) <+: A.toList := by simpa [String.toList_append] using h.2
  rcases List.append_eq_append_iff.mp hlist with ⟨more, hmore, hrest⟩ | ⟨more, hmore, hrest⟩
  · cases more with
    | nil => exact String.ext (by rw [hmore, List.append_nil])
    | cons c more =>
      rw [List.cons_append, List.cons.injEq] at hrest
      exact absurd ⟨more, by rw [hmore, ← hrest.1]; simp⟩ hA
  · cases more with
    | nil => exact String.ext (by rw [hmore, List.append_nil])
    | cons c more =>
      rw [List.cons_append, List.cons.injEq] at hrest
      exact absurd ⟨more, by rw [hmore, ← hrest.1]; simp⟩ hB

/-- The first letter of a key, which tells most families apart. -/
def headOf (key : String) : Option Char := key.toList.head?

@[simp] theorem headOf_append (a b : String) : headOf (a ++ b) = (headOf a).or (headOf b) := by
  unfold headOf
  rw [String.toList_append, List.head?_append]

/-- The last two letters of a key. -/
def endOf (key : String) : List Char := key.toList.reverse.take 2

theorem endOf_append (a : String) {b : String} (hb : 2 ≤ b.toList.length) :
    endOf (a ++ b) = endOf b := by
  unfold endOf
  rw [String.toList_append, List.reverse_append,
    List.take_append_of_le_length (by rw [List.length_reverse]; exact hb)]

/-- A key under the prefix of the tenant. -/
def TenantKey (A key : String) : Prop := ∃ rest, key = "tenant:" ++ A ++ ":" ++ rest

theorem TenantKey.append {A key : String} (h : TenantKey A key) (tail : String) :
    TenantKey A (key ++ tail) := by
  obtain ⟨rest, rfl⟩ := h
  exact ⟨rest ++ tail, by rw [String.append_assoc]⟩

theorem TenantKey.headOf {A key : String} (h : TenantKey A key) : headOf key = some 't' := by
  obtain ⟨rest, rfl⟩ := h
  simp only [headOf_append]
  rfl

theorem tenantKey_inTenant {A : String} (hA : hasTenant (some A) = true) (rest : String) :
    TenantKey A (inTenant (some A) rest) := by
  unfold inTenant
  dsimp only
  rw [if_pos hA]
  exact ⟨rest, rfl⟩

theorem packageKey_shape (t : Option String) (c : String) :
    (∃ p, packageKey t c = p ++ ":tokens_remaining") ∧
      headOf (packageKey t c) ∈ [some 't', some 'p'] := by
  have ht : headOf "tenant:" = some 't' := rfl
  have hp : headOf "package:" = some 'p' := rfl
  have hplain : headOf ("package:" ++ c ++ ":tokens_remaining") ∈ [some 't', some 'p'] := by
    simp [hp]
  unfold packageKey inTenant
  cases t with
  | none => exact ⟨⟨_, rfl⟩, hplain⟩
  | some t =>
    dsimp only
    split_ifs
    · refine ⟨⟨"tenant:" ++ t ++ ":" ++ ("package:" ++ c), ?_⟩, by simp [ht]⟩
      simp only [String.append_assoc]
    · exact ⟨⟨_, rfl⟩, hplain⟩

theorem isSpacePy_of_isWhitespaceJava {c : Char} (h : isWhitespaceJava c = true) :
    isSpacePy c = true := by
  unfold isWhitespaceJava at h
  unfold isSpacePy
  grind

theorem strip_eq_empty {t : String} : strip t = "" ↔ ∀ c ∈ t.toList, isSpacePy c = true := by
  have hnil : strip t = "" ↔ ∀ c ∈ t.toList.dropWhile isSpacePy, isSpacePy c = true := by
    unfold strip
    rw [← String.toList_inj, String.toList_ofList, String.toList_empty, List.reverse_eq_nil_iff,
      List.dropWhile_eq_nil_iff]
    simp only [List.mem_reverse]
  rw [hnil]
  refine ⟨fun h => ?_, fun h c hc => h c ((List.dropWhile_sublist isSpacePy).subset hc)⟩
  rw [← List.dropWhile_eq_nil_iff]
  by_contra hne
  have hhead := List.head?_dropWhile_not isSpacePy t.toList
  rw [List.head?_eq_some_head hne] at hhead
  exact absurd (h _ (List.head_mem hne)) (by simpa using hhead)

private theorem strip_strip_ne_empty {t : String} (h : strip t ≠ "") : strip (strip t) ≠ "" := by
  intro hempty
  rw [strip_eq_empty] at hempty
  have hlist : (strip t).toList =
      ((t.toList.dropWhile isSpacePy).reverse.dropWhile isSpacePy).reverse := String.toList_ofList
  have hne : (t.toList.dropWhile isSpacePy).reverse.dropWhile isSpacePy ≠ [] := by
    intro hnil
    apply h
    rw [← String.toList_inj, hlist, hnil]
    rfl
  have hhead := List.head?_dropWhile_not isSpacePy (t.toList.dropWhile isSpacePy).reverse
  rw [List.head?_eq_some_head hne] at hhead
  have hmem := List.mem_reverse.mpr (List.head_mem hne)
  rw [← hlist] at hmem
  exact absurd (hempty _ hmem) (by simpa using hhead)

/-- The two languages spell the package of a stripped tenant alike. -/
theorem packageKey_stripTenant (t : Option String) (c : String) :
    packageKey (stripTenant t) c = Py.packageKey (stripTenant t) c := by
  unfold packageKey Py.packageKey inTenant Py.inTenant stripTenant
  cases t with
  | none => rfl
  | some t =>
    dsimp only
    by_cases hblank : strip t = ""
    · rw [if_pos hblank]
    · have hpy := strip_strip_ne_empty hblank
      have hjava : isBlank (strip t) ≠ true := by
        intro hall
        apply hpy
        rw [strip_eq_empty]
        intro c hc
        exact isSpacePy_of_isWhitespaceJava (List.all_eq_true.mp hall c hc)
      rw [if_neg hblank]
      simp [Py.hasTenant, hasTenant, hpy, hjava]

end FluxMeter.Keys
