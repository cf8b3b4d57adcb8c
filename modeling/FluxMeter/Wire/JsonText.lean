import FluxMeter.Collections.Table
import FluxMeter.Keys.Separator
import FluxMeter.Wire.Json
import Mathlib.Data.List.Sort
import Mathlib.Order.Lattice

/-! The text that `json.dumps` writes with sorted keys, compact separators and ASCII escapes. Values
with the same text are equal, up to the order of keys, also where another text follows. -/
namespace FluxMeter.Wire

/-! ### Strings -/

def hexDigit (n : ℕ) : Char := if n < 10 then Char.ofNat (48 + n) else Char.ofNat (87 + n)

def hexDigitValue (c : Char) : ℕ := if c.isDigit then c.toNat - 48 else c.toNat - 87

/-- One UTF-16 code unit as `\uXXXX`. -/
def unicodeEscape (n : ℕ) : List Char :=
  ['\\', 'u', hexDigit (n / 4096), hexDigit (n / 256 % 16), hexDigit (n / 16 % 16), hexDigit (n % 16)]

/-- The ASCII text of one character in a JSON string; beyond the first plane it is a pair of
surrogates. -/
def escapeChar (c : Char) : List Char :=
  if c = '"' then ['\\', '"']
  else if c = '\\' then ['\\', '\\']
  else if c = '\n' then ['\\', 'n']
  else if c = '\r' then ['\\', 'r']
  else if c = '\t' then ['\\', 't']
  else if c = '\x0c' then ['\\', 'f']
  else if c = '\x08' then ['\\', 'b']
  else if 32 ≤ c.toNat ∧ c.toNat ≤ 126 then [c]
  else if c.toNat < 65536 then unicodeEscape c.toNat
  else
    unicodeEscape (55296 + (c.toNat - 65536) / 1024) ++
      unicodeEscape (56320 + (c.toNat - 65536) % 1024)

def quote (s : String) : List Char := '"' :: (s.toList.flatMap escapeChar ++ ['"'])

/-- The character of a two-letter escape. -/
def shortEscape : Char → Option Char
  | '"' => some '"'
  | '\\' => some '\\'
  | 'n' => some '\n'
  | 'r' => some '\r'
  | 't' => some '\t'
  | 'f' => some '\x0c'
  | 'b' => some '\x08'
  | _ => none

def codeUnit (a b c d : Char) : ℕ :=
  4096 * hexDigitValue a + 256 * hexDigitValue b + 16 * hexDigitValue c + hexDigitValue d

/-- One character off the text of a JSON string; `none` is the end of the string. -/
def unescapeChar : List Char → Option (Char × List Char)
  | '\\' :: 'u' :: a :: b :: c :: d :: rest =>
    let high := codeUnit a b c d
    if 55296 ≤ high ∧ high < 56320 then
      match rest with
      | '\\' :: 'u' :: e :: f :: g :: h :: rest' =>
        some (Char.ofNat (65536 + 1024 * (high - 55296) + (codeUnit e f g h - 56320)), rest')
      | _ => none
    else some (Char.ofNat high, rest)
  | '\\' :: c :: rest => (shortEscape c).map fun x => (x, rest)
  | '"' :: _ => none
  | c :: rest => some (c, rest)
  | [] => none

theorem hexDigitValue_hexDigit {n : ℕ} (h : n < 16) : hexDigitValue (hexDigit n) = n := by
  have hall : ∀ n : Fin 16, hexDigitValue (hexDigit n) = n := by decide
  exact hall ⟨n, h⟩

theorem codeUnit_hexDigits {n : ℕ} (h : n < 65536) :
    codeUnit (hexDigit (n / 4096)) (hexDigit (n / 256 % 16)) (hexDigit (n / 16 % 16))
      (hexDigit (n % 16)) = n := by
  unfold codeUnit
  rw [hexDigitValue_hexDigit (by omega), hexDigitValue_hexDigit (by omega),
    hexDigitValue_hexDigit (by omega), hexDigitValue_hexDigit (by omega)]
  omega

private theorem unescapeChar_unicode {n : ℕ} (h : n < 65536) (hplain : ¬ (55296 ≤ n ∧ n < 56320))
    (rest : List Char) :
    unescapeChar (unicodeEscape n ++ rest) = some (Char.ofNat n, rest) := by
  unfold unicodeEscape
  simp only [List.cons_append, List.nil_append, unescapeChar, codeUnit_hexDigits h]
  rw [if_neg hplain]

private theorem unescapeChar_pair {m : ℕ} (h : m < 1048576) (rest : List Char) :
    unescapeChar (unicodeEscape (55296 + m / 1024) ++ (unicodeEscape (56320 + m % 1024) ++ rest)) =
      some (Char.ofNat (65536 + m), rest) := by
  have hhigh : 55296 + m / 1024 < 65536 := by omega
  have hlow : 56320 + m % 1024 < 65536 := by omega
  unfold unicodeEscape
  simp only [List.cons_append, List.nil_append, unescapeChar, codeUnit_hexDigits hhigh,
    codeUnit_hexDigits hlow]
  rw [if_pos (by omega), show 65536 + 1024 * (55296 + m / 1024 - 55296) +
    (56320 + m % 1024 - 56320) = 65536 + m by omega]

theorem unescapeChar_escapeChar (c : Char) (rest : List Char) :
    unescapeChar (escapeChar c ++ rest) = some (c, rest) := by
  have hvalid : c.toNat < 55296 ∨ 57343 < c.toNat ∧ c.toNat < 1114112 := c.valid
  unfold escapeChar
  split_ifs with h₁ h₂ h₃ h₄ h₅ h₆ h₇ hprintable hplane
  · rw [h₁]
    rfl
  · rw [h₂]
    rfl
  · rw [h₃]
    rfl
  · rw [h₄]
    rfl
  · rw [h₅]
    rfl
  · rw [h₆]
    rfl
  · rw [h₇]
    rfl
  · show unescapeChar (c :: rest) = _
    unfold unescapeChar
    split
    · rename_i heq
      exact absurd (List.cons.inj heq).1 h₂
    · rename_i heq
      exact absurd (List.cons.inj heq).1 h₂
    · rename_i heq
      exact absurd (List.cons.inj heq).1 h₁
    · rename_i heq
      obtain ⟨rfl, rfl⟩ := List.cons.inj heq
      rfl
    · rename_i heq
      cases heq
  · rw [unescapeChar_unicode hplane (by omega), Char.ofNat_toNat]
  · rw [List.append_assoc, unescapeChar_pair (by omega),
      show 65536 + (c.toNat - 65536) = c.toNat by omega, Char.ofNat_toNat]

theorem quote_inj {s s' : String} {r r' : List Char} (h : quote s ++ r = quote s' ++ r') :
    s = s' ∧ r = r' := by
  have hend : ∀ r, unescapeChar ('"' :: r) = none := fun _ => rfl
  have hlist : ∀ l l' : List Char,
      l.flatMap escapeChar ++ '"' :: r = l'.flatMap escapeChar ++ '"' :: r' → l = l' ∧ r = r' := by
    intro l
    induction l with
    | nil =>
      intro l' h
      cases l' with
      | nil => exact ⟨rfl, (List.cons.inj h).2⟩
      | cons c l' =>
        have hread := congrArg unescapeChar h
        rw [List.flatMap_cons, List.append_assoc, unescapeChar_escapeChar] at hread
        exact absurd ((hend r).symm.trans hread) (by simp)
    | cons c l ih =>
      intro l' h
      cases l' with
      | nil =>
        have hread := congrArg unescapeChar h
        rw [List.flatMap_cons, List.append_assoc, unescapeChar_escapeChar] at hread
        exact absurd (hread.trans (hend r')) (by simp)
      | cons c' l' =>
        have hread := congrArg unescapeChar h
        rw [List.flatMap_cons, List.flatMap_cons, List.append_assoc, List.append_assoc,
          unescapeChar_escapeChar, unescapeChar_escapeChar] at hread
        obtain ⟨rfl, hrest⟩ := Prod.mk.inj (Option.some.inj hread)
        obtain ⟨rfl, hr⟩ := ih l' hrest
        exact ⟨rfl, hr⟩
  unfold quote at h
  simp only [List.cons_append, List.append_assoc, List.nil_append, List.cons.injEq, true_and] at h
  obtain ⟨hs, hr⟩ := hlist _ _ h
  exact ⟨String.toList_injective hs, hr⟩

/-! ### Values -/

/-- Texts with a comma between them. -/
def joined : List (List Char) → List Char
  | [] => []
  | t :: ts => t ++ ts.flatMap fun t => ',' :: t

def memberText (p : String × List Char) : List Char := quote p.1 ++ ':' :: p.2

def byKey {α : Type} (members : List (String × α)) : List (String × α) :=
  members.insertionSort fun p q => p.1 ≤ q.1

mutual

/-- `json.dumps` with `sort_keys=True, separators=(",", ":")`; `floatText` is `repr` of a float. -/
def dumps (floatText : ℚ → List Char) : Json → List Char
  | .null => ['n', 'u', 'l', 'l']
  | .bool true => ['t', 'r', 'u', 'e']
  | .bool false => ['f', 'a', 'l', 's', 'e']
  | .num n => (toString n).toList
  | .float q => floatText q
  | .str s => quote s
  | .arr items => '[' :: (joined (dumpsItems floatText items) ++ [']'])
  | .obj fields => '{' :: (joined ((byKey (dumpsFields floatText fields)).map memberText) ++ ['}'])

def dumpsItems (floatText : ℚ → List Char) : List Json → List (List Char)
  | [] => []
  | v :: items => dumps floatText v :: dumpsItems floatText items

def dumpsFields (floatText : ℚ → List Char) : List (String × Json) → List (String × List Char)
  | [] => []
  | (k, v) :: fields => (k, dumps floatText v) :: dumpsFields floatText fields

end

mutual

/-- Equal as JSON values: objects have the same keys, in any order, with equal values. -/
def Json.Same : Json → Json → Prop
  | .null, .null => True
  | .bool b, .bool b' => b = b'
  | .num n, .num n' => n = n'
  | .float q, .float q' => q = q'
  | .str s, .str s' => s = s'
  | .arr items, .arr items' => Json.SameItems items items'
  | .obj fields, .obj fields' => fields.length = fields'.length ∧ Json.SameFields fields fields'
  | _, _ => False

def Json.SameItems : List Json → List Json → Prop
  | [], [] => True
  | v :: items, v' :: items' => Json.Same v v' ∧ Json.SameItems items items'
  | _, _ => False

/-- Each field is in the other dict with an equal value. -/
def Json.SameFields : List (String × Json) → Dict → Prop
  | [], _ => True
  | (k, v) :: fields, d => (∃ w, d.get k = some w ∧ Json.Same v w) ∧ Json.SameFields fields d

end

mutual

/-- A value without floats in which no object repeats a key. -/
def Json.Plain : Json → Prop
  | .float _ => False
  | .arr items => Json.PlainItems items
  | .obj fields => (fields.map Prod.fst).Nodup ∧ Json.PlainFields fields
  | _ => True

def Json.PlainItems : List Json → Prop
  | [] => True
  | v :: items => Json.Plain v ∧ Json.PlainItems items

def Json.PlainFields : List (String × Json) → Prop
  | [] => True
  | (_, v) :: fields => Json.Plain v ∧ Json.PlainFields fields

end

theorem mem_dumpsFields {float : ℚ → List Char} {fields : List (String × Json)} {k : String}
    {t : List Char} :
    (k, t) ∈ dumpsFields float fields ↔ ∃ v, (k, v) ∈ fields ∧ t = dumps float v := by
  induction fields with
  | nil => simp [dumpsFields]
  | cons p fields ih =>
    obtain ⟨j, w⟩ := p
    unfold dumpsFields
    rw [List.mem_cons, ih]
    constructor
    · rintro (h | ⟨v, hv, rfl⟩)
      · obtain ⟨rfl, rfl⟩ := Prod.mk.inj h
        exact ⟨w, List.mem_cons_self, rfl⟩
      · exact ⟨v, List.mem_cons_of_mem _ hv, rfl⟩
    · rintro ⟨v, hv, rfl⟩
      rcases List.mem_cons.mp hv with h | h
      · obtain ⟨rfl, rfl⟩ := Prod.mk.inj h
        exact Or.inl rfl
      · exact Or.inr ⟨v, h, rfl⟩

theorem keys_dumpsFields (float : ℚ → List Char) (fields : List (String × Json)) :
    (dumpsFields float fields).map Prod.fst = fields.map Prod.fst := by
  induction fields with
  | nil => rfl
  | cons p fields ih =>
    obtain ⟨k, v⟩ := p
    unfold dumpsFields
    rw [List.map_cons, List.map_cons, ih]

theorem length_dumpsFields (float : ℚ → List Char) (fields : List (String × Json)) :
    (dumpsFields float fields).length = fields.length := by
  have hkeys := congrArg List.length (keys_dumpsFields float fields)
  rwa [List.length_map, List.length_map] at hkeys

/-! ### First letters -/

/-- The sort of value that a text begins. -/
def kindOf (c : Char) : ℕ :=
  if c = 'n' then 0 else if c = 't' then 1 else if c = 'f' then 2 else if c = '"' then 3
  else if c = '[' then 4 else if c = '{' then 5 else 6

def Json.kind : Json → ℕ
  | .null => 0
  | .bool true => 1
  | .bool false => 2
  | .str _ => 3
  | .arr _ => 4
  | .obj _ => 5
  | .num _ | .float _ => 6

def numberChar (c : Char) : Bool := c.isDigit || c == '-'

/-- No number goes on in the text. -/
def Ends (r : List Char) : Prop := ∀ c ∈ r.head?, numberChar c = false

theorem numberChar_of_mem {n : ℤ} {c : Char} (h : c ∈ (toString n).toList) : numberChar c = true := by
  unfold numberChar
  rw [Keys.toString_int] at h
  split_ifs at h
  · rw [Keys.isDigit_of_mem_repr h, Bool.true_or]
  · rw [String.toList_append, List.mem_append] at h
    rcases h with hsign | hrest
    · rw [show c = '-' by simpa using hsign]
      rfl
    · rw [Keys.isDigit_of_mem_repr hrest, Bool.true_or]

/-- No value begins with a letter that ends one. -/
structure Begins (c : Char) : Prop where
  comma : c ≠ ','
  bracket : c ≠ ']'
  brace : c ≠ '\x7d'

private theorem kindOf_numberChar {c : Char} (h : numberChar c = true) :
    kindOf c = 6 ∧ Begins c := by
  have hne : ∀ d : Char, numberChar d = false → c ≠ d := by
    rintro d hd rfl
    rw [h] at hd
    cases hd
  refine ⟨?_, hne _ rfl, hne _ rfl, hne _ rfl⟩
  unfold kindOf
  rw [if_neg (hne _ rfl), if_neg (hne _ rfl), if_neg (hne _ rfl), if_neg (hne _ rfl),
    if_neg (hne _ rfl), if_neg (hne _ rfl)]

private theorem toString_ne_nil (n : ℤ) : (toString n).toList ≠ [] := by
  have hdigits : ∀ m : ℕ, m.repr.toList ≠ [] := by
    intro m
    rw [Nat.toList_repr]
    exact Nat.toDigits_ne_nil
  rw [Keys.toString_int]
  split_ifs
  · exact hdigits _
  · rw [String.toList_append]
    simp

/-- The first letter of a text tells the sort of the value. -/
theorem dumps_head (float : ℚ → List Char) {v : Json} (hv : v.Plain) :
    ∃ c t, dumps float v = c :: t ∧ kindOf c = v.kind ∧ Begins c := by
  cases v with
  | null => exact ⟨_, _, by unfold dumps; rfl, rfl, by decide, by decide, by decide⟩
  | bool b =>
    cases b with
    | true => exact ⟨_, _, by unfold dumps; rfl, rfl, by decide, by decide, by decide⟩
    | false => exact ⟨_, _, by unfold dumps; rfl, rfl, by decide, by decide, by decide⟩
  | num n =>
    unfold dumps
    cases htext : (toString n).toList with
    | nil => exact absurd htext (toString_ne_nil n)
    | cons c t =>
      have hc : numberChar c = true := numberChar_of_mem (n := n) (by rw [htext]; simp)
      exact ⟨c, t, rfl, kindOf_numberChar hc⟩
  | float q =>
    unfold Json.Plain at hv
    exact hv.elim
  | str s => exact ⟨_, _, by unfold dumps quote; rfl, rfl, by decide, by decide, by decide⟩
  | arr items => exact ⟨_, _, by unfold dumps; rfl, rfl, by decide, by decide, by decide⟩
  | obj fields => exact ⟨_, _, by unfold dumps; rfl, rfl, by decide, by decide, by decide⟩

theorem kind_eq_of_dumps {float : ℚ → List Char} {v v' : Json} (hv : v.Plain) (hv' : v'.Plain)
    {r r' : List Char} (h : dumps float v ++ r = dumps float v' ++ r') : v.kind = v'.kind := by
  obtain ⟨c, t, hc, hkind, -⟩ := dumps_head float hv
  obtain ⟨c', t', hc', hkind', -⟩ := dumps_head float hv'
  rw [hc, hc', List.cons_append, List.cons_append] at h
  rw [← hkind, ← hkind', (List.cons.inj h).1]

/-! ### Where a text ends -/

private theorem ends_comma (r : List Char) : Ends (',' :: r) := by
  rintro c ⟨⟩
  rfl

section Joined
variable {close : Char} {ts ts' : List (List Char)} {r r' : List Char}

/-- Texts that tell where they end, among those of another list. -/
def SelfDelimiting (ts ts' : List (List Char)) : Prop :=
  ∀ t ∈ ts, ∀ t' ∈ ts', ∀ r r', Ends r → Ends r' → t ++ r = t' ++ r' → t = t' ∧ r = r'

theorem ends_tail (hclose : numberChar close = false) (ts : List (List Char)) (r : List Char) :
    Ends (ts.flatMap (fun t => ',' :: t) ++ close :: r) := by
  cases ts with
  | nil =>
    rintro c ⟨⟩
    exact hclose
  | cons t ts => exact ends_comma _

private theorem tail_inj (hcomma : close ≠ ',') (hclose : numberChar close = false)
    (hself : SelfDelimiting ts ts')
    (h : ts.flatMap (fun t => ',' :: t) ++ close :: r =
      ts'.flatMap (fun t => ',' :: t) ++ close :: r') : ts = ts' ∧ r = r' := by
  induction ts generalizing ts' with
  | nil =>
    cases ts' with
    | nil => exact ⟨rfl, (List.cons.inj h).2⟩
    | cons t' ts' => exact absurd (List.cons.inj h).1 hcomma
  | cons t ts ih =>
    cases ts' with
    | nil => exact absurd (List.cons.inj h).1 hcomma.symm
    | cons t' ts' =>
      simp only [List.flatMap_cons, List.cons_append, List.append_assoc, List.cons.injEq,
        true_and] at h
      obtain ⟨rfl, hrest⟩ := hself t List.mem_cons_self t' List.mem_cons_self _ _
        (ends_tail hclose ts r) (ends_tail hclose ts' r') h
      have hself' : SelfDelimiting ts ts' := fun u hu u' hu' =>
        hself u (List.mem_cons_of_mem _ hu) u' (List.mem_cons_of_mem _ hu')
      obtain ⟨rfl, hr⟩ := ih hself' hrest
      exact ⟨rfl, hr⟩

/-- A bracketed list of texts tells its members and where it ends. -/
theorem joined_inj (hcomma : close ≠ ',') (hclose : numberChar close = false)
    (hself : SelfDelimiting ts ts')
    (hopen : ∀ t ∈ ts ++ ts', ∃ c u, t = c :: u ∧ c ≠ close)
    (h : joined ts ++ close :: r = joined ts' ++ close :: r') : ts = ts' ∧ r = r' := by
  cases ts with
  | nil =>
    cases ts' with
    | nil => exact ⟨rfl, (List.cons.inj h).2⟩
    | cons t' ts' =>
      obtain ⟨c, u, rfl, hc⟩ := hopen t' (by simp)
      exact absurd (List.cons.inj h).1.symm hc
  | cons t ts =>
    cases ts' with
    | nil =>
      obtain ⟨c, u, rfl, hc⟩ := hopen t (by simp)
      exact absurd (List.cons.inj h).1 hc
    | cons t' ts' =>
      unfold joined at h
      rw [List.append_assoc, List.append_assoc] at h
      obtain ⟨rfl, hrest⟩ := hself t List.mem_cons_self t' List.mem_cons_self _ _
        (ends_tail hclose ts r) (ends_tail hclose ts' r') h
      have hself' : SelfDelimiting ts ts' := fun u hu u' hu' =>
        hself u (List.mem_cons_of_mem _ hu) u' (List.mem_cons_of_mem _ hu')
      obtain ⟨rfl, hr⟩ := tail_inj hcomma hclose hself' hrest
      exact ⟨rfl, hr⟩

end Joined

theorem mem_dumpsItems {float : ℚ → List Char} {items : List Json} {t : List Char} :
    t ∈ dumpsItems float items ↔ ∃ v ∈ items, t = dumps float v := by
  induction items with
  | nil => simp [dumpsItems]
  | cons v items ih =>
    unfold dumpsItems
    rw [List.mem_cons, ih]
    simp

theorem mem_byKey {α : Type} {members : List (String × α)} {p : String × α} :
    p ∈ byKey members ↔ p ∈ members := List.mem_insertionSort _

theorem plainItems_iff {items : List Json} : Json.PlainItems items ↔ ∀ v ∈ items, v.Plain := by
  induction items with
  | nil => simp [Json.PlainItems]
  | cons v items ih =>
    unfold Json.PlainItems
    rw [ih, List.forall_mem_cons]

theorem plainFields_iff {fields : List (String × Json)} :
    Json.PlainFields fields ↔ ∀ p ∈ fields, p.2.Plain := by
  induction fields with
  | nil => simp [Json.PlainFields]
  | cons p fields ih =>
    obtain ⟨k, v⟩ := p
    unfold Json.PlainFields
    rw [ih, List.forall_mem_cons]

section Delimits
variable {float : ℚ → List Char}

/-- The text of the value tells where it ends, whatever value it is taken for. -/
def Delimits (float : ℚ → List Char) (v : Json) : Prop :=
  ∀ v' : Json, v'.Plain → SelfDelimiting [dumps float v] [dumps float v']

theorem delimits_iff {v : Json} : Delimits float v ↔ ∀ v' : Json, v'.Plain → ∀ r r', Ends r →
    Ends r' → dumps float v ++ r = dumps float v' ++ r' → dumps float v = dumps float v' ∧ r = r' := by
  unfold Delimits SelfDelimiting
  simp only [List.forall_mem_singleton]

theorem delimits_of_kind {v : Json} (hv : v.Plain)
    (h : ∀ v' : Json, v'.kind = v.kind → dumps float v' = dumps float v) : Delimits float v := by
  rw [delimits_iff]
  intro v' hv' r r' _ _ heq
  have htext := h v' (kind_eq_of_dumps hv hv' heq).symm
  rw [htext] at heq ⊢
  exact ⟨rfl, List.append_cancel_left heq⟩

theorem delimits_num (n : ℤ) : Delimits float (.num n) := by
  rw [delimits_iff]
  intro v' hv' r r' hr hr' heq
  have hkind := kind_eq_of_dumps (v := .num n) trivial hv' heq
  cases v' with
  | num n' =>
    have htake : ∀ (n : ℤ) r, Ends r →
        ((toString n).toList ++ r).takeWhile numberChar = (toString n).toList := by
      intro n r hr
      rw [List.takeWhile_append_of_pos fun c hc => numberChar_of_mem hc]
      cases r with
      | nil => simp
      | cons c r => simp [hr c rfl]
    unfold dumps at heq ⊢
    have hdigits := congrArg (List.takeWhile numberChar) heq
    rw [htake n r hr, htake n' r' hr'] at hdigits
    rw [hdigits] at heq
    exact ⟨hdigits, List.append_cancel_left heq⟩
  | float q =>
    unfold Json.Plain at hv'
    exact hv'.elim
  | bool b => cases b <;> cases hkind
  | _ => cases hkind

theorem delimits_str (s : String) : Delimits float (.str s) := by
  rw [delimits_iff]
  intro v' hv' r r' _ _ heq
  have hkind := kind_eq_of_dumps (v := .str s) trivial hv' heq
  cases v' with
  | str s' =>
    unfold dumps at heq ⊢
    obtain ⟨rfl, hr⟩ := quote_inj heq
    exact ⟨rfl, hr⟩
  | bool b => cases b <;> cases hkind
  | _ => cases hkind

private theorem selfDelimiting_items {items items' : List Json} (h : ∀ v ∈ items, Delimits float v)
    (hplain : ∀ v ∈ items', v.Plain) :
    SelfDelimiting (dumpsItems float items) (dumpsItems float items') := by
  intro t ht t' ht' r r' hr hr' heq
  obtain ⟨v, hv, rfl⟩ := mem_dumpsItems.mp ht
  obtain ⟨v', hv', rfl⟩ := mem_dumpsItems.mp ht'
  exact delimits_iff.mp (h v hv) v' (hplain v' hv') r r' hr hr' heq

theorem items_inj {items items' : List Json} (h : ∀ v ∈ items, Delimits float v)
    (hplain : ∀ v ∈ items, v.Plain) (hplain' : ∀ v ∈ items', v.Plain) {r r' : List Char}
    (heq : dumps float (.arr items) ++ r = dumps float (.arr items') ++ r') :
    dumpsItems float items = dumpsItems float items' ∧ r = r' := by
  unfold dumps at heq
  simp only [List.cons_append, List.append_assoc, List.nil_append, List.cons.injEq, true_and] at heq
  refine joined_inj (by decide) (by decide) (selfDelimiting_items h hplain') ?_ heq
  intro t ht
  obtain ⟨v, hv, rfl⟩ : ∃ v : Json, v.Plain ∧ t = dumps float v := by
    rcases List.mem_append.mp ht with ht | ht
    · obtain ⟨v, hv, rfl⟩ := mem_dumpsItems.mp ht
      exact ⟨v, hplain v hv, rfl⟩
    · obtain ⟨v, hv, rfl⟩ := mem_dumpsItems.mp ht
      exact ⟨v, hplain' v hv, rfl⟩
  obtain ⟨c, u, hc, -, hbegins⟩ := dumps_head float hv
  exact ⟨c, u, hc, hbegins.bracket⟩

theorem delimits_arr {items : List Json} (h : ∀ v ∈ items, Delimits float v)
    (hplain : Json.Plain (.arr items)) : Delimits float (.arr items) := by
  rw [delimits_iff]
  intro v' hv' r r' _ _ heq
  have hkind := kind_eq_of_dumps hplain hv' heq
  unfold Json.Plain at hplain
  cases v' with
  | arr items' =>
    unfold Json.Plain at hv'
    obtain ⟨htexts, hr⟩ := items_inj h (plainItems_iff.mp hplain) (plainItems_iff.mp hv') heq
    refine ⟨?_, hr⟩
    unfold dumps
    rw [htexts]
  | bool b => cases b <;> cases hkind
  | _ => cases hkind

/-- The texts of the members of an object, in the order of their keys. -/
def memberTexts (float : ℚ → List Char) (fields : List (String × Json)) : List (List Char) :=
  (byKey (dumpsFields float fields)).map memberText

theorem mem_memberTexts {fields : List (String × Json)} {t : List Char} :
    t ∈ memberTexts float fields ↔ ∃ p ∈ fields, t = memberText (p.1, dumps float p.2) := by
  unfold memberTexts
  rw [List.mem_map]
  constructor
  · rintro ⟨⟨k, u⟩, hmem, rfl⟩
    obtain ⟨v, hv, rfl⟩ := mem_dumpsFields.mp (mem_byKey.mp hmem)
    exact ⟨(k, v), hv, rfl⟩
  · rintro ⟨⟨k, v⟩, hv, rfl⟩
    exact ⟨(k, dumps float v), mem_byKey.mpr (mem_dumpsFields.mpr ⟨v, hv, rfl⟩), rfl⟩

private theorem memberText_inj {p p' : String × List Char} (h : memberText p = memberText p') :
    p = p' := by
  obtain ⟨hk, ht⟩ := quote_inj h
  exact Prod.ext hk (List.cons.inj ht).2

theorem members_inj {fields fields' : List (String × Json)}
    (h : ∀ p ∈ fields, Delimits float p.2) (hplain' : ∀ p ∈ fields', p.2.Plain) {r r' : List Char}
    (heq : dumps float (.obj fields) ++ r = dumps float (.obj fields') ++ r') :
    byKey (dumpsFields float fields) = byKey (dumpsFields float fields') ∧ r = r' := by
  unfold dumps at heq
  simp only [List.cons_append, List.append_assoc, List.nil_append, List.cons.injEq, true_and] at heq
  have hself : SelfDelimiting (memberTexts float fields) (memberTexts float fields') := by
    intro t ht t' ht' r r' hr hr' heq
    obtain ⟨p, hp, rfl⟩ := mem_memberTexts.mp ht
    obtain ⟨p', hp', rfl⟩ := mem_memberTexts.mp ht'
    unfold memberText at heq ⊢
    rw [List.append_assoc, List.append_assoc] at heq
    obtain ⟨hk, hrest⟩ := quote_inj heq
    simp only [List.cons_append, List.cons.injEq, true_and] at hrest
    obtain ⟨ht, hr⟩ := delimits_iff.mp (h p hp) p'.2 (hplain' p' hp') r r' hr hr' hrest
    rw [show p.1 = p'.1 from hk, ht]
    exact ⟨rfl, hr⟩
  have hopen : ∀ t ∈ memberTexts float fields ++ memberTexts float fields',
      ∃ c u, t = c :: u ∧ c ≠ '\x7d' := by
    intro t ht
    rcases List.mem_append.mp ht with ht | ht
    · obtain ⟨p, -, rfl⟩ := mem_memberTexts.mp ht
      exact ⟨'"', _, rfl, by decide⟩
    · obtain ⟨p, -, rfl⟩ := mem_memberTexts.mp ht
      exact ⟨'"', _, rfl, by decide⟩
  obtain ⟨htexts, hr⟩ := joined_inj (by decide) (by decide) hself hopen heq
  exact ⟨List.map_injective_iff.mpr (fun _ _ => memberText_inj) htexts, hr⟩

private theorem delimits_obj {fields : List (String × Json)} (h : ∀ p ∈ fields, Delimits float p.2)
    (hplain : Json.Plain (.obj fields)) : Delimits float (.obj fields) := by
  rw [delimits_iff]
  intro v' hv' r r' _ _ heq
  have hkind := kind_eq_of_dumps hplain hv' heq
  cases v' with
  | obj fields' =>
    unfold Json.Plain at hv'
    obtain ⟨hmembers, hr⟩ := members_inj h (plainFields_iff.mp hv'.2) heq
    refine ⟨?_, hr⟩
    unfold dumps
    rw [hmembers]
  | bool b => cases b <;> cases hkind
  | _ => cases hkind

end Delimits

/-- Induction on a JSON value, by the items of a list and the values of an object. -/
theorem Json.induction {P : Json → Prop} (null : P .null) (bool : ∀ b, P (.bool b))
    (num : ∀ n, P (.num n)) (float : ∀ q, P (.float q)) (str : ∀ s, P (.str s))
    (arr : ∀ items : List Json, (∀ v ∈ items, P v) → P (.arr items))
    (obj : ∀ fields : List (String × Json), (∀ p ∈ fields, P p.2) → P (.obj fields)) (v : Json) :
    P v :=
  @Json.rec P (fun items => ∀ v ∈ items, P v) (fun fields => ∀ p ∈ fields, P p.2) (fun p => P p.2)
    null bool num float str arr obj (by simp) (fun _ _ hv hitems => List.forall_mem_cons.mpr ⟨hv, hitems⟩)
    (by simp) (fun _ _ hp hfields => List.forall_mem_cons.mpr ⟨hp, hfields⟩) (fun _ _ hv => hv) v

/-- Every value without floats tells where its text ends. -/
theorem delimits (float : ℚ → List Char) {v : Json} (hv : v.Plain) : Delimits float v := by
  induction v using Json.induction with
  | null =>
    refine delimits_of_kind hv fun v' hkind => ?_
    cases v' with
    | null => rfl
    | bool b => cases b <;> cases hkind
    | _ => cases hkind
  | bool b =>
    refine delimits_of_kind hv fun v' hkind => ?_
    cases v' with
    | bool b' =>
      cases b <;> cases b' <;> first
        | rfl
        | cases hkind
    | _ => cases b <;> cases hkind
  | num n => exact delimits_num n
  | float q =>
    unfold Json.Plain at hv
    exact hv.elim
  | str s => exact delimits_str s
  | arr items ih =>
    have hitems : ∀ v ∈ items, v.Plain := by
      unfold Json.Plain at hv
      exact plainItems_iff.mp hv
    exact delimits_arr (fun v hmem => ih v hmem (hitems v hmem)) hv
  | obj fields ih =>
    have hfields : ∀ p ∈ fields, p.2.Plain := by
      unfold Json.Plain at hv
      exact plainFields_iff.mp hv.2
    exact delimits_obj (fun p hmem => ih p hmem (hfields p hmem)) hv

/-! ### Equal values and equal texts -/

theorem sameFields_iff {fields : List (String × Json)} {d : Dict} :
    Json.SameFields fields d ↔ ∀ p ∈ fields, ∃ w, d.get p.1 = some w ∧ p.2.Same w := by
  induction fields with
  | nil => simp [Json.SameFields]
  | cons p fields ih =>
    obtain ⟨k, v⟩ := p
    unfold Json.SameFields
    rw [ih, List.forall_mem_cons]

theorem Dict.get_eq_some_iff {d : Dict} (hd : (d.map Prod.fst).Nodup) (k : String) (v : Json) :
    d.get k = some v ↔ (k, v) ∈ d := Collections.Table.lookup_eq_some_iff_mem hd k v

theorem byKey_eq_of_perm {α : Type} {members members' : List (String × α)}
    (hkeys : (members.map Prod.fst).Nodup) (hperm : members.Perm members') :
    byKey members = byKey members' := by
  have hsorted : ∀ l : List (String × α), (byKey l).Pairwise fun p q => p.1 ≤ q.1 := by
    intro l
    have htotal : Std.Total fun p q : String × α => p.1 ≤ q.1 := ⟨fun p q => le_total p.1 q.1⟩
    have htrans : IsTrans (String × α) fun p q => p.1 ≤ q.1 := ⟨fun _ _ _ => le_trans⟩
    exact List.pairwise_insertionSort _ l
  refine List.Perm.eq_of_pairwise ?_ (hsorted members) (hsorted members') ?_
  · intro p q hp hq hpq hqp
    have hmem := mem_byKey.mp hp
    have hmem' := hperm.mem_iff.mpr (mem_byKey.mp hq)
    exact List.inj_on_of_nodup_map hkeys hmem hmem' (le_antisymm hpq hqp)
  · exact (List.perm_insertionSort _ _).trans (hperm.trans (List.perm_insertionSort _ _).symm)

section Equal
variable {float : ℚ → List Char}

/-- The texts of the value tell it from every other. -/
def Told (float : ℚ → List Char) (v : Json) : Prop :=
  ∀ v' : Json, v'.Plain → (dumps float v = dumps float v' ↔ v.Same v')

theorem kind_eq_of_texts {v v' : Json} (hv : v.Plain) (hv' : v'.Plain)
    (h : dumps float v = dumps float v') : v.kind = v'.kind := by
  have happend : dumps float v ++ [] = dumps float v' ++ [] := by rw [h]
  exact kind_eq_of_dumps hv hv' happend

theorem told_num (n : ℤ) : Told float (.num n) := by
  intro v' hv'
  constructor
  · intro h
    have hkind := kind_eq_of_texts (v := .num n) trivial hv' h
    cases v' with
    | num n' =>
      unfold dumps at h
      exact Keys.toString_int_injective (String.toList_injective h)
    | float q =>
      unfold Json.Plain at hv'
      exact hv'.elim
    | bool b => cases b <;> cases hkind
    | _ => cases hkind
  · intro h
    cases v' with
    | num n' =>
      have hn : n = n' := h
      rw [hn]
    | _ => exact h.elim

theorem told_str (s : String) : Told float (.str s) := by
  intro v' hv'
  constructor
  · intro h
    have hkind := kind_eq_of_texts (v := .str s) trivial hv' h
    cases v' with
    | str s' =>
      unfold dumps at h
      have happend : quote s ++ [] = quote s' ++ [] := by rw [h]
      exact (quote_inj happend).1
    | bool b => cases b <;> cases hkind
    | _ => cases hkind
  · intro h
    cases v' with
    | str s' =>
      have hs : s = s' := h
      rw [hs]
    | _ => exact h.elim

theorem told_items {items : List Json} (ih : ∀ v ∈ items, Told float v) {items' : List Json}
    (hplain' : ∀ v ∈ items', v.Plain) :
    dumpsItems float items = dumpsItems float items' ↔ Json.SameItems items items' := by
  induction items generalizing items' with
  | nil =>
    cases items' with
    | nil => simp [dumpsItems, Json.SameItems]
    | cons v' items' => simp [dumpsItems, Json.SameItems]
  | cons v items ihitems =>
    cases items' with
    | nil => simp [dumpsItems, Json.SameItems]
    | cons v' items' =>
      have hhead := ih v List.mem_cons_self v' (hplain' v' List.mem_cons_self)
      have htail := ihitems (fun w hw => ih w (List.mem_cons_of_mem _ hw))
        (fun w hw => hplain' w (List.mem_cons_of_mem _ hw))
      unfold dumpsItems Json.SameItems
      rw [List.cons.injEq, hhead, htail]

theorem told_arr {items : List Json} (hplain : Json.Plain (.arr items))
    (ih : ∀ v ∈ items, Told float v) : Told float (.arr items) := by
  intro v' hv'
  have hitems : ∀ v ∈ items, v.Plain := by
    unfold Json.Plain at hplain
    exact plainItems_iff.mp hplain
  constructor
  · intro h
    have hkind := kind_eq_of_texts hplain hv' h
    cases v' with
    | arr items' =>
      unfold Json.Plain at hv'
      have happend : dumps float (.arr items) ++ [] = dumps float (.arr items') ++ [] := by rw [h]
      have htexts := (items_inj (fun v hv => delimits float (hitems v hv)) hitems
        (plainItems_iff.mp hv') happend).1
      exact (told_items ih (plainItems_iff.mp hv')).mp htexts
    | bool b => cases b <;> cases hkind
    | _ => cases hkind
  · intro h
    cases v' with
    | arr items' =>
      unfold Json.Plain at hv'
      unfold dumps
      rw [(told_items ih (plainItems_iff.mp hv')).mpr h]
    | _ => exact h.elim

private theorem dumpsFields_perm {fields fields' : List (String × Json)}
    (hkeys : (fields.map Prod.fst).Nodup) (hlength : fields.length = fields'.length)
    (h : ∀ p ∈ fields, ∃ w, (p.1, w) ∈ fields' ∧ dumps float p.2 = dumps float w) :
    (dumpsFields float fields).Perm (dumpsFields float fields') := by
  have hnodup : (dumpsFields float fields).Nodup := by
    apply List.Nodup.of_map Prod.fst
    rw [keys_dumpsFields]
    exact hkeys
  have hsubset : dumpsFields float fields ⊆ dumpsFields float fields' := by
    rintro ⟨k, t⟩ hmem
    obtain ⟨v, hv, rfl⟩ := mem_dumpsFields.mp hmem
    obtain ⟨w, hw, htext⟩ := h (k, v) hv
    exact mem_dumpsFields.mpr ⟨w, hw, htext⟩
  refine (List.subperm_of_subset hnodup hsubset).perm_of_length_le ?_
  rw [length_dumpsFields, length_dumpsFields, hlength]

private theorem told_obj {fields : List (String × Json)} (hplain : Json.Plain (.obj fields))
    (ih : ∀ p ∈ fields, Told float p.2) : Told float (.obj fields) := by
  intro v' hv'
  have hplain₀ := hplain
  unfold Json.Plain at hplain
  obtain ⟨hkeys, hvalues⟩ := hplain
  rw [plainFields_iff] at hvalues
  constructor
  · intro h
    have hkind := kind_eq_of_texts hplain₀ hv' h
    cases v' with
    | obj fields' =>
      unfold Json.Plain at hv'
      obtain ⟨hkeys', hvalues'⟩ := hv'
      rw [plainFields_iff] at hvalues'
      have happend : dumps float (.obj fields) ++ [] = dumps float (.obj fields') ++ [] := by rw [h]
      have hmembers := (members_inj (fun p hp => delimits float (hvalues p hp)) hvalues' happend).1
      have hperm : (dumpsFields float fields).Perm (dumpsFields float fields') :=
        (List.perm_insertionSort _ _).symm.trans
          ((List.Perm.of_eq hmembers).trans (List.perm_insertionSort _ _))
      have hlength := hperm.length_eq
      rw [length_dumpsFields, length_dumpsFields] at hlength
      unfold Json.Same
      refine ⟨hlength, sameFields_iff.mpr ?_⟩
      rintro ⟨k, v⟩ hp
      have hmem := hperm.subset (mem_dumpsFields.mpr ⟨v, hp, rfl⟩)
      obtain ⟨w, hw, htext⟩ := mem_dumpsFields.mp hmem
      exact ⟨w, (Dict.get_eq_some_iff hkeys' k w).mpr hw, (ih (k, v) hp w (hvalues' (k, w) hw)).mp htext⟩
    | bool b => cases b <;> cases hkind
    | _ => cases hkind
  · intro h
    cases v' with
    | obj fields' =>
      unfold Json.Plain at hv'
      obtain ⟨hkeys', hvalues'⟩ := hv'
      rw [plainFields_iff] at hvalues'
      unfold Json.Same at h
      obtain ⟨hlength, hfields⟩ := h
      have hperm : (dumpsFields float fields).Perm (dumpsFields float fields') := by
        refine dumpsFields_perm hkeys hlength fun p hp => ?_
        obtain ⟨w, hw, hsame⟩ := sameFields_iff.mp hfields p hp
        have hmem := (Dict.get_eq_some_iff hkeys' p.1 w).mp hw
        exact ⟨w, hmem, (ih p hp w (hvalues' (p.1, w) hmem)).mpr hsame⟩
      have hnodup : ((dumpsFields float fields).map Prod.fst).Nodup := by
        rw [keys_dumpsFields]
        exact hkeys
      unfold dumps
      rw [byKey_eq_of_perm hnodup hperm]
    | _ => exact h.elim

theorem told (float : ℚ → List Char) {v : Json} (hv : v.Plain) : Told float v := by
  induction v using Json.induction with
  | null =>
    intro v' hv'
    constructor
    · intro h
      have hkind := kind_eq_of_texts hv hv' h
      cases v' with
      | null => trivial
      | bool b => cases b <;> cases hkind
      | _ => cases hkind
    · intro h
      cases v' with
      | null => rfl
      | _ => exact h.elim
  | bool b =>
    intro v' hv'
    constructor
    · intro h
      have hkind := kind_eq_of_texts hv hv' h
      cases v' with
      | bool b' =>
        cases b <;> cases b' <;> first
          | rfl
          | cases hkind
      | _ => cases b <;> cases hkind
    · intro h
      cases v' with
      | bool b' =>
        have hb : b = b' := h
        rw [hb]
      | _ => exact h.elim
  | num n => exact told_num n
  | float q =>
    unfold Json.Plain at hv
    exact hv.elim
  | str s => exact told_str s
  | arr items ih =>
    have hitems : ∀ v ∈ items, v.Plain := by
      unfold Json.Plain at hv
      exact plainItems_iff.mp hv
    exact told_arr hv fun v hmem => ih v hmem (hitems v hmem)
  | obj fields ih =>
    have hfields : ∀ p ∈ fields, p.2.Plain := by
      unfold Json.Plain at hv
      exact plainFields_iff.mp hv.2
    exact told_obj hv fun p hmem => ih p hmem (hfields p hmem)

/-- Two values without floats have the same text exactly when they are the same. -/
theorem dumps_eq_iff (float : ℚ → List Char) {v v' : Json} (hv : v.Plain) (hv' : v'.Plain) :
    dumps float v = dumps float v' ↔ v.Same v' := told float hv v' hv'

example : dumps (fun _ => []) (.obj [("b", .num (-1)), ("a", .str "é\n")]) =
    "\x7b\"a\":\"\\u00e9\\n\",\"b\":-1\x7d".toList := by decide +kernel

end Equal

end FluxMeter.Wire
