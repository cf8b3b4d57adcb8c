import Mathlib.Data.List.Basic
import Mathlib.Data.List.Infix

/-! Glob patterns as `stringmatchlen` of Redis reads them, over characters: stars, question marks,
classes in brackets and escapes. -/
namespace Collections.Glob

/-- One character or a range of them, in a class. -/
inductive Item
  | one (c : Char)
  | range (lo hi : Char)
  deriving DecidableEq

inductive Token
  | star
  | any
  | lit (c : Char)
  | cls (negated : Bool) (items : List Item)
  deriving DecidableEq

/-- The ends of a range may stand in either order. -/
def Item.has (c : Char) : Item → Bool
  | .one d => d = c
  | .range lo hi => (lo ≤ c && c ≤ hi) || (hi ≤ c && c ≤ lo)

/-- The tokens of a pattern; within a class, whether it is negated and the items so far. A class that
is not closed ends with the pattern. -/
def tokens : Option (Bool × List Item) → List Char → List Token
  | none, [] => []
  | none, '*' :: rest => .star :: tokens none rest
  | none, '?' :: rest => .any :: tokens none rest
  | none, '[' :: '^' :: rest => tokens (some (true, [])) rest
  | none, '[' :: rest => tokens (some (false, [])) rest
  | none, '\\' :: c :: rest => .lit c :: tokens none rest
  | none, c :: rest => .lit c :: tokens none rest
  | some (negated, items), [] => [.cls negated items]
  | some (negated, items), '\\' :: c :: rest => tokens (some (negated, .one c :: items)) rest
  | some (negated, items), ']' :: rest => .cls negated items :: tokens none rest
  | some (negated, items), lo :: '-' :: hi :: rest =>
    tokens (some (negated, .range lo hi :: items)) rest
  | some (negated, items), c :: rest => tokens (some (negated, .one c :: items)) rest

/-- The whole text is read by the tokens. -/
def accepts : List Token → List Char → Bool
  | [], text => text.isEmpty
  | .star :: rest, text => text.tails.any fun tail => accepts rest tail
  | .any :: rest, text => match text with
    | [] => false
    | _ :: text => accepts rest text
  | .lit c :: rest, text => match text with
    | [] => false
    | d :: text => decide (c = d) && accepts rest text
  | .cls negated items :: rest, text => match text with
    | [] => false
    | d :: text => (items.any (Item.has d) != negated) && accepts rest text

/-- The pattern matches the text. -/
def globMatch (pattern text : String) : Bool := accepts (tokens none pattern.toList) text.toList

/-- The characters of a pattern that do not stand for themselves. -/
def special : List Char := ['*', '?', '[', '\\']

/-- A text that matches itself only. -/
def Literal (s : String) : Prop := ∀ c ∈ s.toList, c ∉ special

instance (s : String) : Decidable (Literal s) := List.decidableBAll _ s.toList

theorem literal_append {s t : String} (hs : Literal s) (ht : Literal t) : Literal (s ++ t) := by
  intro c hc
  rw [String.toList_append] at hc
  rcases List.mem_append.mp hc with hc | hc
  · exact hs c hc
  · exact ht c hc

theorem tokens_star (rest : List Char) : tokens none ('*' :: rest) = .star :: tokens none rest := by
  rw [tokens]

private theorem tokens_of_notMem {c : Char} (hc : c ∉ special) (rest : List Char) :
    tokens none (c :: rest) = .lit c :: tokens none rest := by
  unfold special at hc
  simp only [List.mem_cons, List.not_mem_nil, or_false, not_or] at hc
  obtain ⟨hstar, hany, hclass, hescape⟩ := hc
  rw [tokens] <;> simp [*]

theorem tokens_literal {s : List Char} (hs : ∀ c ∈ s, c ∉ special) (rest : List Char) :
    tokens none (s ++ rest) = s.map Token.lit ++ tokens none rest := by
  induction s with
  | nil => rfl
  | cons c s ih =>
    obtain ⟨hc, hs⟩ := List.forall_mem_cons.mp hs
    rw [List.cons_append, tokens_of_notMem hc, ih hs, List.map_cons, List.cons_append]

theorem accepts_literal (s : List Char) (rest : List Token) (text : List Char) :
    accepts (s.map Token.lit ++ rest) text = true ↔
      ∃ tail, text = s ++ tail ∧ accepts rest tail = true := by
  induction s generalizing text with
  | nil => simp
  | cons c s ih =>
    rw [List.map_cons, List.cons_append]
    cases text with
    | nil => simp [accepts]
    | cons d text =>
      rw [accepts, Bool.and_eq_true, decide_eq_true_iff, ih]
      constructor
      · rintro ⟨rfl, tail, rfl, htail⟩
        exact ⟨tail, rfl, htail⟩
      · rintro ⟨tail, hsplit, htail⟩
        rw [List.cons_append, List.cons.injEq] at hsplit
        exact ⟨hsplit.1.symm, tail, hsplit.2, htail⟩

theorem accepts_star (rest : List Token) (text : List Char) :
    accepts (.star :: rest) text = true ↔
      ∃ skipped tail, text = skipped ++ tail ∧ accepts rest tail = true := by
  rw [accepts, List.any_eq_true]
  constructor
  · rintro ⟨tail, hmem, htail⟩
    obtain ⟨skipped, hsplit⟩ := (List.mem_tails tail text).mp hmem
    exact ⟨skipped, tail, hsplit.symm, htail⟩
  · rintro ⟨skipped, tail, rfl, htail⟩
    exact ⟨tail, (List.mem_tails tail _).mpr (List.suffix_append skipped tail), htail⟩

theorem accepts_end (s text : List Char) : accepts (s.map Token.lit) text = true ↔ text = s := by
  have hnil := accepts_literal s [] text
  rw [List.append_nil] at hnil
  rw [hnil]
  simp [accepts]

theorem globMatch_star {p q : String} (hp : Literal p) (hq : Literal q) (text : String) :
    globMatch (p ++ "*" ++ q) text = true ↔ ∃ x, text = p ++ x ++ q := by
  have htokens : tokens none (p ++ "*" ++ q).toList =
      p.toList.map Token.lit ++ .star :: q.toList.map Token.lit := by
    have hstar : (p ++ "*" ++ q).toList = p.toList ++ '*' :: q.toList := by
      simp [String.toList_append]
    have hq' := tokens_literal hq []
    rw [List.append_nil, tokens, List.append_nil] at hq'
    rw [hstar, tokens_literal hp, tokens_star, hq']
  unfold globMatch
  rw [htokens, accepts_literal]
  simp only [accepts_star, accepts_end]
  constructor
  · rintro ⟨tail, htext, skipped, last, rfl, rfl⟩
    refine ⟨String.ofList skipped, String.ext ?_⟩
    rw [htext]
    simp [String.toList_append]
  · rintro ⟨x, rfl⟩
    refine ⟨x.toList ++ q.toList, by simp [String.toList_append], x.toList, q.toList, rfl, rfl⟩

theorem globMatch_two_stars {p q r : String} (hp : Literal p) (hq : Literal q) (hr : Literal r)
    (text : String) :
    globMatch (p ++ "*" ++ q ++ "*" ++ r) text = true ↔ ∃ x y, text = p ++ x ++ q ++ y ++ r := by
  have htokens : tokens none (p ++ "*" ++ q ++ "*" ++ r).toList =
      p.toList.map Token.lit ++ .star :: (q.toList.map Token.lit ++
        .star :: r.toList.map Token.lit) := by
    have hstar : (p ++ "*" ++ q ++ "*" ++ r).toList =
        p.toList ++ '*' :: (q.toList ++ '*' :: r.toList) := by
      simp [String.toList_append]
    have hr' := tokens_literal hr []
    rw [List.append_nil, tokens, List.append_nil] at hr'
    rw [hstar, tokens_literal hp, tokens_star, tokens_literal hq, tokens_star, hr']
  unfold globMatch
  rw [htokens, accepts_literal]
  simp only [accepts_star, accepts_literal, accepts_end]
  constructor
  · rintro ⟨tail, htext, skipped, tail', rfl, tail'', rfl, skipped', last, rfl, rfl⟩
    refine ⟨String.ofList skipped, String.ofList skipped', String.ext ?_⟩
    rw [htext]
    simp [String.toList_append]
  · rintro ⟨x, y, rfl⟩
    exact ⟨_, by simp only [String.toList_append, List.append_assoc], x.toList, _, rfl, _, rfl,
      y.toList, _, rfl, rfl⟩

end Collections.Glob
