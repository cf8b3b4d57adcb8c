import Mathlib.Data.List.Basic
import Mathlib.Order.Nat
import Mathlib.Tactic.IntervalCases

/-! `bytes.decode("utf-8", errors="replace")`, one byte after another: each longest run of bytes that
begins a character and does not complete it is one replacement character. Bytes that are decoded in
pieces give the text of the whole exactly when no cut falls inside a character. -/
namespace FluxMeter.Wire.Utf8

/-- A character that has begun: the bounds of its next byte, the number of bytes after that one, and
the value so far. -/
structure Pending where
  low : ℕ
  high : ℕ
  more : ℕ
  value : ℕ
  low_le : 0x80 ≤ low
  high_le : high ≤ 0xBF

def Pending.continues (p : Pending) (b : UInt8) : Bool := p.low ≤ b.toNat && b.toNat ≤ p.high

/-- A byte of 80 to BF comes next. -/
def Pending.anyTail (more value : ℕ) : Pending := ⟨0x80, 0xBF, more, value, le_rfl, le_rfl⟩

/-- The first byte of a character of two to four bytes; none of them is a surrogate, is longer than
it must be or is beyond the last plane. -/
def lead (b : ℕ) : Option Pending :=
  if 0xC2 ≤ b ∧ b ≤ 0xDF then some (.anyTail 0 (b - 0xC0))
  else if b = 0xE0 then some ⟨0xA0, 0xBF, 1, 0, by decide, by decide⟩
  else if b = 0xED then some ⟨0x80, 0x9F, 1, 0xD, by decide, by decide⟩
  else if 0xE1 ≤ b ∧ b ≤ 0xEF then some (.anyTail 1 (b - 0xE0))
  else if b = 0xF0 then some ⟨0x90, 0xBF, 2, 0, by decide, by decide⟩
  else if 0xF1 ≤ b ∧ b ≤ 0xF3 then some (.anyTail 2 (b - 0xF0))
  else if b = 0xF4 then some ⟨0x80, 0x8F, 2, 4, by decide, by decide⟩
  else none

def replacement : Char := '\uFFFD'

/-- A byte between two characters: what it writes, and the character it begins. -/
def start (b : UInt8) : List Char × Option Pending :=
  if b.toNat < 0x80 then ([Char.ofNat b.toNat], none)
  else
    match lead b.toNat with
    | some p => ([], some p)
    | none => ([replacement], none)

/-- A byte that continues a character: the last one writes it. -/
def Pending.next (p : Pending) (b : UInt8) : List Char × Option Pending :=
  let value := 64 * p.value + (b.toNat - 0x80)
  match p.more with
  | 0 => ([Char.ofNat value], none)
  | more + 1 => ([], some (.anyTail more value))

/-- The next byte; one that does not continue an open character ends it early. -/
def step : Option Pending → UInt8 → List Char × Option Pending
  | none, b => start b
  | some p, b =>
    if p.continues b then p.next b else (replacement :: (start b).1, (start b).2)

/-- What the end of the bytes writes. -/
def flush : Option Pending → List Char
  | none => []
  | some _ => [replacement]

def decodeFrom : Option Pending → List UInt8 → List Char
  | p, [] => flush p
  | p, b :: bytes => (step p b).1 ++ decodeFrom (step p b).2 bytes

/-- `decode("utf-8", errors="replace")`. -/
def decode (bytes : List UInt8) : List Char := decodeFrom none bytes

/-- `encode("utf-8")`. -/
def encode (text : List Char) : List UInt8 := text.flatMap String.utf8EncodeChar

theorem encode_append (text text' : List Char) :
    encode (text ++ text') = encode text ++ encode text' := List.flatMap_append

/-- The character that is open after the bytes. -/
def after (p : Option Pending) (bytes : List UInt8) : Option Pending :=
  bytes.foldl (fun p b => (step p b).2) p

/-- What the bytes write before their end. -/
def written : Option Pending → List UInt8 → List Char
  | _, [] => []
  | p, b :: bytes => (step p b).1 ++ written (step p b).2 bytes

theorem decodeFrom_append (p : Option Pending) (bytes rest : List UInt8) :
    decodeFrom p (bytes ++ rest) = written p bytes ++ decodeFrom (after p bytes) rest := by
  induction bytes generalizing p with
  | nil => rfl
  | cons b bytes ih =>
    rw [List.cons_append, decodeFrom, ih, written, List.append_assoc]
    rfl

theorem decodeFrom_eq (p : Option Pending) (bytes : List UInt8) :
    decodeFrom p bytes = written p bytes ++ flush (after p bytes) := by
  have happend := decodeFrom_append p bytes []
  rw [List.append_nil] at happend
  exact happend

private theorem start_of_continues {p : Pending} {b : UInt8} (h : p.continues b = true) :
    start b = ([replacement], none) := by
  unfold Pending.continues at h
  rw [Bool.and_eq_true, decide_eq_true_iff, decide_eq_true_iff] at h
  have hlow := p.low_le
  have hhigh := p.high_le
  have hlead : lead b.toNat = none := by
    unfold lead
    rw [if_neg (by omega), if_neg (by omega), if_neg (by omega), if_neg (by omega),
      if_neg (by omega), if_neg (by omega), if_neg (by omega)]
  unfold start
  rw [if_neg (by omega), hlead]

theorem decodeFrom_of_not_continues {p : Pending} {b : UInt8} (h : p.continues b = false)
    (bytes : List UInt8) :
    decodeFrom (some p) (b :: bytes) = replacement :: decodeFrom none (b :: bytes) := by
  have hstep : step (some p) b = (replacement :: (start b).1, (start b).2) := by
    rw [step, h]
    rfl
  rw [decodeFrom, hstep]
  rfl

theorem decodeFrom_of_continues {p : Pending} {b : UInt8} (h : p.continues b = true)
    (bytes : List UInt8) :
    decodeFrom (some p) (b :: bytes) = (p.next b).1 ++ decodeFrom (p.next b).2 bytes ∧
      decodeFrom none (b :: bytes) = replacement :: decodeFrom none bytes := by
  constructor
  · rw [decodeFrom, step, if_pos h]
  · rw [decodeFrom, step, start_of_continues h]
    rfl

theorem length_next (p : Pending) (b : UInt8) {bytes : List UInt8}
    (h : ∀ q, (decodeFrom (some q) bytes).length ≤ (decodeFrom none bytes).length + 1) :
    ((p.next b).1 ++ decodeFrom (p.next b).2 bytes).length ≤
      (decodeFrom none bytes).length + 1 := by
  unfold Pending.next
  rw [List.length_append]
  cases p.more with
  | zero => exact (Nat.add_comm _ _).le
  | succ more => exact (Nat.zero_add _).le.trans (h _)

private theorem length_decodeFrom_some (p : Pending) (bytes : List UInt8) :
    (decodeFrom (some p) bytes).length ≤ (decodeFrom none bytes).length + 1 := by
  induction bytes generalizing p with
  | nil => exact le_rfl
  | cons b bytes ih =>
    by_cases h : p.continues b = true
    · obtain ⟨hsome, hnone⟩ := decodeFrom_of_continues h bytes
      have hnext := length_next p b ih
      rw [hsome, hnone, List.length_cons]
      omega
    · rw [decodeFrom_of_not_continues (by simpa using h), List.length_cons]

theorem length_decodeFrom_of_continues {p : Pending} {b : UInt8} (h : p.continues b = true)
    (bytes : List UInt8) :
    (decodeFrom (some p) (b :: bytes)).length <
      (replacement :: decodeFrom none (b :: bytes)).length := by
  obtain ⟨hsome, hnone⟩ := decodeFrom_of_continues h bytes
  have hnext := length_next p b fun q => length_decodeFrom_some q bytes
  rw [hsome, hnone, List.length_cons, List.length_cons]
  omega

/-! ### The text of encoded characters -/

theorem toNat_ofNat {n : ℕ} (h : n < 256) : (UInt8.ofNat n).toNat = n := by
  rw [UInt8.toNat_ofNat', Nat.mod_eq_of_lt (by omega)]

/-- A byte inside a character goes on to the next one, or writes the character. -/
theorem decodeFrom_tail {p : Pending} {n : ℕ} (h : p.low ≤ n + 0x80) (h' : n + 0x80 ≤ p.high)
    (rest : List UInt8) :
    decodeFrom (some p) (UInt8.ofNat (n + 0x80) :: rest) =
      match p.more with
      | 0 => Char.ofNat (64 * p.value + n) :: decodeFrom none rest
      | more + 1 => decodeFrom (some (.anyTail more (64 * p.value + n))) rest := by
  have hbyte : (UInt8.ofNat (n + 0x80)).toNat = n + 0x80 :=
    toNat_ofNat (by have := p.high_le; omega)
  have hcontinues : p.continues (UInt8.ofNat (n + 0x80)) = true := by
    unfold Pending.continues
    rw [hbyte, Bool.and_eq_true, decide_eq_true_iff, decide_eq_true_iff]
    exact ⟨h, h'⟩
  rw [(decodeFrom_of_continues hcontinues rest).1]
  unfold Pending.next
  rw [hbyte, Nat.add_sub_cancel]
  cases p.more <;> rfl

theorem decodeFrom_lead {n : ℕ} {p : Pending} (hn : n < 256) (hmulti : 0x80 ≤ n)
    (h : lead n = some p) (rest : List UInt8) :
    decodeFrom none (UInt8.ofNat n :: rest) = decodeFrom (some p) rest := by
  rw [decodeFrom, step, start, toNat_ofNat hn, if_neg (by omega), h]
  rfl

theorem lead_two {a : ℕ} (h : 2 ≤ a) (h' : a < 32) : lead (a + 0xC0) = some (.anyTail 0 a) := by
  interval_cases a <;> rfl

private theorem lead_three {a : ℕ} (h : a < 16) :
    ∃ p, lead (a + 0xE0) = some p ∧ p.more = 1 ∧ p.value = a ∧
    p.low = (if a = 0 then 0xA0 else 0x80) ∧ p.high = (if a = 13 then 0x9F else 0xBF) := by
  interval_cases a <;> exact ⟨_, rfl, rfl, rfl, rfl, rfl⟩

private theorem lead_four {a : ℕ} (h : a < 5) :
    ∃ p, lead (a + 0xF0) = some p ∧ p.more = 2 ∧ p.value = a ∧
    p.low = (if a = 0 then 0x90 else 0x80) ∧ p.high = (if a = 4 then 0x8F else 0xBF) := by
  interval_cases a <;> exact ⟨_, rfl, rfl, rfl, rfl, rfl⟩

private theorem decodeFrom_encodeChar (c : Char) (rest : List UInt8) :
    decodeFrom none (String.utf8EncodeChar c ++ rest) = c :: decodeFrom none rest := by
  have hvalid : c.val.toNat < 0xD800 ∨ 0xDFFF < c.val.toNat ∧ c.val.toNat < 0x110000 := c.valid
  have hchar : Char.ofNat c.val.toNat = c := Char.ofNat_toNat c
  obtain ⟨v, hv⟩ : ∃ v, c.val.toNat = v := ⟨_, rfl⟩
  unfold String.utf8EncodeChar
  dsimp only
  rw [hv] at hvalid hchar ⊢
  rw [← hchar]
  split_ifs with hone htwo hthree
  · rw [List.cons_append, List.nil_append, decodeFrom, step, start, toNat_ofNat (by omega),
      if_pos (by omega)]
    rfl
  · obtain ⟨a, ha⟩ : ∃ a, v / 64 = a := ⟨_, rfl⟩
    have hmod : a % 0x20 = a := Nat.mod_eq_of_lt (by omega)
    rw [ha, hmod, List.cons_append, List.cons_append, List.nil_append,
      decodeFrom_lead (by omega) (by omega) (lead_two (by omega) (by omega)),
      decodeFrom_tail (Nat.le_add_left _ _) (by show v % 0x40 + 0x80 ≤ 0xBF; omega)]
    show Char.ofNat (64 * a + v % 0x40) :: _ = _
    rw [show 64 * a + v % 0x40 = v by omega]
  · obtain ⟨a, ha⟩ : ∃ a, v / 4096 = a := ⟨_, rfl⟩
    have hmod : a % 0x10 = a := Nat.mod_eq_of_lt (by omega)
    obtain ⟨p, hlead, hmore, hvalue, hlow, hhigh⟩ := lead_three (a := a) (by omega)
    have hmiddle : p.low ≤ v / 64 % 0x40 + 0x80 ∧ v / 64 % 0x40 + 0x80 ≤ p.high := by
      rw [hlow, hhigh]
      split_ifs <;> omega
    rw [ha, hmod, List.cons_append, List.cons_append, List.cons_append, List.nil_append,
      decodeFrom_lead (by omega) (by omega) hlead, decodeFrom_tail hmiddle.1 hmiddle.2, hmore]
    dsimp only
    rw [decodeFrom_tail (Nat.le_add_left _ _) (by show v % 0x40 + 0x80 ≤ 0xBF; omega), hvalue]
    show Char.ofNat (64 * (64 * a + v / 64 % 0x40) + v % 0x40) :: _ = _
    rw [show 64 * (64 * a + v / 64 % 0x40) + v % 0x40 = v by omega]
  · obtain ⟨a, ha⟩ : ∃ a, v / 262144 = a := ⟨_, rfl⟩
    have hmod : a % 0x08 = a := Nat.mod_eq_of_lt (by omega)
    obtain ⟨p, hlead, hmore, hvalue, hlow, hhigh⟩ := lead_four (a := a) (by omega)
    have hmiddle : p.low ≤ v / 4096 % 0x40 + 0x80 ∧ v / 4096 % 0x40 + 0x80 ≤ p.high := by
      rw [hlow, hhigh]
      split_ifs <;> omega
    rw [ha, hmod, List.cons_append, List.cons_append, List.cons_append, List.cons_append,
      List.nil_append, decodeFrom_lead (by omega) (by omega) hlead,
      decodeFrom_tail hmiddle.1 hmiddle.2, hmore]
    dsimp only
    rw [decodeFrom_tail (Nat.le_add_left _ _) (by show v / 64 % 0x40 + 0x80 ≤ 0xBF; omega)]
    dsimp only [Pending.anyTail]
    rw [decodeFrom_tail (Nat.le_add_left _ _) (by show v % 0x40 + 0x80 ≤ 0xBF; omega), hvalue]
    show Char.ofNat (64 * (64 * (64 * a + v / 4096 % 0x40) + v / 64 % 0x40) + v % 0x40) :: _ = _
    rw [show 64 * (64 * (64 * a + v / 4096 % 0x40) + v / 64 % 0x40) + v % 0x40 = v by omega]

theorem decode_encode (text : List Char) : decode (encode text) = text := by
  induction text with
  | nil => rfl
  | cons c text ih =>
    rw [encode, List.flatMap_cons, decode, decodeFrom_encodeChar]
    exact congrArg (List.cons c) ih

/-! ### Bytes in pieces -/

/-- The next bytes go on with the character that is open. -/
def Splits (p : Option Pending) (rest : List UInt8) : Prop :=
  ∃ q ∈ p, ∃ b ∈ rest.head?, q.continues b = true

/-- No cut falls inside a character. -/
def Whole : List (List UInt8) → Prop
  | [] => True
  | piece :: pieces => ¬ Splits (after none piece) pieces.flatten ∧ Whole pieces

theorem decode_append (piece rest : List UInt8) :
    decode (piece ++ rest) = written none piece ++ decodeFrom (after none piece) rest ∧
      decode piece ++ decode rest =
        written none piece ++ (flush (after none piece) ++ decode rest) := by
  constructor
  · exact decodeFrom_append none piece rest
  · rw [decode, decodeFrom_eq, List.append_assoc]

theorem decode_cut_of_not_splits {p : Option Pending} {rest : List UInt8} (h : ¬ Splits p rest) :
    decodeFrom p rest = flush p ++ decode rest := by
  cases p with
  | none => rfl
  | some q =>
    cases rest with
    | nil => rfl
    | cons b bytes =>
      refine decodeFrom_of_not_continues ?_ bytes
      rw [Bool.eq_false_iff]
      exact fun hb => h ⟨q, rfl, b, rfl, hb⟩

theorem length_decode_cut_of_splits {p : Option Pending} {rest : List UInt8} (h : Splits p rest) :
    (decodeFrom p rest).length < (flush p ++ decode rest).length := by
  obtain ⟨q, hq, b, hb, hcontinues⟩ := h
  obtain ⟨bytes, rfl⟩ := List.head?_eq_some_iff.mp hb
  rw [Option.mem_def.mp hq]
  exact length_decodeFrom_of_continues hcontinues bytes

private theorem length_decode_pieces (pieces : List (List UInt8)) :
    (decode pieces.flatten).length ≤ (pieces.flatMap decode).length := by
  induction pieces with
  | nil => exact le_rfl
  | cons piece pieces ih =>
    obtain ⟨hwhole, hcut⟩ := decode_append piece pieces.flatten
    have hlength : (decode (piece ++ pieces.flatten)).length ≤
        (decode piece ++ decode pieces.flatten).length := by
      rw [hwhole, hcut, List.length_append, List.length_append]
      by_cases hsplits : Splits (after none piece) pieces.flatten
      · exact Nat.add_le_add_left (length_decode_cut_of_splits hsplits).le _
      · rw [decode_cut_of_not_splits hsplits]
    rw [List.flatten_cons, List.flatMap_cons]
    rw [List.length_append] at hlength ⊢
    omega

/-- Pieces that are decoded one by one give the text of the whole exactly when no cut falls inside a
character. -/
theorem decode_pieces (pieces : List (List UInt8)) :
    pieces.flatMap decode = decode pieces.flatten ↔ Whole pieces := by
  induction pieces with
  | nil => exact iff_of_true rfl trivial
  | cons piece pieces ih =>
    obtain ⟨hwhole, hcut⟩ := decode_append piece pieces.flatten
    rw [Whole, List.flatMap_cons, List.flatten_cons]
    constructor
    case mpr =>
      rintro ⟨hsplits, hlater⟩
      rw [ih.mpr hlater, hcut, hwhole, decode_cut_of_not_splits hsplits]
    case mp =>
      intro heq
      have hsplits : ¬ Splits (after none piece) pieces.flatten := by
        -- every later cut can only add to the text as well
        intro hsplits
        have hshort := length_decode_cut_of_splits hsplits
        have hlater := length_decode_pieces pieces
        have hlength := congrArg List.length heq
        rw [hwhole, decode, decodeFrom_eq] at hlength
        simp only [List.length_append] at hshort hlength
        omega
      refine ⟨hsplits, ih.mp ?_⟩
      rw [hwhole, decode_cut_of_not_splits hsplits, ← hcut] at heq
      exact List.append_cancel_left heq

private theorem after_ascii {bytes : List UInt8} (h : ∀ b ∈ bytes, b.toNat < 0x80) :
    after none bytes = none := by
  induction bytes with
  | nil => rfl
  | cons b bytes ih =>
    have hfirst : (step none b).2 = none := by
      rw [step, start, if_pos (h b List.mem_cons_self)]
    rw [after, List.foldl_cons, hfirst]
    exact ih fun c hc => h c (List.mem_cons_of_mem b hc)

theorem whole_ascii {pieces : List (List UInt8)}
    (h : ∀ b ∈ pieces.flatten, b.toNat < 0x80) : Whole pieces := by
  induction pieces with
  | nil => trivial
  | cons piece pieces ih =>
    rw [List.flatten_cons] at h
    refine ⟨?_, ih fun b hb => h b (List.mem_append_right _ hb)⟩
    rw [after_ascii fun b hb => h b (List.mem_append_left _ hb)]
    rintro ⟨q, hq, -⟩
    cases hq

end FluxMeter.Wire.Utf8
