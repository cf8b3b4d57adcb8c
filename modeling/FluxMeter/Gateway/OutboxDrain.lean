import FluxMeter.Gateway.Outbox
import FluxMeter.Transition.Runs
import FluxMeter.Wire.Utf8

/-! `flush_once` over an outbox of arbitrary content, with a broker that acknowledges every message.
Calls of it follow each other as in `start_worker`; no entry is added. -/
namespace FluxMeter.Gateway.OutboxDrain
open Collections FluxMeter.Wire Transition

/-! ### Values -/

/-- The exceptions that leave the calls of `flush_once`. `UnicodeDecodeError`, `UnicodeEncodeError`
and `JSONDecodeError` are kinds of `ValueError`. -/
inductive Failure
  | keyError
  | typeError
  | valueError
  | attributeError
  | recursionError
  deriving DecidableEq

/-- `except (ValueError, KeyError, TypeError)`. -/
def Failure.handled : Failure → Bool
  | .keyError | .typeError | .valueError => true
  | .attributeError | .recursionError => false

/-- A text as code points; an escape in a JSON text can leave half of a surrogate pair. -/
abbrev Text := List ℕ

def codePoints (s : String) : Text := s.toList.map Char.toNat

/-- What `json.loads` returns: a text, a dict, or a value that has neither keys nor an encoding. -/
inductive Value
  | str (text : Text)
  | obj (fields : List (Text × Value))
  | other

/-- `value[key]`. -/
def item (value : Value) (key : String) : Except Failure Value :=
  match value with
  | .obj fields =>
    match fields.lookup (codePoints key) with
    | some v => .ok v
    | none => .error .keyError
  | _ => .error .typeError

/-- `value.encode()`. -/
def encode (value : Value) : Except Failure (List UInt8) :=
  match value with
  | .str text =>
    if text.all fun n => decide n.isValidChar then .ok (Utf8.encode (text.map Char.ofNat))
    else .error .valueError
  | _ => .error .attributeError

/-- `redis.Redis(decode_responses=True)` decodes strictly; `none` is `UnicodeDecodeError`. -/
def decode (bytes : List UInt8) : Option (List Char) :=
  if Utf8.encode (Utf8.decode bytes) = bytes then some (Utf8.decode bytes) else none

/-! ### The worker -/

/-- What `flush_once` writes to `gateway:outbox:dead`; the failure stands for its text. -/
structure DeadEntry where
  eventId : String
  payload : List Char
  error : Failure
  deriving DecidableEq

structure Store where
  blobs : Table String (List UInt8) := Table.empty
  pending : Table String ℤ := Table.empty
  dead : List DeadEntry := []
  /-- The keys and values of the messages that the broker acknowledged. -/
  published : List (List UInt8 × List UInt8) := []

namespace Store

/-- `zrange(PENDING_KEY, 0, 0)`. -/
def oldest (s : Store) : Option String := (s.pending.rangeByScore (fun _ => true) 1).head?

/-- `zrem(PENDING_KEY, event_id)`. -/
def drop (s : Store) (eventId : String) : Store :=
  { s with pending := s.pending.erase eventId }

def remove (s : Store) (eventId : String) : Store :=
  { s with blobs := s.blobs.erase eventId, pending := s.pending.erase eventId }

/-- `publish_with_ack`, which returns once the message is acknowledged. -/
def publish (s : Store) (key value : List UInt8) : Store :=
  { s with published := s.published ++ [(key, value)] }

/-- `rpush("gateway:outbox:dead", ...)`. -/
def bury (s : Store) (d : DeadEntry) : Store := { s with dead := s.dead ++ [d] }

end Store

inductive Answer
  | returned (more : Bool)
  | raised (failure : Failure)
  deriving DecidableEq

section Worker
variable (loads : List Char → Except Failure Value)

/-- `envelope["auth"]["customerId"].encode()`. -/
def messageKey (raw : List Char) : Except Failure (List UInt8) := do
  encode (← item (← item (← loads raw) "auth") "customerId")

def flushOnce (s : Store) : Store × Answer :=
  match s.oldest with
  | none => (s, .returned false)
  | some eventId =>
    match s.blobs.get eventId with
    | none => (s.drop eventId, .returned true)
    | some bytes =>
      match decode bytes with
      -- the read stands in front of the `try`
      | none => (s, .raised .valueError)
      | some [] => (s.drop eventId, .returned true)
      | some raw =>
        match messageKey loads raw with
        | .ok key => ((s.publish key (Utf8.encode raw)).remove eventId, .returned true)
        | .error failure =>
          if failure.handled then ((s.bury ⟨eventId, raw, failure⟩).remove eventId, .returned true)
          else (s, .raised failure)

/-- The outbox after `n` calls. `start_worker` calls again whether a call returned or raised. -/
def afterCalls (n : ℕ) (s : Store) : Store := (fun s => (flushOnce loads s).1)^[n] s

/-- The message that a blob makes, if it holds a well-formed envelope. -/
def message (bytes : List UInt8) : Option (List UInt8 × List UInt8) :=
  match decode bytes with
  | none | some [] => none
  | some raw =>
    match messageKey loads raw with
    | .ok key => some (key, bytes)
    | .error _ => none

/-- Every listed blob is published, if it is a well-formed envelope, or else in the dead list. -/
structure Drained (s t : Store) : Prop where
  empty : ∀ eventId, t.pending.get eventId = none
  published : ∀ eventId bytes m, s.pending.get eventId ≠ none →
    s.blobs.get eventId = some bytes → message loads bytes = some m → m ∈ t.published
  buried : ∃ buried, t.dead = s.dead ++ buried ∧ ∀ eventId bytes, s.pending.get eventId ≠ none →
    s.blobs.get eventId = some bytes → message loads bytes = none →
    ∃ d ∈ buried, d.eventId = eventId ∧ Utf8.encode d.payload = bytes

/-- After finitely many calls the next one returns `False` on an outbox without entries. -/
def Drains (s : Store) : Prop :=
  ∃ n, (flushOnce loads (afterCalls loads n s)).2 = .returned false ∧
    Drained loads s (afterCalls loads n s)

/-- A blob that is some text, whose reading fails with nothing but what `flush_once` handles. -/
def Digestible (bytes : List UInt8) : Prop :=
  ∃ raw, decode bytes = some raw ∧ raw ≠ [] ∧
    ∀ failure, messageKey loads raw = .error failure → failure.handled = true

end Worker

/-! ### One call -/

section Calls
variable {loads : List Char → Except Failure Value} {s t : Store} {eventId : String}
  {bytes : List UInt8}

theorem decode_eq_some {raw : List Char} (h : decode bytes = some raw) :
    Utf8.encode raw = bytes := by
  unfold decode at h
  split_ifs at h with hstrict
  rw [← Option.some.inj h]
  exact hstrict

theorem oldest_eq_none (h : s.oldest = none) (eventId : String) : s.pending.get eventId = none := by
  have hrange := List.head?_eq_none_iff.mp h
  unfold Table.rangeByScore at hrange
  rw [List.map_eq_nil_iff, List.take_eq_nil_iff] at hrange
  have hrows : s.pending.rows = [] := by
    have hsorted := hrange.resolve_left one_ne_zero
    have hlength := congrArg List.length hsorted
    simpa using hlength
  unfold Table.get
  rw [hrows]
  rfl

theorem get_of_oldest (h : s.oldest = some eventId) : s.pending.get eventId ≠ none := by
  have hmem : eventId ∈ s.pending.rangeByScore (fun _ => true) 1 := List.mem_of_head? h
  obtain ⟨score, hscore, -⟩ := Table.get_of_mem_rangeByScore s.pending hmem
  rw [hscore]
  exact Option.some_ne_none score

/-- How a call takes the oldest entry out of the outbox: it has no text, or its text is published, or
it is buried. -/
inductive Taken (loads : List Char → Except Failure Value) (s : Store) (eventId : String) :
    Store → Prop
  | missing : s.blobs.get eventId = none → Taken loads s eventId (s.drop eventId)
  | blank : s.blobs.get eventId = some [] → Taken loads s eventId (s.drop eventId)
  | published (raw : List Char) (key : List UInt8) :
    s.blobs.get eventId = some (Utf8.encode raw) → Digestible loads (Utf8.encode raw) →
    message loads (Utf8.encode raw) = some (key, Utf8.encode raw) →
    Taken loads s eventId ((s.publish key (Utf8.encode raw)).remove eventId)
  | buried (raw : List Char) (failure : Failure) : raw ≠ [] →
    s.blobs.get eventId = some (Utf8.encode raw) → Digestible loads (Utf8.encode raw) →
    message loads (Utf8.encode raw) = none →
    Taken loads s eventId ((s.bury ⟨eventId, raw, failure⟩).remove eventId)

/-- The entry stays where it is: its blob is no text, or reading it fails unhandled. -/
def Blocks (loads : List Char → Except Failure Value) (bytes : List UInt8) : Prop :=
  bytes ≠ [] ∧ ¬ Digestible loads bytes

/-- Everything that a call can do. -/
theorem flushOnce_cases (loads : List Char → Except Failure Value) (s : Store) :
    (s.oldest = none ∧ flushOnce loads s = (s, .returned false)) ∨
      ∃ eventId, s.oldest = some eventId ∧
        ((∃ t, Taken loads s eventId t ∧ flushOnce loads s = (t, .returned true)) ∨
          ∃ bytes failure, s.blobs.get eventId = some bytes ∧ Blocks loads bytes ∧
            flushOnce loads s = (s, .raised failure)) := by
  unfold flushOnce
  cases holdest : s.oldest with
  | none => exact Or.inl ⟨rfl, rfl⟩
  | some eventId =>
    refine Or.inr ⟨eventId, rfl, ?_⟩
    dsimp only
    cases hblob : s.blobs.get eventId with
    | none => exact Or.inl ⟨_, .missing hblob, rfl⟩
    | some bytes =>
      dsimp only
      cases hdecode : decode bytes with
      | none =>
        refine Or.inr ⟨bytes, .valueError, rfl, ⟨?_, ?_⟩, rfl⟩
        · rintro rfl
          cases hdecode
        · rintro ⟨raw, hraw, -⟩
          rw [hdecode] at hraw
          cases hraw
      | some raw =>
        have hbytes := decode_eq_some hdecode
        cases raw with
        | nil =>
          have hempty : bytes = [] := hbytes.symm
          rw [hempty] at hblob
          exact Or.inl ⟨_, .blank hblob, rfl⟩
        | cons c raw =>
          dsimp only
          have hblob' : s.blobs.get eventId = some (Utf8.encode (c :: raw)) := by
            rw [hblob, hbytes]
          cases hkey : messageKey loads (c :: raw) with
          | ok key =>
            left
            refine ⟨_, .published (c :: raw) key hblob' ?_ ?_, rfl⟩
            · refine ⟨c :: raw, hbytes.symm ▸ hdecode, List.cons_ne_nil c raw, ?_⟩
              intro failure hfailure
              rw [hkey] at hfailure
              cases hfailure
            unfold message
            rw [hbytes, hdecode]
            dsimp only
            rw [hkey]
          | error failure =>
            dsimp only
            split_ifs with hhandled
            · left
              refine ⟨_, .buried (c :: raw) failure (List.cons_ne_nil c raw) hblob' ?_ ?_, rfl⟩
              · refine ⟨c :: raw, hbytes.symm ▸ hdecode, List.cons_ne_nil c raw, ?_⟩
                intro failure' hfailure
                rw [hkey] at hfailure
                cases hfailure
                exact hhandled
              unfold message
              rw [hbytes, hdecode]
              dsimp only
              rw [hkey]
            · refine Or.inr ⟨bytes, failure, rfl, ⟨?_, ?_⟩, rfl⟩
              · rintro rfl
                cases hdecode
              · rintro ⟨raw', hraw', -, hall⟩
                obtain rfl := Option.some.inj (hdecode.symm.trans hraw')
                exact hhandled (hall failure hkey)

theorem Taken.pending (h : Taken loads s eventId t) : t.pending = s.pending.erase eventId := by
  cases h <;> rfl

theorem Taken.blobs (h : Taken loads s eventId t) {other : String} (hne : other ≠ eventId) :
    t.blobs.get other = s.blobs.get other := by
  cases h with
  | missing | blank => rfl
  | published | buried => exact Table.get_erase_ne _ hne

theorem Taken.shorter (hlisted : s.pending.get eventId ≠ none) (h : Taken loads s eventId t) :
    t.pending.rows.length < s.pending.rows.length := by
  obtain ⟨score, hscore⟩ := Option.ne_none_iff_exists'.mp hlisted
  have hmem := (s.pending.get_eq_some_iff eventId score).mp hscore
  rw [h.pending]
  apply List.length_filter_lt_length_iff_exists.mpr
  exact ⟨_, hmem, by simp⟩

theorem Taken.published_subset (h : Taken loads s eventId t) : s.published ⊆ t.published := by
  cases h with
  | published raw key => exact List.subset_append_left _ _
  | _ => exact List.Subset.refl _

theorem Taken.dead (h : Taken loads s eventId t) :
    ∃ buried, t.dead = s.dead ++ buried ∧ ∀ d ∈ buried, d.payload ≠ [] := by
  cases h with
  | buried raw failure hraw => exact ⟨[_], rfl, by simpa using hraw⟩
  | _ => exact ⟨[], (List.append_nil _).symm, by simp⟩

/-! ### Runs of calls -/

/-- How far the calls since `s` have come: what is still listed is as it was, the rest is settled. -/
structure Progress (loads : List Char → Except Failure Value) (s t : Store) : Prop where
  listed : ∀ eventId, t.pending.get eventId ≠ none →
    s.pending.get eventId ≠ none ∧ t.blobs.get eventId = s.blobs.get eventId
  published : ∀ eventId bytes m, s.pending.get eventId ≠ none →
    t.pending.get eventId = none → s.blobs.get eventId = some bytes →
    message loads bytes = some m → m ∈ t.published
  buried : ∃ buried, t.dead = s.dead ++ buried ∧ ∀ eventId bytes, s.pending.get eventId ≠ none →
    t.pending.get eventId = none → s.blobs.get eventId = some bytes → message loads bytes = none →
    ∃ d ∈ buried, d.eventId = eventId ∧ Utf8.encode d.payload = bytes

theorem Progress.refl (s : Store) : Progress loads s s where
  listed _ h := ⟨h, rfl⟩
  published _ _ _ h h' := absurd h' h
  buried := ⟨[], (List.append_nil _).symm, fun _ _ h h' => absurd h' h⟩

/-- An entry that is gone after a call was taken by it or was gone before. -/
theorem taken_or_gone {u : Store} (h : Taken loads t eventId u) {other : String}
    (hgone : u.pending.get other = none) : other = eventId ∨ t.pending.get other = none := by
  by_cases hsame : other = eventId
  · exact Or.inl hsame
  · right
    rwa [h.pending, Table.get_erase_ne _ hsame] at hgone

/-- Taking an entry that is no empty text is progress. -/
theorem Progress.taken {u : Store} (h : Progress loads s t)
    (hlisted : t.pending.get eventId ≠ none) (hfull : s.blobs.get eventId ≠ some [])
    (htaken : Taken loads t eventId u) : Progress loads s u := by
  have hblob := (h.listed eventId hlisted).2
  constructor
  case listed =>
    intro other hother
    have hne : other ≠ eventId := by
      rintro rfl
      rw [htaken.pending, Table.get_erase_self] at hother
      exact hother rfl
    rw [htaken.pending, Table.get_erase_ne _ hne] at hother
    rw [htaken.blobs hne]
    exact h.listed other hother
  case published =>
    intro other bytes m hbefore hgone hbytes hm
    rcases taken_or_gone htaken hgone with rfl | hearlier
    · rw [← hblob] at hbytes hfull
      cases htaken with
      | missing hnone =>
        rw [hnone] at hbytes
        cases hbytes
      | blank hempty => exact absurd hempty hfull
      | published raw key hraw hdigestible hmessage =>
        obtain rfl := Option.some.inj (hraw.symm.trans hbytes)
        obtain rfl := Option.some.inj (hmessage.symm.trans hm)
        exact List.mem_append_right _ List.mem_cons_self
      | buried raw failure hne hraw hdigestible hmessage =>
        obtain rfl := Option.some.inj (hraw.symm.trans hbytes)
        rw [hmessage] at hm
        cases hm
    · exact htaken.published_subset (h.published other bytes m hbefore hearlier hbytes hm)
  case buried =>
    obtain ⟨buried, hdead, hall⟩ := h.buried
    obtain ⟨more, hmore, -⟩ := htaken.dead
    refine ⟨buried ++ more, by rw [hmore, hdead, List.append_assoc], ?_⟩
    intro other bytes hbefore hgone hbytes hm
    rcases taken_or_gone htaken hgone with rfl | hearlier
    · rw [← hblob] at hbytes hfull
      cases htaken with
      | missing hnone =>
        rw [hnone] at hbytes
        cases hbytes
      | blank hempty => exact absurd hempty hfull
      | published raw key hraw hdigestible hmessage =>
        obtain rfl := Option.some.inj (hraw.symm.trans hbytes)
        rw [hmessage] at hm
        cases hm
      | buried raw failure hne hraw hdigestible hmessage =>
        obtain rfl := Option.some.inj (hraw.symm.trans hbytes)
        have hlast : more = [⟨other, raw, failure⟩] := (List.append_cancel_left hmore).symm
        rw [hlast]
        exact ⟨_, List.mem_append_right _ List.mem_cons_self, rfl, rfl⟩
    · obtain ⟨d, hd, hid⟩ := hall other bytes hbefore hearlier hbytes hm
      exact ⟨d, List.mem_append_left _ hd, hid⟩

theorem drains_of_digestible (h : ∀ eventId bytes, s.pending.get eventId ≠ none →
    s.blobs.get eventId = some bytes → Digestible loads bytes) : Drains loads s := by
  have hstep : ∀ t, Progress loads s t → ¬ t.oldest = none →
      Progress loads s (flushOnce loads t).1 ∧
        (flushOnce loads t).1.pending.rows.length < t.pending.rows.length := by
    intro t ht hmore
    rcases flushOnce_cases loads t with ⟨hnone, -⟩ | ⟨eventId, hid, hcall⟩
    · exact absurd hnone hmore
    · have hlisted := get_of_oldest hid
      obtain ⟨hbefore, hblob⟩ := ht.listed eventId hlisted
      rcases hcall with ⟨u, htaken, hcall⟩ | ⟨bytes, failure, hbytes, hblocks, -⟩
      · rw [hcall]
        refine ⟨ht.taken hlisted (fun hempty => ?_) htaken, htaken.shorter hlisted⟩
        obtain ⟨raw, hraw, hne, -⟩ := h eventId [] hbefore hempty
        exact hne (Option.some.inj hraw).symm
      · exact absurd (h eventId bytes hbefore (hblob.symm.trans hbytes)) hblocks.2
  obtain ⟨n, hprogress, hdone⟩ := exists_iterate_done (fun t : Store => t.pending.rows.length)
    hstep (Progress.refl s)
  refine ⟨n, ?_, ?_⟩
  · unfold flushOnce afterCalls
    rw [hdone]
  · have hempty := oldest_eq_none hdone
    obtain ⟨buried, hdead, hall⟩ := hprogress.buried
    exact ⟨hempty, fun id bytes m hid => hprogress.published id bytes m hid (hempty id),
      buried, hdead, fun id bytes hid => hall id bytes hid (hempty id)⟩

theorem blocked_afterCalls (hlisted : s.pending.get eventId ≠ none)
    (hblob : s.blobs.get eventId = some bytes) (hblocks : Blocks loads bytes) (n : ℕ) :
    (afterCalls loads n s).pending.get eventId ≠ none ∧
      (afterCalls loads n s).blobs.get eventId = some bytes := by
  refine iterate_invariant (P := fun t : Store => t.pending.get eventId ≠ none ∧
    t.blobs.get eventId = some bytes) ?_ ⟨hlisted, hblob⟩ n
  rintro t ⟨ht, hbytes⟩
  rcases flushOnce_cases loads t with ⟨-, hcall⟩ | ⟨head, -, hcall⟩
  · rw [hcall]
    exact ⟨ht, hbytes⟩
  · rcases hcall with ⟨u, htaken, hcall⟩ | ⟨-, failure, -, -, hcall⟩
    · rw [hcall]
      have hne : eventId ≠ head := by
        rintro rfl
        cases htaken with
        | missing hnone =>
          rw [hnone] at hbytes
          cases hbytes
        | blank hempty => exact hblocks.1 (Option.some.inj (hbytes.symm.trans hempty))
        | published raw key hraw hdigestible =>
          obtain rfl := Option.some.inj (hraw.symm.trans hbytes)
          exact hblocks.2 hdigestible
        | buried raw failure hne hraw hdigestible =>
          obtain rfl := Option.some.inj (hraw.symm.trans hbytes)
          exact hblocks.2 hdigestible
      exact ⟨by rwa [htaken.pending, Table.get_erase_ne _ hne], by rwa [htaken.blobs hne]⟩
    · rw [hcall]
      exact ⟨ht, hbytes⟩

private theorem dead_afterCalls (n : ℕ) : ∃ buried, (afterCalls loads n s).dead = s.dead ++ buried ∧
    ∀ d ∈ buried, d.payload ≠ [] := by
  refine iterate_invariant (P := fun t : Store => ∃ buried, t.dead = s.dead ++ buried ∧
    ∀ d ∈ buried, d.payload ≠ []) ?_ ⟨[], (List.append_nil _).symm, by simp⟩ n
  rintro t ⟨buried, hdead, hall⟩
  rcases flushOnce_cases loads t with ⟨-, hcall⟩ | ⟨head, -, hcall⟩
  · rw [hcall]
    exact ⟨buried, hdead, hall⟩
  · rcases hcall with ⟨u, htaken, hcall⟩ | ⟨-, failure, -, -, hcall⟩
    · obtain ⟨more, hmore, hfull⟩ := htaken.dead
      rw [hcall]
      refine ⟨buried ++ more, by rw [hmore, hdead, List.append_assoc], ?_⟩
      exact List.forall_mem_append.mpr ⟨hall, hfull⟩
    · rw [hcall]
      exact ⟨buried, hdead, hall⟩

private theorem encode_eq_nil {text : List Char} (h : Utf8.encode text = []) : text = [] := by
  have hdecode := Utf8.decode_encode text
  rw [h] at hdecode
  exact hdecode.symm

/-- The outbox drains exactly where every listed blob is digestible. -/
theorem drains_iff (loads : List Char → Except Failure Value) (s : Store) :
    Drains loads s ↔ ∀ eventId bytes, s.pending.get eventId ≠ none →
      s.blobs.get eventId = some bytes → Digestible loads bytes := by
  refine ⟨fun ⟨n, _, hdrained⟩ eventId bytes hlisted hblob => ?_, drains_of_digestible⟩
  by_contra hnot
  by_cases hempty : bytes = []
  · -- an empty text leaves no trace
    subst hempty
    obtain ⟨buried, hdead, hall⟩ := hdrained.buried
    obtain ⟨d, hd, -, hpayload⟩ := hall eventId [] hlisted hblob rfl
    obtain ⟨buried', hdead', hfull⟩ := @dead_afterCalls loads s n
    obtain rfl := List.append_cancel_left (hdead.symm.trans hdead')
    exact hfull d hd (encode_eq_nil hpayload)
  · exact (blocked_afterCalls hlisted hblob ⟨hempty, hnot⟩ n).1 (hdrained.empty eventId)

/-- The reading of two texts by `json.loads`: one with the number 7 for a customer id, one with `c1`. -/
def sampleLoads (text : List Char) : Except Failure Value :=
  let envelope (customerId : Value) : Value :=
    .obj [(codePoints "auth", .obj [(codePoints "customerId", customerId)])]
  if text = "\x7b\"auth\": \x7b\"customerId\": 7\x7d\x7d".toList then .ok (envelope .other)
  else if text = "\x7b\"auth\": \x7b\"customerId\": \"c1\"\x7d\x7d".toList then
    .ok (envelope (.str (codePoints "c1")))
  else .error .valueError

/-- A number as customer id in front of a well-formed envelope. -/
def numberFirst : Store where
  blobs := Table.ofList [("e1", Utf8.encode "\x7b\"auth\": \x7b\"customerId\": 7\x7d\x7d".toList),
    ("e2", Utf8.encode "\x7b\"auth\": \x7b\"customerId\": \"c1\"\x7d\x7d".toList)]
  pending := Table.ofList [("e1", 1), ("e2", 2)]

/-- Every call raises `AttributeError`, and the envelope behind the number is never published. -/
theorem not_drains : ¬ Drains sampleLoads numberFirst ∧
    flushOnce sampleLoads numberFirst = (numberFirst, .raised .attributeError) ∧
    ∀ n, (afterCalls sampleLoads n numberFirst).published = [] := by
  have holdest : numberFirst.oldest = some "e1" := by
    have hrows : numberFirst.pending.rows = [("e1", 1), ("e2", 2)] := by decide +kernel
    unfold Store.oldest Table.rangeByScore
    rw [hrows, List.filter_eq_self.mpr fun _ _ => rfl, List.mergeSort_of_pairwise (by decide)]
    rfl
  have hblob : numberFirst.blobs.get "e1" =
      some (Utf8.encode "\x7b\"auth\": \x7b\"customerId\": 7\x7d\x7d".toList) := by decide +kernel
  have hcall : flushOnce sampleLoads numberFirst = (numberFirst, .raised .attributeError) := by
    have hdecode : decode (Utf8.encode "\x7b\"auth\": \x7b\"customerId\": 7\x7d\x7d".toList) =
        some "\x7b\"auth\": \x7b\"customerId\": 7\x7d\x7d".toList := by decide +kernel
    unfold flushOnce
    rw [holdest]
    dsimp only
    rw [hblob]
    dsimp only
    rw [hdecode]
    rfl
  have hstays : ∀ n, afterCalls sampleLoads n numberFirst = numberFirst :=
    fun n => Function.iterate_fixed (congrArg Prod.fst hcall) n
  refine ⟨?_, hcall, fun n => by rw [hstays]; rfl⟩
  rintro ⟨n, -, hdrained⟩
  have hempty := hdrained.empty "e1"
  rw [hstays] at hempty
  exact get_of_oldest holdest hempty

end Calls

end FluxMeter.Gateway.OutboxDrain
