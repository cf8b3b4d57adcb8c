import FluxMeter.Custody.IdentityCalls
import FluxMeter.Wire.JsonText

/-! What a fingerprint says of a payload. It is taken from the canonical text before the server adds
its clock, so that equal payloads, and no others, have equal fingerprints at any two times. -/
namespace FluxMeter.Custody
open FluxMeter.Wire Collections Transition

/-! ### The canonical text -/

/-- The text that `canonical_payload_hash` hashes. -/
def canonicalText (floatText : ℚ → List Char) (payload : Dict) (tenant : String) : String :=
  String.ofList (dumps floatText (.obj [("tenantId", .str tenant), ("payload", .obj payload)]))

/-- The runtime encodes payloads as `json.dumps` does. -/
def Python.Canonical (py : Python) : Prop :=
  ∃ floatText, ∀ payload tenant, py.canonical payload tenant = canonicalText floatText payload tenant

theorem plain_identity {payload : Dict} (h : Json.Plain (.obj payload)) (tenant : String) :
    Json.Plain (.obj [("tenantId", .str tenant), ("payload", .obj payload)]) := by
  have hkeys : ["tenantId", "payload"].Nodup := by decide
  rw [Json.Plain]
  refine ⟨hkeys, plainFields_iff.mpr ?_⟩
  simp only [List.forall_mem_cons]
  exact ⟨trivial, h, List.forall_mem_nil _⟩

theorem canonicalText_inj (float : ℚ → List Char) (tenant : String) {payload payload' : Dict}
    (h : Json.Plain (.obj payload)) (h' : Json.Plain (.obj payload')) :
    canonicalText float payload tenant = canonicalText float payload' tenant ↔
      Json.Same (.obj payload) (.obj payload') := by
  unfold canonicalText
  rw [String.ofList_inj, dumps_eq_iff float (plain_identity h tenant) (plain_identity h' tenant)]
  rw [Json.Same]
  simp only [Json.SameFields]
  constructor
  · rintro ⟨-, -, ⟨w, hw, hsame⟩, -⟩
    have hpayload : Dict.get [("tenantId", .str tenant), ("payload", .obj payload')] "payload" =
        some (.obj payload') := rfl
    rw [hpayload] at hw
    rw [Option.some.inj hw]
    exact hsame
  · intro hsame
    exact ⟨rfl, ⟨.str tenant, rfl, rfl⟩, ⟨.obj payload', rfl, hsame⟩, trivial⟩

/-! ### Submissions -/

/-- An event as it is given to `_prepare_payload`, with the time of that call. -/
structure Submission where
  event : Dict
  reservationId : Option String := none
  clock : ℤ

/-- The event id and the payload before the server clock. -/
def Submission.identified (py : Python) (x : Submission) : Option (String × Dict) :=
  (resolveCustodyEventId py x.event x.reservationId).map fun eventId =>
    (eventId, Dict.set x.event "eventId" (.str eventId))

/-- The identity that Custody claims for the submission. -/
def Submission.identity (C : IdentityContext) (x : Submission) : Option (String × String) :=
  (x.identified C.py).map fun p => (p.1, C.py.canonicalPayloadHash p.2 C.tenantId)

/-- `_prepare_payload`. -/
def Submission.prepared (C : IdentityContext) (x : Submission) : Option (Dict × String) :=
  preparePayload C.py x.event C.tenantId x.reservationId x.clock

/-- The fingerprint is that of the payload before the clock. -/
theorem Submission.prepared_eq (C : IdentityContext) (x : Submission) :
    x.prepared C = (x.identified C.py).map fun p =>
      (if (p.2.get "timestamp").isNone then Dict.set p.2 "timestamp" (.num x.clock) else p.2,
        C.py.canonicalPayloadHash p.2 C.tenantId) := by
  unfold prepared preparePayload identified
  rw [Option.map_map]
  rfl

private theorem keys_set (d : Dict) (key : String) (value : Json) :
    (Dict.set d key value).map Prod.fst =
      if key ∈ d.map Prod.fst then d.map Prod.fst else d.map Prod.fst ++ [key] := by
  induction d with
  | nil => simp [Dict.set]
  | cons p d ih =>
    obtain ⟨k, v⟩ := p
    unfold Dict.set
    by_cases hk : k = key
    · subst hk
      simp
    · rw [if_neg hk, List.map_cons, ih]
      simp only [List.map_cons, List.mem_cons, Ne.symm hk, false_or]
      split_ifs <;> rfl

private theorem mem_set {d : Dict} {key : String} {value : Json} {p : String × Json}
    (h : p ∈ Dict.set d key value) : p ∈ d ∨ p = (key, value) := by
  induction d with
  | nil =>
    rw [Dict.set, List.mem_singleton] at h
    exact Or.inr h
  | cons q d ih =>
    obtain ⟨k, v⟩ := q
    rw [Dict.set] at h
    split_ifs at h with hk
    · rcases List.mem_cons.mp h with h | h
      · rw [hk] at h
        exact Or.inr h
      · exact Or.inl (List.mem_cons_of_mem _ h)
    · rcases List.mem_cons.mp h with h | h
      · exact Or.inl (List.mem_cons.mpr (Or.inl h))
      · exact (ih h).imp_left (List.mem_cons_of_mem _)

private theorem plain_set {d : Dict} (h : Json.Plain (.obj d)) (key text : String) :
    Json.Plain (.obj (Dict.set d key (.str text))) := by
  rw [Json.Plain] at h ⊢
  obtain ⟨hkeys, hvalues⟩ := h
  rw [plainFields_iff] at hvalues ⊢
  constructor
  · rw [keys_set]
    split_ifs with hmem
    · exact hkeys
    · exact List.Nodup.append hkeys (List.nodup_singleton key) (by simpa using hmem)
  · intro p hp
    rcases mem_set hp with hp | rfl
    · exact hvalues p hp
    · trivial

theorem Submission.identified_plain {py : Python} {x : Submission} {p : String × Dict}
    (hx : Json.Plain (.obj x.event)) (h : x.identified py = some p) : Json.Plain (.obj p.2) := by
  obtain ⟨eventId, -, rfl⟩ := Option.map_eq_some_iff.mp h
  exact plain_set hx "eventId" eventId

/-- SHA-256 has no collision on the ids and the canonical texts of the submissions. -/
structure NoCollision (C : IdentityContext) (xs : List Submission) : Prop where
  ids : ∀ x ∈ xs, ∀ y ∈ xs, ∀ p ∈ x.identified C.py, ∀ q ∈ y.identified C.py,
    C.py.sha256 p.1 = C.py.sha256 q.1 → p.1 = q.1
  texts : ∀ x ∈ xs, ∀ y ∈ xs, ∀ p ∈ x.identified C.py, ∀ q ∈ y.identified C.py,
    C.py.canonicalPayloadHash p.2 C.tenantId = C.py.canonicalPayloadHash q.2 C.tenantId →
      C.py.canonical p.2 (tenantOrDefault C.tenantId) =
        C.py.canonical q.2 (tenantOrDefault C.tenantId)

section Faithful
variable {C : IdentityContext} {xs : List Submission} {x y : Submission} {p q : String × Dict}

/-- Fingerprints are equal exactly when the payloads before the clock are. -/
theorem fingerprint_iff (hcanonical : C.py.Canonical) (hsha : NoCollision C xs)
    (hplain : ∀ x ∈ xs, Json.Plain (.obj x.event)) (hx : x ∈ xs) (hy : y ∈ xs)
    (hp : x.identified C.py = some p) (hq : y.identified C.py = some q) :
    C.py.canonicalPayloadHash p.2 C.tenantId = C.py.canonicalPayloadHash q.2 C.tenantId ↔
      Json.Same (.obj p.2) (.obj q.2) := by
  obtain ⟨float, hfloat⟩ := hcanonical
  have hpPlain := Submission.identified_plain (hplain x hx) hp
  have hqPlain := Submission.identified_plain (hplain y hy) hq
  rw [← canonicalText_inj float (tenantOrDefault C.tenantId) hpPlain hqPlain, ← hfloat, ← hfloat]
  constructor
  · exact hsha.texts x hx y hy p hp q hq
  · intro htexts
    unfold Python.canonicalPayloadHash
    rw [htexts]

theorem locate_inj (hsha : NoCollision C xs) (hx : x ∈ xs) (hy : y ∈ xs)
    (hp : x.identified C.py = some p) (hq : y.identified C.py = some q)
    (h : C.locate p.1 = C.locate q.1) : p.1 = q.1 :=
  hsha.ids x hx y hy p hp q hq (congrArg Location.field h)

end Faithful

/-! ### Claims of fingerprints -/

namespace IdentityContext
open IdentityStore
variable {C : IdentityContext} {history : List Submission} {s : IdentityStore}

/-- The entries that claims and transitions of the submissions can write. -/
def EntryOf (C : IdentityContext) (history : List Submission) (l : Location) (value : String) :
    Prop :=
  ∃ y ∈ history, ∃ q, y.identified C.py = some q ∧ C.locate q.1 = l ∧
    ∃ phase, value = entryText phase (C.py.canonicalPayloadHash q.2 C.tenantId)

/-- Every entry is one of the submissions. -/
def Written (C : IdentityContext) (history : List Submission) (s : IdentityStore) : Prop :=
  ∀ l value, (s.slot l).text = some value → C.EntryOf history l value

private theorem written_empty : C.Written history .empty := by
  intro l value h
  cases h

theorem kept_written : Kept C.Owns (C.EntryOf history) (C.Written history) where
  put s h l _ value hvalue expiry := by
    intro l' value' hread
    rw [slot_put, Function.update_apply] at hread
    split_ifs at hread with hl
    · rw [hl, ← Option.some.inj hread]
      exact hvalue
    · exact h l' value' hread
  drop s h l _ := by
    intro l' value' hread
    rw [slot_drop, Function.update_apply] at hread
    split_ifs at hread
    exact h l' value' hread

private theorem written_calls {cs : List IdentityCall}
    (hcs : ∀ c ∈ cs, ∀ i ∈ c.identities, ∃ y ∈ history, y.identity C = some i) :
    C.Written history (C.calls cs .empty) := by
  refine keep_calls kept_written cs ?_ written_empty
  intro c hc i hi phase
  obtain ⟨y, hy, hidentity⟩ := hcs c hc i hi
  obtain ⟨q, hq, rfl⟩ := Option.map_eq_some_iff.mp hidentity
  exact ⟨y, hy, q, hq, rfl, phase, rfl⟩

private theorem claim_of_written (h : C.Written history s) (now : ℤ) (i : String × String) :
    (C.eventIdentityStatus now i s).2 = .owner ∨
      ∃ value, C.EntryOf history (C.locate i.1) value ∧
        (C.eventIdentityStatus now i s).2 = claimAnswer (some value) i.2 := by
  have hanswer : (C.eventIdentityStatus now i s).2 =
      claimAnswer ((s.live now (C.locate i.1)).map Prod.fst) i.2 := by
    unfold eventIdentityStatus
    dsimp only
    rw [(C.eventIdentityStatusBatch_statuses now [i] s).2, ← claimEntry_answer]
    rfl
  rw [hanswer]
  cases hlive : s.live now (C.locate i.1) with
  | none => exact Or.inl rfl
  | some entry =>
    exact Or.inr ⟨entry.1, h _ _ (current_of_live hlive), rfl⟩

/-- A claim owns its event id, or meets a submission of this event id; then it is in conflict
exactly when the payloads differ. -/
theorem claim_of_history {x : Submission} {p : String × Dict} {cs : List IdentityCall}
    (hcanonical : C.py.Canonical) (hsha : NoCollision C (x :: history))
    (hplain : ∀ y ∈ x :: history, Json.Plain (.obj y.event)) (hp : x.identified C.py = some p)
    (hcs : ∀ c ∈ cs, ∀ i ∈ c.identities, ∃ y ∈ history, y.identity C = some i) (now : ℤ) :
    let answer := (C.eventIdentityStatus now
      (p.1, C.py.canonicalPayloadHash p.2 C.tenantId) (C.calls cs .empty)).2
    answer = .owner ∨ ∃ y ∈ history, ∃ q, y.identified C.py = some q ∧ p.1 = q.1 ∧
      (answer = .conflict ↔ ¬ Json.Same (.obj p.2) (.obj q.2)) := by
  intro answer
  have hx : x ∈ x :: history := List.mem_cons_self
  rcases claim_of_written (written_calls hcs) now (p.1, _) with howner | ⟨value, hentry, hanswer⟩
  · exact Or.inl howner
  · obtain ⟨y, hy, q, hq, hlocate, phase, rfl⟩ := hentry
    have hy' : y ∈ x :: history := List.mem_cons_of_mem x hy
    refine Or.inr ⟨y, hy, q, hq, locate_inj hsha hx hy' hp hq hlocate.symm, ?_⟩
    have hread : answer = _ := hanswer
    rw [← fingerprint_iff hcanonical hsha hplain hx hy' hp hq, hread, claimAnswer_entry]
    split_ifs with hhash
    · cases phase <;> simp [hhash]
    · simp [Ne.symm hhash]

/-- What the fingerprints of submissions promise: at any two times they are equal exactly when the
payloads before the clock are, a submission whose event id had this payload only is never in
conflict, and one whose event id had other payloads only is never taken for them. -/
structure FaithfulFingerprints (C : IdentityContext) (x : Submission)
    (history : List Submission) : Prop where
  fingerprint : ∀ y ∈ history, ∀ p q r r', x.identified C.py = some p →
    y.identified C.py = some q → x.prepared C = some r → y.prepared C = some r' →
      (r.2 = r'.2 ↔ Json.Same (.obj p.2) (.obj q.2))
  retry : ∀ p, x.identified C.py = some p →
    (∀ y ∈ history, ∀ q, y.identified C.py = some q → p.1 = q.1 →
      Json.Same (.obj p.2) (.obj q.2)) →
    ∀ cs : List IdentityCall,
      (∀ c ∈ cs, ∀ i ∈ c.identities, ∃ y ∈ history, y.identity C = some i) →
        ∀ now, ∀ i, x.identity C = some i →
          (C.eventIdentityStatus now i (C.calls cs .empty)).2 ≠ .conflict
  different : ∀ p, x.identified C.py = some p →
    (∀ y ∈ history, ∀ q, y.identified C.py = some q → p.1 = q.1 →
      ¬ Json.Same (.obj p.2) (.obj q.2)) →
    ∀ cs : List IdentityCall,
      (∀ c ∈ cs, ∀ i ∈ c.identities, ∃ y ∈ history, y.identity C = some i) →
        ∀ now, ∀ i, x.identity C = some i →
          (C.eventIdentityStatus now i (C.calls cs .empty)).2 ≠ .same

theorem faithful_fingerprints (C : IdentityContext) (x : Submission) (history : List Submission)
    (hcanonical : C.py.Canonical) (hsha : NoCollision C (x :: history))
    (hplain : ∀ y ∈ x :: history, Json.Plain (.obj y.event)) :
    C.FaithfulFingerprints x history := by
  constructor
  case fingerprint =>
    intro y hy p q r r' hp hq hr hr'
    rw [Submission.prepared_eq, hp, Option.map_some] at hr
    rw [Submission.prepared_eq, hq, Option.map_some] at hr'
    rw [← Option.some.inj hr, ← Option.some.inj hr']
    exact fingerprint_iff hcanonical hsha hplain List.mem_cons_self (List.mem_cons_of_mem x hy) hp hq
  case retry =>
    intro p hp hsame cs hcs now i hi
    rw [Submission.identity, hp, Option.map_some] at hi
    rw [← Option.some.inj hi]
    rcases claim_of_history hcanonical hsha hplain hp hcs now with
      howner | ⟨y, hy, q, hq, heventId, hconflict⟩
    · rw [howner]
      exact Claim.noConfusion
    · exact fun h => hconflict.mp h (hsame y hy q hq heventId)
  case different =>
    intro p hp hother cs hcs now i hi
    rw [Submission.identity, hp, Option.map_some] at hi
    rw [← Option.some.inj hi]
    rcases claim_of_history hcanonical hsha hplain hp hcs now with
      howner | ⟨y, hy, q, hq, heventId, hconflict⟩
    · rw [howner]
      exact Claim.noConfusion
    · rw [hconflict.mpr (hother y hy q hq heventId)]
      exact Claim.noConfusion

end IdentityContext

/-- A runtime that encodes payloads as `json.dumps` does, with the digests of the sample events. -/
def Python.onTexts : Python :=
  { Python.ofEventId with
    canonical := canonicalText fun _ => []
    sha256 := fun text =>
      if text = "acme" then "822b33ad87c148a0a20a5ba7cd5ebcaa68d36a18e7aad165554903f52ca82757"
      else if text = "e1" then "8b5cc4df7eec7d32a7814eca4af047ae33b2d52342667715682e19c25b0b9faa"
      else if text = "\x7b\"payload\":\x7b\"eventId\":\"e1\",\"inputTokens\":10\x7d," ++
          "\"tenantId\":\"acme\"\x7d"
      then "52d0cfcdf86012835e82a4d2be6a9239a55c360b87e1b4afe3194a2ffde82d69"
      else "574c01834db7ba11cec608b7ab644b51bdee8728381d5165d9bad716e8dd3b0c" }

/-- An event with a count of input tokens, its keys in one order and in the other. -/
def countedEvent (inputTokens : ℤ) (swapped : Bool) : Dict :=
  if swapped then [("inputTokens", .num inputTokens), ("eventId", .str "e1")]
  else [("eventId", .str "e1"), ("inputTokens", .num inputTokens)]

theorem plain_countedEvent (inputTokens : ℤ) (swapped : Bool) :
    Json.Plain (.obj (countedEvent inputTokens swapped)) := by
  cases swapped <;> simp [countedEvent, Json.Plain, Json.PlainFields]

/-- A retry a second later with its keys in another order, and a change of the tokens. -/
def countedSubmissions : List Submission :=
  [⟨countedEvent 10 false, none, 1000⟩, ⟨countedEvent 10 true, none, 2000⟩,
    ⟨countedEvent 99 false, none, 3000⟩]

theorem identified_counted :
    ∀ x ∈ countedSubmissions, x.identified .onTexts = some ("e1", x.event) := by
  simp only [countedSubmissions, List.forall_mem_cons]
  exact ⟨rfl, rfl, rfl, List.forall_mem_nil _⟩

private theorem noCollision_counted :
    NoCollision (IdentityContext.mk .onTexts {} (some "acme")) countedSubmissions where
  ids x hx y hy p hp q hq _ := by
    rw [Option.mem_def, identified_counted x hx] at hp
    rw [Option.mem_def, identified_counted y hy] at hq
    rw [← Option.some.inj hp, ← Option.some.inj hq]
  texts x hx y hy p hp q hq heq := by
    have hdigests : ∀ x ∈ countedSubmissions, ∀ y ∈ countedSubmissions,
        Python.onTexts.canonicalPayloadHash x.event (some "acme") =
          Python.onTexts.canonicalPayloadHash y.event (some "acme") →
        Python.onTexts.canonical x.event "acme" = Python.onTexts.canonical y.event "acme" := by
      decide +kernel
    rw [Option.mem_def, identified_counted x hx] at hp
    rw [Option.mem_def, identified_counted y hy] at hq
    rw [← Option.some.inj hp, ← Option.some.inj hq] at heq ⊢
    exact hdigests x hx y hy heq

theorem faithful_fingerprints_retry :
    (IdentityContext.mk .onTexts {} (some "acme")).FaithfulFingerprints
      ⟨countedEvent 10 false, none, 1000⟩
      [⟨countedEvent 10 true, none, 2000⟩, ⟨countedEvent 99 false, none, 3000⟩] := by
  refine IdentityContext.faithful_fingerprints _ _ _ ⟨fun _ => [], fun _ _ => rfl⟩
    noCollision_counted ?_
  simp only [List.forall_mem_cons]
  exact ⟨plain_countedEvent 10 false, plain_countedEvent 10 true, plain_countedEvent 99 false,
    List.forall_mem_nil _⟩

end FluxMeter.Custody
