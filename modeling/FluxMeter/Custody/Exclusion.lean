import FluxMeter.Custody.Attempt
import Mathlib.Tactic.SplitIfs

/-! Exclusion and terminality of a custody identity: one attempt holds the entry at a time, an
attempt with a live message holds it, and only its holder can release it. -/
namespace FluxMeter.Custody

namespace Attempt

/-- What holds of every attempt whose timeout is not overwritten: where its thread, its callback
and its late job can be, and that a release is due only while the message is known not to be live
and no release has run. -/
structure Sound (a : Attempt) : Prop where
  fresh : (a.pc = .idle ∨ ∃ c, a.pc = .answered c) →
    a.message = .unsent ∧ a.holds = false ∧ a.timedOut = false ∧ a.outcome = none
  producing : a.pc = .producing →
    a.message = .unsent ∧ a.outcome = none ∧ a.holds = true ∧ a.timedOut = false
  message : a.HasMessage → a.holds = true
  waiting : a.pc = .waiting → a.timedOut = false ∧ a.holds = true
  inTimeout : (a.pc = .testing ∨ (∃ r, a.pc = .judging r) ∨ (∃ r l, a.pc = .overwriting r l) ∨
    ∃ r l, a.pc = .reconciling r l) → a.timedOut = true
  dispatched : a.reconciliationDispatched = true → a.timedOut = true
  late : a.late ≠ .absent → a.reconciliationDispatched = true
  callback : (a.message = .unsent ∨ a.message = .inFlight) → a.callback = .absent
  outcome : ∀ error, a.outcome = some error → error ≠ .uncertain →
    a.message = .unsent ∨ a.message = .failed
  definite : (a.pc = .waiting ∨ a.pc = .testing ∨ ∃ r, a.pc = .judging r) →
    a.outcome ≠ some .uncertain
  judged : (∃ r, a.pc = .overwriting r false ∨ a.pc = .reconciling r false) →
    a.message = .unsent ∨ a.message = .failed
  overwritten : a.kind = .batch → a.timedOut = true →
    (a.pc = .collecting ∨ ∃ r l, a.pc = .reconciling r l) → a.outcome = some .uncertain
  batch : (a.pc = .collecting ∨ (∃ r, a.pc = .judging r) ∨ ∃ r l, a.pc = .overwriting r l) →
    a.kind = .batch
  collecting : a.pc = .collecting → a.timedOut = false → a.holds = true
  releasing : a.pc = .releasing →
    (a.message = .unsent ∨ a.message = .failed) ∧ a.holds = true ∧ a.timedOut = false
  remembering : (∃ n, a.pc = .remembering n) → a.timedOut = false
  queued : (∃ n, a.late = .queued false n) →
    (a.message = .unsent ∨ a.message = .failed) ∧ a.holds = true
  undispatched : a.timedOut = true → a.reconciliationDispatched = false → a.holds = true

theorem sound_init : Sound {} := by
  constructor <;> simp [HasMessage]

variable {retries : ℕ} {entry entry' : Option String} {a b : Attempt} {m : Move}

theorem Sound.notLive (h : Sound a) (hdefinite : a.outcome ≠ some .uncertain)
    (hsome : a.outcome.isNone = false) : a.message = .unsent ∨ a.message = .failed := by
  cases hcase : a.outcome with
  | none => simp [hcase] at hsome
  | some error => exact h.outcome error hcase fun heq => hdefinite (heq ▸ hcase)

variable (entry) in
theorem sound_claim (h : Sound a) (hidle : a.pc = .idle) (kind : Kind) (fingerprint : String) :
    Sound (claim entry a kind fingerprint).2 := by
  obtain ⟨hmessage, hholds, htimedOut, houtcome⟩ := h.fresh (Or.inl hidle)
  unfold claim
  split
  · constructor <;> grind -ring -linarith [Sound, HasMessage]
  · constructor <;> grind -ring -linarith [Sound, HasMessage]

theorem sound_produce {error : Option PublishError} (h : Sound a) (hpc : a.pc = .producing)
    (hb : produce a error = some b) : Sound b := by
  obtain ⟨hmessage, houtcome, hholds, htimedOut⟩ := h.producing hpc
  unfold produce at hb
  split at hb
  · obtain rfl := Option.some.inj hb
    constructor <;> grind -ring -linarith [Sound, HasMessage]
  · simp at hb
  · split at hb
    · obtain rfl := Option.some.inj hb
      constructor <;> grind -ring -linarith [Sound, HasMessage]
    · obtain rfl := Option.some.inj hb
      constructor <;> grind -ring -linarith [Sound, HasMessage]

theorem sound_dispatchLate {succeeded : Bool} (h : Sound a) (htimedOut : a.timedOut = true)
    (hfailed : succeeded = false → a.message = .unsent ∨ a.message = .failed) :
    Sound (dispatchLate retries a succeeded) := by
  unfold dispatchLate
  split_ifs with hdispatched
  · exact h
  · constructor <;> grind -ring -linarith [Sound, HasMessage]

theorem dispatchLate_pc (succeeded : Bool) : (dispatchLate retries a succeeded).pc = a.pc := by
  unfold dispatchLate
  split_ifs <;> rfl

/-- After the timeout branch a single attempt is marked, a batch one waits for the others. -/
theorem sound_reconciled {r l : Bool} (h : Sound a) (hpc : a.pc = .reconciling r l) (kind : Kind)
    (hkind : kind = a.kind) :
    Sound { a with pc := if kind = .single then .marking else .collecting } := by
  have htimedOut := h.inTimeout (by simp [hpc])
  subst hkind
  cases hcase : a.kind with
  | single => constructor <;> grind -ring -linarith [Sound, HasMessage]
  | batch => constructor <;> grind -ring -linarith [Sound, HasMessage]

theorem dispatchLate_kind (succeeded : Bool) :
    (dispatchLate retries a succeeded).kind = a.kind := by
  unfold dispatchLate
  split_ifs <;> rfl

theorem sound_thread (h : Sound a) (hb : thread retries a = some b) : Sound b := by
  unfold thread at hb
  split at hb
  next hpc hkind =>
    -- the wait of a single attempt is over
    split_ifs at hb with hdelivered houtcome
    · have hnotLive := h.notLive (h.definite (Or.inl hpc)) (by simpa using houtcome)
      obtain rfl := Option.some.inj hb
      constructor <;> grind -ring -linarith [Sound, HasMessage]
    · obtain rfl := Option.some.inj hb
      constructor <;> grind -ring -linarith [Sound, HasMessage]
  next hpc hkind =>
    split_ifs at hb
    obtain rfl := Option.some.inj hb
    constructor <;> grind -ring -linarith [Sound, HasMessage]
  next hpc hkind =>
    have hnotLive := h.notLive (h.definite (Or.inr (Or.inl hpc)))
    obtain rfl := Option.some.inj hb
    constructor <;> grind -ring -linarith [Sound, HasMessage]
  next hpc hkind =>
    obtain rfl := Option.some.inj hb
    constructor <;> grind -ring -linarith [Sound, HasMessage]
  next inRace hpc =>
    have hnotLive := h.notLive (h.definite (Or.inr (Or.inr ⟨inRace, hpc⟩)))
    obtain rfl := Option.some.inj hb
    constructor <;> grind -ring -linarith [Sound, HasMessage]
  next inRace lateSucceeded hpc =>
    obtain rfl := Option.some.inj hb
    constructor <;> grind -ring -linarith [Sound, HasMessage]
  next inRace lateSucceeded hpc =>
    obtain rfl := Option.some.inj hb
    cases inRace with
    | false => exact sound_reconciled h hpc _ rfl
    | true =>
      have hdispatch : Sound (dispatchLate retries a lateSucceeded) := by
        apply sound_dispatchLate h (h.inTimeout (by simp [hpc]))
        intro hfalse
        exact h.judged ⟨true, Or.inr (hfalse ▸ hpc)⟩
      exact sound_reconciled hdispatch ((dispatchLate_pc _).trans hpc) _ (dispatchLate_kind _).symm
  next hpc =>
    split at hb
    all_goals
      obtain rfl := Option.some.inj hb
      constructor <;> grind -ring -linarith [Sound, HasMessage]
  next hpc =>
    obtain rfl := Option.some.inj hb
    constructor <;> grind -ring -linarith [Sound, HasMessage]
  next => simp at hb

/-- The callback of a message that is delivered or failed goes on. -/
theorem sound_called (h : Sound a) (hcalled : a.message = .delivered ∨ a.message = .failed)
    (next : Callback) : Sound { a with callback := next } := by
  constructor <;> grind -ring -linarith [Sound, HasMessage]

theorem dispatchLate_message (succeeded : Bool) :
    (dispatchLate retries a succeeded).message = a.message := by
  unfold dispatchLate
  split_ifs <;> rfl

theorem sound_onDelivery (h : Sound a) (hok : overwritesTimeout a .callback = false)
    (hb : onDelivery retries a = some b) : Sound b := by
  unfold onDelivery at hb
  split at hb
  next hcallback =>
    split_ifs at hb
    · obtain rfl := Option.some.inj hb
      constructor <;> grind -ring -linarith [Sound, HasMessage, overwritesTimeout]
    · obtain rfl := Option.some.inj hb
      constructor <;> grind -ring -linarith [Sound, HasMessage]
  next hcallback =>
    obtain rfl := Option.some.inj hb
    constructor <;> grind -ring -linarith [Sound, HasMessage]
  next hcallback =>
    obtain rfl := Option.some.inj hb
    have hcalled : a.message = .delivered ∨ a.message = .failed := by
      have hnot : ¬ (a.message = .unsent ∨ a.message = .inFlight) := fun hmessage => by
        rw [h.callback hmessage] at hcallback
        cases hcallback
      cases hmessage : a.message <;> simp [hmessage] at hnot ⊢
    by_cases htimedOut : a.timedOut = true
    · simp only [if_pos htimedOut]
      apply sound_called
      · apply sound_dispatchLate h htimedOut
        intro hfalse
        right
        exact hcalled.resolve_left (by simpa using hfalse)
      · rw [dispatchLate_message]
        exact hcalled
    · simp only [if_neg htimedOut]
      exact sound_called h hcalled _
  next => simp at hb

/-- Every move of a sound attempt that does not overwrite its timeout leaves it sound. -/
theorem sound_advance (h : Sound a) (hok : overwritesTimeout a m = false)
    (hb : advance retries entry a m = some (entry', b)) : Sound b := by
  cases m with
  | claim kind fingerprint =>
    simp only [advance] at hb
    split_ifs at hb with hidle
    have hsound := sound_claim entry h hidle kind fingerprint
    rw [Option.some.inj hb] at hsound
    exact hsound
  | produce error =>
    simp only [advance] at hb
    split_ifs at hb with hpc
    obtain ⟨b', hproduce, heq⟩ := Option.map_eq_some_iff.mp hb
    obtain rfl := (Prod.mk.inj heq).2
    exact sound_produce h hpc hproduce
  | thread =>
    obtain ⟨b', hthread, heq⟩ := Option.map_eq_some_iff.mp hb
    obtain rfl := (Prod.mk.inj heq).2
    exact sound_thread h hthread
  | timeout =>
    simp only [advance] at hb
    split_ifs at hb with hpc
    obtain rfl := (Prod.mk.inj (Option.some.inj hb)).2
    constructor <;> grind -ring -linarith [Sound, HasMessage]
  | report succeeded =>
    simp only [advance] at hb
    split_ifs at hb with hmessage
    all_goals
      obtain rfl := (Prod.mk.inj (Option.some.inj hb)).2
      constructor <;> grind -ring -linarith [Sound, HasMessage]
  | callback =>
    obtain ⟨b', hcallback, heq⟩ := Option.map_eq_some_iff.mp hb
    obtain rfl := (Prod.mk.inj heq).2
    exact sound_onDelivery h hok hcallback
  | remember executed raised others =>
    simp only [advance, remember] at hb
    split at hb
    next tries hpc =>
      split_ifs at hb
      all_goals
        obtain rfl := (Prod.mk.inj (Option.some.inj hb)).2
        constructor <;> grind -ring -linarith [Sound, HasMessage]
    next => simp at hb
  | mark executed =>
    simp only [advance] at hb
    split_ifs at hb with hpc
    all_goals
      obtain rfl := (Prod.mk.inj (Option.some.inj hb)).2
      constructor <;> grind -ring -linarith [Sound, HasMessage]
  | release executed =>
    simp only [advance] at hb
    split_ifs at hb with hpc
    all_goals
      obtain rfl := (Prod.mk.inj (Option.some.inj hb)).2
      constructor <;> grind -ring -linarith [Sound, HasMessage]
  | lateRemember executed raised =>
    simp only [advance, lateRemember] at hb
    split at hb
    next hlate =>
      obtain rfl := (Prod.mk.inj (Option.some.inj hb)).2
      constructor <;> grind -ring -linarith [Sound, HasMessage]
    next tries hlate =>
      obtain rfl := (Prod.mk.inj (Option.some.inj hb)).2
      constructor <;> grind -ring -linarith [Sound, HasMessage]
    next => simp at hb
  | lateRelease executed =>
    simp only [advance] at hb
    split at hb
    next tries hlate =>
      obtain rfl := (Prod.mk.inj (Option.some.inj hb)).2
      constructor <;> grind -ring -linarith [Sound, HasMessage]
    next => simp at hb

/-! ### The entry -/

/-- The moves of the thread and the callback between script calls keep what the entry depends
on. -/
def SameClaim (a b : Attempt) : Prop := b.holds = a.holds ∧ b.fingerprint = a.fingerprint

theorem sameClaim_dispatchLate (succeeded : Bool) : SameClaim a (dispatchLate retries a succeeded) := by
  unfold dispatchLate
  split_ifs <;> exact ⟨rfl, rfl⟩

theorem sameClaim_produce {error : Option PublishError} (hb : produce a error = some b) :
    SameClaim a b := by
  unfold produce at hb
  split at hb
  next => exact Option.some.inj hb ▸ ⟨rfl, rfl⟩
  next => simp at hb
  next => split at hb <;> exact Option.some.inj hb ▸ ⟨rfl, rfl⟩

theorem sameClaim_thread (hb : thread retries a = some b) : SameClaim a b := by
  unfold thread at hb
  split at hb
  next => split_ifs at hb <;> exact Option.some.inj hb ▸ ⟨rfl, rfl⟩
  next => split_ifs at hb; exact Option.some.inj hb ▸ ⟨rfl, rfl⟩
  next => exact Option.some.inj hb ▸ ⟨rfl, rfl⟩
  next => exact Option.some.inj hb ▸ ⟨rfl, rfl⟩
  next => exact Option.some.inj hb ▸ ⟨rfl, rfl⟩
  next => exact Option.some.inj hb ▸ ⟨rfl, rfl⟩
  next inRace lateSucceeded _ =>
    obtain rfl := Option.some.inj hb
    cases inRace with
    | false => exact ⟨rfl, rfl⟩
    | true =>
      show SameClaim a (dispatchLate retries a lateSucceeded)
      exact sameClaim_dispatchLate lateSucceeded
  next => split at hb <;> exact Option.some.inj hb ▸ ⟨rfl, rfl⟩
  next => exact Option.some.inj hb ▸ ⟨rfl, rfl⟩
  next => simp at hb

theorem sameClaim_onDelivery (hb : onDelivery retries a = some b) : SameClaim a b := by
  unfold onDelivery at hb
  split at hb
  next => split_ifs at hb <;> exact Option.some.inj hb ▸ ⟨rfl, rfl⟩
  next => exact Option.some.inj hb ▸ ⟨rfl, rfl⟩
  next =>
    obtain rfl := Option.some.inj hb
    by_cases htimedOut : a.timedOut = true
    · simp only [if_pos htimedOut]
      show SameClaim a (dispatchLate retries a _)
      exact sameClaim_dispatchLate _
    · simp only [if_neg htimedOut]
      exact ⟨rfl, rfl⟩
  next => simp at hb

/-- What a move does to the entry: the claim of a new owner, a transition of a phase, or a release
by an attempt that may release. -/
theorem advance_entry (hb : advance retries entry a m = some (entry', b)) :
    (entry = none ∧ entry' = some (entryText .pending b.fingerprint) ∧ b.holds = true) ∨
    ((entry' = entry ∨ ∃ target f, entry' = transitioned target f entry) ∧ b.holds = a.holds ∧
      (a.pc = .idle ∨ b.fingerprint = a.fingerprint)) ∨
    (a.MayRelease ∧ entry' = released a.fingerprint entry ∧ b.holds = false) := by
  have hkeeps : ∀ {b' : Attempt}, SameClaim a b' → (entry, b') = (entry', b) →
      (entry' = entry ∨ ∃ target f, entry' = transitioned target f entry) ∧ b.holds = a.holds ∧
        (a.pc = .idle ∨ b.fingerprint = a.fingerprint) := by
    intro b' hsame heq
    obtain ⟨rfl, rfl⟩ := Prod.mk.inj heq
    exact ⟨Or.inl rfl, hsame.1, Or.inr hsame.2⟩
  cases m with
  | claim kind fingerprint =>
    simp only [advance, claim] at hb
    split_ifs at hb with hidle
    split at hb
    next hanswer =>
      left
      obtain rfl := claimAnswer_eq_owner.mp hanswer
      obtain ⟨rfl, rfl⟩ := Prod.mk.inj (Option.some.inj hb)
      exact ⟨rfl, rfl, rfl⟩
    next =>
      right
      left
      obtain ⟨rfl, rfl⟩ := Prod.mk.inj (Option.some.inj hb)
      exact ⟨Or.inl rfl, rfl, Or.inl hidle⟩
  | produce error =>
    simp only [advance] at hb
    split_ifs at hb
    obtain ⟨b', hproduce, heq⟩ := Option.map_eq_some_iff.mp hb
    exact Or.inr (Or.inl (hkeeps (sameClaim_produce hproduce) heq))
  | thread =>
    obtain ⟨b', hthread, heq⟩ := Option.map_eq_some_iff.mp hb
    exact Or.inr (Or.inl (hkeeps (sameClaim_thread hthread) heq))
  | timeout =>
    simp only [advance] at hb
    split_ifs at hb
    obtain ⟨rfl, rfl⟩ := Prod.mk.inj (Option.some.inj hb)
    exact Or.inr (Or.inl ⟨Or.inl rfl, rfl, Or.inr rfl⟩)
  | report succeeded =>
    simp only [advance] at hb
    split_ifs at hb
    all_goals
      obtain ⟨rfl, rfl⟩ := Prod.mk.inj (Option.some.inj hb)
      exact Or.inr (Or.inl ⟨Or.inl rfl, rfl, Or.inr rfl⟩)
  | callback =>
    obtain ⟨b', hcallback, heq⟩ := Option.map_eq_some_iff.mp hb
    exact Or.inr (Or.inl (hkeeps (sameClaim_onDelivery hcallback) heq))
  | remember executed raised others =>
    right
    left
    simp only [advance, remember] at hb
    split at hb
    next tries hpc =>
      split_ifs at hb
      all_goals
        obtain ⟨rfl, rfl⟩ := Prod.mk.inj (Option.some.inj hb)
        refine ⟨?_, rfl, Or.inr rfl⟩
        first | exact Or.inl rfl | exact Or.inr ⟨_, _, rfl⟩
    next => simp at hb
  | mark executed =>
    right
    left
    simp only [advance] at hb
    split_ifs at hb with hpc
    · obtain ⟨rfl, rfl⟩ := Prod.mk.inj (Option.some.inj hb)
      exact ⟨Or.inr ⟨_, _, rfl⟩, rfl, Or.inr rfl⟩
    · obtain ⟨rfl, rfl⟩ := Prod.mk.inj (Option.some.inj hb)
      exact ⟨Or.inl rfl, rfl, Or.inr rfl⟩
  | release executed =>
    simp only [advance] at hb
    split_ifs at hb with hpc hexecuted
    · obtain ⟨rfl, rfl⟩ := Prod.mk.inj (Option.some.inj hb)
      exact Or.inr (Or.inr ⟨Or.inl hpc, rfl, by simp [hexecuted]⟩)
    · obtain ⟨rfl, rfl⟩ := Prod.mk.inj (Option.some.inj hb)
      exact Or.inr (Or.inl ⟨Or.inl rfl, by simp [hexecuted], Or.inr rfl⟩)
  | lateRemember executed raised =>
    right
    left
    simp only [advance, lateRemember] at hb
    split at hb
    next hlate =>
      obtain ⟨rfl, rfl⟩ := Prod.mk.inj (Option.some.inj hb)
      exact ⟨Or.inl rfl, rfl, Or.inr rfl⟩
    next tries hlate =>
      obtain ⟨rfl, rfl⟩ := Prod.mk.inj (Option.some.inj hb)
      refine ⟨?_, rfl, Or.inr rfl⟩
      cases executed with
      | true => exact Or.inr ⟨_, _, rfl⟩
      | false => exact Or.inl rfl
    next => simp at hb
  | lateRelease executed =>
    simp only [advance] at hb
    split at hb
    next succeeded tries hlate =>
      obtain ⟨rfl, rfl⟩ := Prod.mk.inj (Option.some.inj hb)
      cases executed with
      | true => exact Or.inr (Or.inr ⟨Or.inr ⟨_, hlate⟩, rfl, by simp⟩)
      | false => exact Or.inr (Or.inl ⟨Or.inl rfl, by simp, Or.inr rfl⟩)
    next => simp at hb

/-- An attempt that may release holds the entry. -/
theorem Sound.holds_of_mayRelease (h : Sound a) (hrelease : a.MayRelease) : a.holds = true := by
  rcases hrelease with hpc | hlate
  · exact (h.releasing hpc).2.1
  · exact (h.queued hlate).2

end Attempt

namespace IdentityState
open Attempt

/-- One attempt holds the entry, which is then an entry of its fingerprint. -/
structure Exclusive (s : IdentityState) : Prop where
  sound : ∀ i, (s.attempts i).Sound
  entry : ∀ v, s.entry = some v → ∃ phase f, v = entryText phase f
  held : ∀ i, (s.attempts i).holds = true →
    ∃ phase, s.entry = some (entryText phase (s.attempts i).fingerprint)
  unique : ∀ i j, (s.attempts i).holds = true → (s.attempts j).holds = true → i = j

theorem exclusive_init {entry : Option String}
    (hentry : ∀ v, entry = some v → ∃ phase f, v = entryText phase f) :
    Exclusive (init entry) where
  sound _ := sound_init
  entry := hentry
  held i h := by simp [init] at h
  unique i j h := by simp [init] at h

variable {retries : ℕ} {s t : IdentityState} {p : ℕ × Move}

/-- The step of exclusion: a claim is granted on a free entry only, transitions keep the
fingerprint, and the attempt that releases is the one that holds. -/
theorem exclusive_step (h : Exclusive s) (hok : overwritesTimeout (s.attempts p.1) p.2 = false)
    (hstep : step retries s p = some t) : Exclusive t := by
  obtain ⟨i, m⟩ := p
  obtain ⟨⟨entry', b⟩, hb, rfl⟩ := Option.map_eq_some_iff.mp hstep
  dsimp only at hok hb ⊢
  have hsound : ∀ j, (Function.update s.attempts i b j).Sound := by
    intro j
    by_cases hj : j = i
    · subst hj
      rw [Function.update_self]
      exact sound_advance (h.sound j) hok hb
    · rw [Function.update_of_ne hj]
      exact h.sound j
  rcases advance_entry hb with
    ⟨hfree, hentry, hholds⟩ | ⟨hentry, hholds, hfingerprint⟩ | ⟨hrelease, hentry, hholds⟩
  · -- a new owner: nobody held a free entry
    have hnone : ∀ j, (s.attempts j).holds = false := by
      intro j
      by_contra hj
      obtain ⟨phase, hheld⟩ := h.held j (by simpa using hj)
      rw [hfree] at hheld
      cases hheld
    have honly : ∀ j, (Function.update s.attempts i b j).holds = true → j = i := by
      intro j hj
      by_contra hne
      rw [Function.update_of_ne hne, hnone] at hj
      cases hj
    constructor
    case sound => exact hsound
    case entry =>
      intro v hv
      rw [hentry] at hv
      exact ⟨_, _, (Option.some.inj hv).symm⟩
    case held =>
      intro j hj
      obtain rfl := honly j hj
      dsimp only
      rw [Function.update_self]
      exact ⟨_, hentry⟩
    case unique =>
      intro j k hj hk
      rw [honly j hj, honly k hk]
  · have hsame : ∀ j, (Function.update s.attempts i b j).holds = (s.attempts j).holds := by
      intro j
      by_cases hj : j = i
      · subst hj
        rw [Function.update_self, hholds]
      · rw [Function.update_of_ne hj]
    have hphase : ∀ phase f, s.entry = some (entryText phase f) →
        ∃ phase', entry' = some (entryText phase' f) := by
      intro phase f hold
      rcases hentry with heq | ⟨target, g, heq⟩
      · exact ⟨phase, heq.trans hold⟩
      · rw [heq, hold]
        exact transitioned_entry target phase f g
    constructor
    case sound => exact hsound
    case entry =>
      intro v hv
      cases hold : s.entry with
      | none =>
        rcases hentry with heq | ⟨target, g, heq⟩
        · rw [heq, hold] at hv
          cases hv
        · rw [heq, hold, transitioned_none] at hv
          cases hv
      | some w =>
        obtain ⟨phase, f, rfl⟩ := h.entry w hold
        obtain ⟨phase', hnew⟩ := hphase phase f hold
        rw [hnew] at hv
        exact ⟨_, _, (Option.some.inj hv).symm⟩
    case held =>
      intro j hj
      have hheld := hj
      dsimp only at hheld
      rw [hsame] at hheld
      obtain ⟨phase, hold⟩ := h.held j hheld
      obtain ⟨phase', hnew⟩ := hphase phase _ hold
      refine ⟨phase', ?_⟩
      dsimp only
      by_cases hji : j = i
      · subst hji
        have hbusy : (s.attempts j).pc ≠ .idle := fun hidle => by
          rw [((h.sound j).fresh (Or.inl hidle)).2.1] at hheld
          cases hheld
        rw [Function.update_self, hfingerprint.resolve_left hbusy]
        exact hnew
      · rw [Function.update_of_ne hji]
        exact hnew
    case unique =>
      intro j k hj hk
      dsimp only at hj hk
      rw [hsame] at hj hk
      exact h.unique j k hj hk
  · have hholder := (h.sound i).holds_of_mayRelease hrelease
    have hnone : ∀ j, (Function.update s.attempts i b j).holds = false := by
      intro j
      by_cases hj : j = i
      · subst hj
        rw [Function.update_self, hholds]
      · rw [Function.update_of_ne hj]
        by_contra hother
        exact hj (h.unique j i (by simpa using hother) hholder)
    constructor
    case sound => exact hsound
    case entry =>
      intro v hv
      rw [hentry] at hv
      unfold released at hv
      split_ifs at hv
      exact h.entry v hv
    case held =>
      intro j hj
      dsimp only at hj
      rw [hnone] at hj
      cases hj
    case unique =>
      intro j k hj
      dsimp only at hj
      rw [hnone] at hj
      cases hj

theorem accepted_step {f : String} (h : s.entry = some (entryText .accepted f))
    (hstep : step retries s p = some t) : t.entry = some (entryText .accepted f) := by
  obtain ⟨⟨entry', b⟩, hb, rfl⟩ := Option.map_eq_some_iff.mp hstep
  rw [h] at hb
  rcases advance_entry hb with ⟨hfree, -⟩ | ⟨hentry, -⟩ | ⟨-, hentry, -⟩
  · cases hfree
  · rcases hentry with heq | ⟨target, g, heq⟩
    · exact heq
    · rw [heq]
      exact transitioned_accepted target f g
  · exact hentry.trans (released_accepted f (s.attempts p.1).fingerprint)

/-- No two attempts have a message in flight or delivered, and an attempt that may release is the
only one that holds the entry. -/
def OneMessage (s : IdentityState) : Prop :=
  (∀ i j, (s.attempts i).HasMessage → (s.attempts j).HasMessage → i = j) ∧
  ∀ i j, (s.attempts i).MayRelease → (s.attempts j).holds = true → j = i

theorem oneMessage_of_exclusive (h : Exclusive s) : OneMessage s :=
  ⟨fun i j hi hj => h.unique i j ((h.sound i).message hi) ((h.sound j).message hj),
    fun i j hi hj => h.unique j i hj ((h.sound i).holds_of_mayRelease hi)⟩

/-- In every run in which no callback overwrites the timeout of a batch message before the caller
reads it: at most one message is live, an accepted entry stays, and a claim on an entry is never
granted. -/
theorem identity_exclusion (retries : ℕ) (entry : Option String)
    (hentry : ∀ v, entry = some v → ∃ phase f, v = entryText phase f)
    (moves : List (ℕ × Move)) (s : IdentityState)
    (hok : Transition.Guarded (step retries)
      (fun s p => overwritesTimeout (s.attempts p.1) p.2 = false) (init entry) moves)
    (hrun : Transition.run (step retries) (init entry) moves = some s) :
    OneMessage s ∧
    (∀ f later t, s.entry = some (entryText .accepted f) →
      Transition.run (step retries) s later = some t → t.entry = some (entryText .accepted f)) ∧
    ∀ v, s.entry = some v → ∃ f,
      claimAnswer (some v) f ∈ [.same, .pending, .uncertain] ∧
      ∀ g, g ≠ f → claimAnswer (some v) g = .conflict := by
  have hexclusive : Exclusive s := Transition.guarded_invariant
    (fun s p t h hp hstep => exclusive_step h hp hstep) (exclusive_init hentry) hok hrun
  refine ⟨oneMessage_of_exclusive hexclusive, ?_, ?_⟩
  · intro f later t hf hlater
    exact Transition.run_invariant (P := fun s => s.entry = some (entryText .accepted f))
      (fun s p t h hstep => accepted_step h hstep) hf hlater
  · intro v hv
    obtain ⟨phase, f, rfl⟩ := hexclusive.entry v hv
    refine ⟨f, ?_, fun g hg => ?_⟩
    · rw [claimAnswer_entry, if_pos rfl]
      cases phase <;> simp
    · rw [claimAnswer_entry, if_neg fun heq => hg heq.symm]

/-- A timeout whose late delivery succeeds, with a second client in between. -/
theorem identity_exclusion_late :
    OneMessage ((Transition.run (step 3) (init none)
      [(0, .claim .batch "f"), (0, .produce none), (0, .timeout), (0, .thread), (0, .thread),
        (0, .thread), (0, .thread), (1, .claim .single "f"), (0, .report true), (0, .callback),
        (0, .callback), (0, .callback), (0, .thread), (0, .mark true),
        (0, .lateRemember true false)]).get (by decide +kernel)) :=
  (identity_exclusion 3 none (by simp) _ _ (by decide +kernel)
    (Option.some_get (by decide +kernel)).symm).1

/-- The delivery of a batch message fails after its timeout: the callback writes its error over
the outcome, so that the caller and the late job both release. The second release removes the
claim of another attempt, and a third one produces a second message. -/
theorem not_identity_exclusion :
    ∃ s, Transition.run (step 3) (init none)
      [(0, .claim .batch "f"), (0, .produce none), (0, .timeout), (0, .thread), (0, .thread),
        (0, .thread), (0, .report false), (0, .callback), (0, .callback), (0, .callback),
        (0, .thread), (0, .thread), (0, .release true), (1, .claim .single "f"),
        (1, .produce none), (0, .lateRelease true), (2, .claim .single "f"),
        (2, .produce none)] = some s ∧ ¬ OneMessage s := by
  refine ⟨_, (Option.some_get (by decide +kernel)).symm, fun h => ?_⟩
  have heq := h.1 1 2 (Or.inl (by decide +kernel)) (Or.inl (by decide +kernel))
  cases heq

end IdentityState

end FluxMeter.Custody
