import FluxMeter.Custody.Accept
import FluxMeter.Custody.Exclusion

/-! An accepted identity has a delivered message: an attempt remembers its identity only after the
broker has acknowledged its message, and a client is told so only then. -/
namespace FluxMeter.Custody

namespace Attempt
variable {retries : ℕ} {entry entry' : Option String} {a b : Attempt} {m : Move}

/-- Where the delivery of the message is known. -/
structure Confirmed (a : Attempt) : Prop where
  remembering : (∃ n, a.pc = .remembering n) → a.message = .delivered
  late : (∃ n, a.late = .queued true n) → a.message = .delivered
  signalled : a.delivered = true → a.outcome = none → a.message = .delivered
  setting : a.callback = .setting → a.outcome = none → a.message = .delivered
  judging : a.pc = .judging true → a.delivered = true
  raced : (a.pc = .overwriting true true ∨ a.pc = .reconciling true true) → a.message = .delivered
  collecting : a.pc = .collecting → a.outcome = none → a.message = .delivered

theorem confirmed_init : Confirmed {} := by
  constructor <;> simp

variable (entry) in
theorem confirmed_claim (h : Confirmed a) (kind : Kind) (fingerprint : String) :
    Confirmed (claim entry a kind fingerprint).2 := by
  unfold claim
  split
  · constructor <;> grind -ring -linarith [Confirmed]
  · constructor <;> grind -ring -linarith [Confirmed]

theorem confirmed_produce {error : Option PublishError} (hs : Sound a) (h : Confirmed a)
    (hpc : a.pc = .producing) (hb : produce a error = some b) : Confirmed b := by
  obtain ⟨hmessage, houtcome, -, -⟩ := hs.producing hpc
  unfold produce at hb
  split at hb
  · obtain rfl := Option.some.inj hb
    constructor <;> grind -ring -linarith [Confirmed, Sound]
  · cases hb
  · split at hb
    all_goals
      obtain rfl := Option.some.inj hb
      constructor <;> grind -ring -linarith [Confirmed]

theorem confirmed_dispatchLate {succeeded : Bool} (h : Confirmed a)
    (hdelivered : succeeded = true → a.message = .delivered) :
    Confirmed (dispatchLate retries a succeeded) := by
  unfold dispatchLate
  split_ifs
  · exact h
  · constructor <;> grind -ring -linarith [Confirmed]

private theorem confirmed_pc (h : Confirmed a) {pc : Pc} (hremembering : ∀ n, pc ≠ .remembering n)
    (hjudging : pc ≠ .judging true) (hover : pc ≠ .overwriting true true)
    (hreconciling : pc ≠ .reconciling true true)
    (hcollecting : pc = .collecting → a.outcome = none → a.message = .delivered) :
    Confirmed { a with pc } := by
  constructor <;> grind -ring -linarith [Confirmed]

private theorem confirmed_thread (hs : Sound a) (h : Confirmed a) (hb : thread retries a = some b) :
    Confirmed b := by
  unfold thread at hb
  split at hb
  next hpc hkind =>
    -- the wait of a single attempt is over
    split_ifs at hb with hdelivered houtcome
    · obtain rfl := Option.some.inj hb
      constructor <;> grind -ring -linarith [Confirmed]
    · have hmessage := h.signalled (by simpa using hdelivered) (by simpa using houtcome)
      obtain rfl := Option.some.inj hb
      constructor <;> grind -ring -linarith [Confirmed]
  next hpc hkind =>
    split_ifs at hb
    obtain rfl := Option.some.inj hb
    constructor <;> grind -ring -linarith [Confirmed]
  next hpc hkind =>
    have hraced : a.delivered = true → a.outcome.isNone = true → a.message = .delivered :=
      fun hdelivered houtcome => h.signalled hdelivered (by simpa using houtcome)
    obtain rfl := Option.some.inj hb
    constructor <;> grind -ring -linarith [Confirmed]
  next hpc hkind =>
    obtain rfl := Option.some.inj hb
    constructor <;> grind -ring -linarith [Confirmed]
  next inRace hpc =>
    have hraced : inRace = true → a.outcome.isNone = true → a.message = .delivered :=
      fun hinRace houtcome => h.signalled (h.judging (hinRace ▸ hpc)) (by simpa using houtcome)
    obtain rfl := Option.some.inj hb
    constructor <;> grind -ring -linarith [Confirmed]
  next inRace lateSucceeded hpc =>
    obtain rfl := Option.some.inj hb
    constructor <;> grind -ring -linarith [Confirmed]
  next inRace lateSucceeded hpc =>
    obtain rfl := Option.some.inj hb
    -- in the timeout branch the outcome of a batch message is uncertain
    have htimedOut := hs.inTimeout (by simp [hpc])
    have hovertaken : a.kind = .batch → a.outcome = some .uncertain := fun hkind =>
      hs.overwritten hkind htimedOut (Or.inr ⟨_, _, hpc⟩)
    have hnext : ∀ c : Attempt, Confirmed c → c.kind = a.kind → c.outcome = a.outcome →
        Confirmed { c with pc := if a.kind = .single then .marking else .collecting } := by
      intro c hc hkind houtcome
      apply confirmed_pc hc
      all_goals cases hcase : a.kind <;> simp [hcase, houtcome, hovertaken]
    cases inRace with
    | false => exact hnext a h rfl rfl
    | true =>
      have hdispatch : Confirmed (dispatchLate retries a lateSucceeded) :=
        confirmed_dispatchLate h fun hsucceeded => h.raced (Or.inr (hsucceeded ▸ hpc))
      have hsame : (dispatchLate retries a lateSucceeded).outcome = a.outcome := by
        unfold dispatchLate
        split_ifs <;> rfl
      exact hnext _ hdispatch (dispatchLate_kind _) hsame
  next hpc =>
    split at hb
    all_goals
      obtain rfl := Option.some.inj hb
      constructor <;> grind -ring -linarith [Confirmed]
  next hpc =>
    obtain rfl := Option.some.inj hb
    constructor <;> grind -ring -linarith [Confirmed]
  next => cases hb

private theorem confirmed_onDelivery (hs : Sound a) (h : Confirmed a)
    (hb : onDelivery retries a = some b) : Confirmed b := by
  have hcalled : a.callback ≠ .absent → a.message = .delivered ∨ a.message = .failed := by
    intro hcallback
    have hnot : ¬ (a.message = .unsent ∨ a.message = .inFlight) := fun hmessage =>
      hcallback (hs.callback hmessage)
    cases hmessage : a.message <;> simp [hmessage] at hnot ⊢
  unfold onDelivery at hb
  split at hb
  next hcallback =>
    split_ifs at hb
    all_goals
      obtain rfl := Option.some.inj hb
      constructor <;> grind -ring -linarith [Confirmed]
  next hcallback =>
    obtain rfl := Option.some.inj hb
    constructor <;> grind -ring -linarith [Confirmed]
  next hcallback =>
    obtain rfl := Option.some.inj hb
    have hnext : ∀ c : Attempt, Confirmed c → Confirmed { c with callback := .finished } := by
      intro c hc
      constructor <;> grind -ring -linarith [Confirmed]
    apply hnext
    split_ifs
    · exact confirmed_dispatchLate h of_decide_eq_true
    · exact h
  next => cases hb

theorem confirmed_advance (hs : Sound a) (h : Confirmed a)
    (hb : advance retries entry a m = some (entry', b)) : Confirmed b := by
  cases m with
  | claim kind fingerprint =>
    simp only [advance] at hb
    split_ifs at hb with hidle
    have hconfirmed := confirmed_claim entry h kind fingerprint
    rw [Option.some.inj hb] at hconfirmed
    exact hconfirmed
  | produce error =>
    simp only [advance] at hb
    split_ifs at hb with hpc
    obtain ⟨b', hproduce, heq⟩ := Option.map_eq_some_iff.mp hb
    obtain rfl := (Prod.mk.inj heq).2
    exact confirmed_produce hs h hpc hproduce
  | thread =>
    obtain ⟨b', hthread, heq⟩ := Option.map_eq_some_iff.mp hb
    obtain rfl := (Prod.mk.inj heq).2
    exact confirmed_thread hs h hthread
  | timeout =>
    simp only [advance] at hb
    split_ifs at hb with hpc
    obtain rfl := (Prod.mk.inj (Option.some.inj hb)).2
    constructor <;> grind -ring -linarith [Confirmed]
  | report succeeded =>
    simp only [advance] at hb
    split_ifs at hb with hmessage
    all_goals
      obtain rfl := (Prod.mk.inj (Option.some.inj hb)).2
      constructor <;> grind -ring -linarith [Confirmed]
  | callback =>
    obtain ⟨b', hcallback, heq⟩ := Option.map_eq_some_iff.mp hb
    obtain rfl := (Prod.mk.inj heq).2
    exact confirmed_onDelivery hs h hcallback
  | remember executed raised others =>
    simp only [advance, remember] at hb
    split at hb
    next tries hpc =>
      split_ifs at hb
      all_goals
        obtain rfl := (Prod.mk.inj (Option.some.inj hb)).2
        constructor <;> grind -ring -linarith [Confirmed]
    next => cases hb
  | mark executed =>
    simp only [advance] at hb
    split_ifs at hb with hpc
    all_goals
      obtain rfl := (Prod.mk.inj (Option.some.inj hb)).2
      constructor <;> grind -ring -linarith [Confirmed]
  | release executed =>
    simp only [advance] at hb
    split_ifs at hb with hpc
    all_goals
      obtain rfl := (Prod.mk.inj (Option.some.inj hb)).2
      constructor <;> grind -ring -linarith [Confirmed]
  | lateRemember executed raised =>
    simp only [advance, lateRemember] at hb
    split at hb
    next hlate =>
      obtain rfl := (Prod.mk.inj (Option.some.inj hb)).2
      constructor <;> grind -ring -linarith [Confirmed]
    next tries hlate =>
      obtain rfl := (Prod.mk.inj (Option.some.inj hb)).2
      constructor <;> grind -ring -linarith [Confirmed]
    next => cases hb
  | lateRelease executed =>
    simp only [advance] at hb
    split at hb
    next tries hlate =>
      obtain rfl := (Prod.mk.inj (Option.some.inj hb)).2
      constructor <;> grind -ring -linarith [Confirmed]
    next => cases hb

/-! ### What a move keeps -/

private theorem message_thread (hb : thread retries a = some b) : b.message = a.message := by
  unfold thread at hb
  split at hb
  next => split_ifs at hb <;> exact Option.some.inj hb ▸ rfl
  next => split_ifs at hb; exact Option.some.inj hb ▸ rfl
  next => exact Option.some.inj hb ▸ rfl
  next => exact Option.some.inj hb ▸ rfl
  next => exact Option.some.inj hb ▸ rfl
  next => exact Option.some.inj hb ▸ rfl
  next inRace lateSucceeded _ =>
    obtain rfl := Option.some.inj hb
    cases inRace with
    | false => rfl
    | true => exact dispatchLate_message lateSucceeded
  next => split at hb <;> exact Option.some.inj hb ▸ rfl
  next => exact Option.some.inj hb ▸ rfl
  next => cases hb

private theorem message_onDelivery (hb : onDelivery retries a = some b) : b.message = a.message := by
  unfold onDelivery at hb
  split at hb
  next => split_ifs at hb <;> exact Option.some.inj hb ▸ rfl
  next => exact Option.some.inj hb ▸ rfl
  next =>
    obtain rfl := Option.some.inj hb
    dsimp only
    split_ifs
    · exact dispatchLate_message _
    · rfl
  next => cases hb

theorem kept_advance (hs : Sound a) (hbusy : a.pc ≠ .idle)
    (hb : advance retries entry a m = some (entry', b)) :
    b.fingerprint = a.fingerprint ∧ (a.message = .delivered → b.message = .delivered) := by
  cases m with
  | claim kind fingerprint =>
    simp only [advance] at hb
    rw [if_neg hbusy] at hb
    cases hb
  | produce error =>
    simp only [advance] at hb
    split_ifs at hb with hpc
    obtain ⟨b', hproduce, heq⟩ := Option.map_eq_some_iff.mp hb
    obtain rfl := (Prod.mk.inj heq).2
    refine ⟨(sameClaim_produce hproduce).2, fun hmessage => ?_⟩
    rw [(hs.producing hpc).1] at hmessage
    cases hmessage
  | thread =>
    obtain ⟨b', hthread, heq⟩ := Option.map_eq_some_iff.mp hb
    obtain rfl := (Prod.mk.inj heq).2
    exact ⟨(sameClaim_thread hthread).2, fun hmessage => (message_thread hthread).trans hmessage⟩
  | timeout =>
    simp only [advance] at hb
    split_ifs at hb
    obtain rfl := (Prod.mk.inj (Option.some.inj hb)).2
    exact ⟨rfl, id⟩
  | report succeeded =>
    simp only [advance] at hb
    split at hb
    next hinFlight =>
      obtain rfl := (Prod.mk.inj (Option.some.inj hb)).2
      refine ⟨rfl, fun hmessage => ?_⟩
      rw [hinFlight] at hmessage
      cases hmessage
    next => cases hb
  | callback =>
    obtain ⟨b', hcallback, heq⟩ := Option.map_eq_some_iff.mp hb
    obtain rfl := (Prod.mk.inj heq).2
    exact ⟨(sameClaim_onDelivery hcallback).2,
      fun hmessage => (message_onDelivery hcallback).trans hmessage⟩
  | remember executed raised others =>
    simp only [advance, remember] at hb
    split at hb
    next tries hpc =>
      split_ifs at hb
      all_goals
        obtain rfl := (Prod.mk.inj (Option.some.inj hb)).2
        exact ⟨rfl, id⟩
    next => cases hb
  | mark executed =>
    simp only [advance] at hb
    split_ifs at hb
    all_goals
      obtain rfl := (Prod.mk.inj (Option.some.inj hb)).2
      exact ⟨rfl, id⟩
  | release executed =>
    simp only [advance] at hb
    split_ifs at hb
    all_goals
      obtain rfl := (Prod.mk.inj (Option.some.inj hb)).2
      exact ⟨rfl, id⟩
  | lateRemember executed raised =>
    simp only [advance, lateRemember] at hb
    split at hb
    next => exact (Prod.mk.inj (Option.some.inj hb)).2 ▸ ⟨rfl, id⟩
    next => exact (Prod.mk.inj (Option.some.inj hb)).2 ▸ ⟨rfl, id⟩
    next => cases hb
  | lateRelease executed =>
    simp only [advance] at hb
    split at hb
    next => exact (Prod.mk.inj (Option.some.inj hb)).2 ▸ ⟨rfl, id⟩
    next => cases hb

/-- An attempt starts with its claim. -/
theorem claim_of_idle (hs : Sound a) (hidle : a.pc = .idle)
    (hb : advance retries entry a m = some (entry', b)) :
    ∃ kind fingerprint, m = .claim kind fingerprint ∧ b.fingerprint = fingerprint := by
  obtain ⟨hmessage, -, htimedOut, -⟩ := hs.fresh (Or.inl hidle)
  have hlate : a.late = .absent := by
    by_contra hlate
    rw [hs.dispatched (hs.late hlate)] at htimedOut
    cases htimedOut
  have hcallback := hs.callback (Or.inl hmessage)
  cases m with
  | claim kind fingerprint =>
    refine ⟨kind, fingerprint, rfl, ?_⟩
    simp only [advance, claim] at hb
    rw [if_pos hidle] at hb
    split at hb <;> exact (Prod.mk.inj (Option.some.inj hb)).2 ▸ rfl
  | produce error => simp [advance, hidle] at hb
  | thread => simp [advance, thread, hidle] at hb
  | timeout => simp [advance, hidle] at hb
  | report succeeded => simp [advance, hmessage] at hb
  | callback => simp [advance, onDelivery, hcallback] at hb
  | remember executed raised others => simp [advance, remember, hidle] at hb
  | mark executed => simp [advance, hidle] at hb
  | release executed => simp [advance, hidle] at hb
  | lateRemember executed raised => simp [advance, lateRemember, hlate] at hb
  | lateRelease executed => simp [advance, hlate] at hb

/-! ### Acceptance -/

theorem accepted_of_transitioned {target : Phase} {f g : String}
    (h : transitioned target g entry = some (entryText .accepted f)) :
    entry = some (entryText .accepted f) ∨ (target = .accepted ∧ g = f) := by
  unfold transitioned at h
  split_ifs at h
  · exact Or.inr (entryText_inj.mp (Option.some.inj h))
  · exact Or.inl h

theorem accepted_of_released {f g : String}
    (h : released g entry = some (entryText .accepted f)) : entry = some (entryText .accepted f) := by
  unfold released at h
  split_ifs at h
  exact h

theorem accepted_of_claimed {f g : String}
    (h : claimed entry g = some (entryText .accepted f)) : entry = some (entryText .accepted f) := by
  cases entry with
  | none =>
    have hphase := (entryText_inj.mp (Option.some.inj h)).1
    cases hphase
  | some value => exact h

theorem accepted_of_same {f : String} (h : claimAnswer entry f = .same) :
    entry = some (entryText .accepted f) := by
  unfold claimAnswer at h
  split at h
  · cases h
  · split_ifs at h with haccepted
    rw [haccepted]

theorem accepted_of_matched {f : String} (h : transitionMatched .accepted f entry = true) :
    transitioned .accepted f entry = some (entryText .accepted f) := by
  unfold transitioned
  split_ifs with hallowed
  · rfl
  · unfold transitionMatched at h
    simpa [hallowed] using h

theorem accepted_advance {f : String} (h : Confirmed a)
    (hb : advance retries entry a m = some (entry', b))
    (haccepted : entry' = some (entryText .accepted f)) :
    entry = some (entryText .accepted f) ∨ (a.message = .delivered ∧ a.fingerprint = f) := by
  have hsame : ∀ {b' : Attempt}, (entry, b') = (entry', b) → entry = some (entryText .accepted f) :=
    fun heq => (Prod.mk.inj heq).1.trans haccepted
  have htransitioned : ∀ {target : Phase} {b' : Attempt},
      (transitioned target a.fingerprint entry, b') = (entry', b) →
        entry = some (entryText .accepted f) ∨ (target = .accepted ∧ a.fingerprint = f) :=
    fun heq => accepted_of_transitioned ((Prod.mk.inj heq).1.trans haccepted)
  cases m with
  | claim kind fingerprint =>
    simp only [advance, claim] at hb
    split_ifs at hb
    split at hb
    · exact Or.inl (accepted_of_claimed ((Prod.mk.inj (Option.some.inj hb)).1.trans haccepted))
    · exact Or.inl (hsame (Option.some.inj hb))
  | produce error =>
    simp only [advance] at hb
    split_ifs at hb
    obtain ⟨b', -, heq⟩ := Option.map_eq_some_iff.mp hb
    exact Or.inl (hsame heq)
  | thread =>
    obtain ⟨b', -, heq⟩ := Option.map_eq_some_iff.mp hb
    exact Or.inl (hsame heq)
  | timeout =>
    simp only [advance] at hb
    split_ifs at hb
    exact Or.inl (hsame (Option.some.inj hb))
  | report succeeded =>
    simp only [advance] at hb
    split at hb
    · exact Or.inl (hsame (Option.some.inj hb))
    · cases hb
  | callback =>
    obtain ⟨b', -, heq⟩ := Option.map_eq_some_iff.mp hb
    exact Or.inl (hsame heq)
  | remember executed raised others =>
    simp only [advance, remember] at hb
    split at hb
    next tries hpc =>
      have hmessage := h.remembering ⟨_, hpc⟩
      split_ifs at hb
      all_goals first
        | exact Or.inl (hsame (Option.some.inj hb))
        | exact (htransitioned (Option.some.inj hb)).imp_right fun hf => ⟨hmessage, hf.2⟩
    next => cases hb
  | mark executed =>
    simp only [advance] at hb
    split_ifs at hb
    · exact (htransitioned (Option.some.inj hb)).imp_right fun hf => absurd hf.1 (by decide)
    · exact Or.inl (hsame (Option.some.inj hb))
  | release executed =>
    simp only [advance] at hb
    split_ifs at hb
    · exact Or.inl (accepted_of_released ((Prod.mk.inj (Option.some.inj hb)).1.trans haccepted))
    · exact Or.inl (hsame (Option.some.inj hb))
  | lateRemember executed raised =>
    simp only [advance, lateRemember] at hb
    split at hb
    next => exact Or.inl (hsame (Option.some.inj hb))
    next tries hlate =>
      cases executed with
      | true =>
        exact (htransitioned (Option.some.inj hb)).imp_right fun hf => ⟨h.late ⟨_, hlate⟩, hf.2⟩
      | false => exact Or.inl (hsame (Option.some.inj hb))
    next => cases hb
  | lateRelease executed =>
    simp only [advance] at hb
    split at hb
    next =>
      have hentry := (Prod.mk.inj (Option.some.inj hb)).1.trans haccepted
      cases executed with
      | true => exact Or.inl (accepted_of_released hentry)
      | false => exact Or.inl hentry
    next => cases hb

/-- What the request of an attempt is told when the attempt ends. -/
def told (suspicious : Bool) (a : Attempt) (m : Move) (b : Attempt) : Option Status :=
  match m, b.pc with
  | .claim _ _, .answered answer => (claimResult "" answer).map Result.status
  | .remember _ _ _, .finished => some (if suspicious then .quarantined else .accepted)
  | .mark _, .finished => some .uncertain
  | .release _, .finished => a.outcome.map fun error => (errorResult "" error).status
  | _, _ => none

/-- A request is told of custody only when the entry is accepted for its fingerprint. -/
theorem accepted_of_told {suspicious : Bool} {status : Status}
    (hb : advance retries entry a m = some (entry', b))
    (htold : told suspicious a m b = some status)
    (hstatus : status = .accepted ∨ status = .quarantined) :
    entry' = some (entryText .accepted b.fingerprint) := by
  unfold told at htold
  split at htold
  next kind fingerprint answer hpc =>
    obtain ⟨result, hresult, rfl⟩ := Option.map_eq_some_iff.mp htold
    obtain rfl := same_of_claimResult hresult hstatus
    simp only [advance, claim] at hb
    split_ifs at hb
    split at hb
    · obtain ⟨-, rfl⟩ := Prod.mk.inj (Option.some.inj hb)
      cases hpc
    · obtain ⟨rfl, rfl⟩ := Prod.mk.inj (Option.some.inj hb)
      exact accepted_of_same (Pc.answered.inj hpc)
  next executed raised others hpc =>
    simp only [advance, remember] at hb
    split at hb
    next tries _ =>
      cases hraised : raised with
      | true =>
        -- a failed try does not end the attempt
        rw [hraised, if_pos rfl] at hb
        obtain ⟨-, rfl⟩ := Prod.mk.inj (Option.some.inj hb)
        dsimp only at hpc
        split_ifs at hpc
      | false =>
        rw [hraised, if_neg Bool.false_ne_true] at hb
        cases executed with
        | false => cases hb
        | true =>
          simp only [Bool.not_true, Bool.false_eq_true, if_false, if_true] at hb
          split_ifs at hb with hmatched
          · obtain ⟨rfl, rfl⟩ := Prod.mk.inj (Option.some.inj hb)
            exact accepted_of_matched (Bool.and_eq_true_iff.mp hmatched).1
          · obtain ⟨-, rfl⟩ := Prod.mk.inj (Option.some.inj hb)
            cases hpc
    next => cases hb
  next =>
    obtain rfl := Option.some.inj htold
    simp at hstatus
  next =>
    obtain ⟨error, -, rfl⟩ := Option.map_eq_some_iff.mp htold
    obtain ⟨-, haccepted, hquarantined⟩ := errorResult_facts "" error
    exact absurd hstatus (not_or.mpr ⟨haccepted, hquarantined⟩)
  next => cases htold

end Attempt

namespace IdentityState
open Attempt
variable {retries : ℕ} {s t : IdentityState} {p : ℕ × Move}

/-- An accepted entry is the entry of an attempt whose message was delivered. -/
structure Backed (s : IdentityState) : Prop where
  confirmed : ∀ i, (s.attempts i).Confirmed
  delivered : ∀ f, s.entry = some (entryText .accepted f) →
    ∃ i, (s.attempts i).message = .delivered ∧ (s.attempts i).fingerprint = f

theorem backed_init : Backed (init none) where
  confirmed _ := confirmed_init
  delivered f h := by cases h

theorem backed_step (hs : Exclusive s) (h : Backed s) (hstep : step retries s p = some t) :
    Backed t := by
  obtain ⟨i, m⟩ := p
  obtain ⟨⟨entry', b⟩, hb, rfl⟩ := Option.map_eq_some_iff.mp hstep
  dsimp only at hb ⊢
  have hkept : ∀ j f, (s.attempts j).message = .delivered → (s.attempts j).fingerprint = f →
      (Function.update s.attempts i b j).message = .delivered ∧
        (Function.update s.attempts i b j).fingerprint = f := by
    intro j f hmessage hf
    by_cases hj : j = i
    · subst hj
      have hbusy : (s.attempts j).pc ≠ .idle := fun hidle => by
        rw [((hs.sound j).fresh (Or.inl hidle)).1] at hmessage
        cases hmessage
      obtain ⟨hfingerprint, hdelivered⟩ := kept_advance (hs.sound j) hbusy hb
      rw [Function.update_self]
      exact ⟨hdelivered hmessage, hfingerprint.trans hf⟩
    · rw [Function.update_of_ne hj]
      exact ⟨hmessage, hf⟩
  constructor
  case confirmed =>
    intro j
    dsimp only
    by_cases hj : j = i
    · subst hj
      rw [Function.update_self]
      exact confirmed_advance (hs.sound j) (h.confirmed j) hb
    · rw [Function.update_of_ne hj]
      exact h.confirmed j
  case delivered =>
    intro f hf
    rcases accepted_advance (h.confirmed i) hb hf with hbefore | ⟨hmessage, hfingerprint⟩
    · obtain ⟨j, hmessage, hfingerprint⟩ := h.delivered f hbefore
      exact ⟨j, hkept j f hmessage hfingerprint⟩
    · exact ⟨i, hkept i f hmessage hfingerprint⟩

/-- The message of an accepted entry is the only one. -/
theorem sole_of_accepted (hs : Exclusive s) (h : Backed s) {f : String}
    (hf : s.entry = some (entryText .accepted f)) :
    ∃ i, (s.attempts i).message = .delivered ∧ (s.attempts i).fingerprint = f ∧
      ∀ j, (s.attempts j).HasMessage → j = i := by
  obtain ⟨i, hmessage, hfingerprint⟩ := h.delivered f hf
  exact ⟨i, hmessage, hfingerprint,
    fun j hj => (oneMessage_of_exclusive hs).1 j i hj (Or.inr hmessage)⟩

end IdentityState

end FluxMeter.Custody
