import FluxMeter.Transition.Runs
import Mathlib.Data.List.Basic
import Mathlib.Logic.Function.Basic

/-! `replay_pending_alerts` of `webhook_worker.py`: any number of workers take the head of the list
`budget-alerts:pending` in single steps, while sinks push to it and the broker decides on the copies. -/
namespace FluxMeter.Api.PendingAlerts
open Transition

/-- What `emitAlert` pushes when it cannot send. -/
structure PendingAlert where
  topic : String
  key : String
  payload : String
  deriving DecidableEq

/-- An entry of the list; equal alerts that are pushed twice have two entries. -/
structure Entry where
  id : ℕ
  alert : PendingAlert
  deriving DecidableEq

inductive Delivery
  | inFlight
  | acked
  | refused
  deriving DecidableEq

/-- A message of a producer; one of a worker that is gone has none. -/
structure Copy (ω : Type*) where
  producer : Option ω
  entry : Entry
  delivery : Delivery := .inFlight
  deriving DecidableEq

inductive Pc
  | idle
  | looking (left : ℕ)
  | producing (left : ℕ) (e : Entry)
  /-- `e` was produced as the message `copy`. -/
  | flushing (left : ℕ) (e : Entry) (copy : ℕ)
  | popping (left : ℕ) (e : Entry) (copy : ℕ)
  | dead
  deriving DecidableEq

structure System (ω : Type*) where
  pending : List Entry := []
  copies : List (Copy ω) := []
  workers : ω → Pc := fun _ => .idle
  /-- All entries that ever were in the list. -/
  pushed : List Entry := []
  /-- What was popped. -/
  removed : List Entry := []

inductive Action (ω : Type*)
  /-- `replay_pending_alerts` is called. -/
  | call (w : ω) (limit : ℕ)
  | lindex (w : ω)
  /-- `produce`, which may raise. -/
  | produce (w : ω) (queued : Bool)
  | flush (w : ω)
  | lpop (w : ω)
  /-- The worker ends, here or in a call that raises; nothing catches an exception of the replay. -/
  | crash (w : ω)
  | restart (w : ω)
  /-- The broker decides on a message. -/
  | settle (copy : ℕ) (accepted : Bool)
  | push (alert : PendingAlert)

section Steps
variable {ω : Type*} [DecidableEq ω]

def System.goTo (s : System ω) (w : ω) (pc : Pc) : System ω :=
  { s with workers := Function.update s.workers w pc }

/-- `flush(5) != 0`: a message that was refused does not count. -/
def System.unflushed (s : System ω) (w : ω) : Bool :=
  s.copies.any fun c => c.producer = some w ∧ c.delivery = .inFlight

/-- The messages of a producer that is gone; the broker may still get them. -/
def Copy.orphan (w : ω) (c : Copy ω) : Copy ω :=
  if c.producer = some w then { c with producer := none } else c

def step (s : System ω) : Action ω → Option (System ω)
  | .call w limit => if s.workers w = .idle then some (s.goTo w (.looking limit)) else none
  | .lindex w =>
    match s.workers w with
    | .looking 0 => some (s.goTo w .idle)
    | .looking (left + 1) =>
      match s.pending.head? with
      | none => some (s.goTo w .idle)
      | some e => some (s.goTo w (.producing left e))
    | _ => none
  | .produce w queued =>
    match s.workers w with
    | .producing left e =>
      if queued then
        some { s.goTo w (.flushing left e s.copies.length) with
          copies := s.copies ++ [⟨some w, e, .inFlight⟩] }
      else some (s.goTo w .dead)
    | _ => none
  | .flush w =>
    match s.workers w with
    | .flushing left e copy =>
      if s.unflushed w then some (s.goTo w .idle) else some (s.goTo w (.popping left e copy))
    | _ => none
  | .lpop w =>
    match s.workers w with
    | .popping left _ _ =>
      some { s.goTo w (.looking left) with
        pending := s.pending.tail
        removed := s.removed ++ s.pending.head?.toList }
    | _ => none
  | .crash w => some { s.goTo w .dead with copies := s.copies.map (Copy.orphan w) }
  | .restart w => if s.workers w = .dead then some (s.goTo w .idle) else none
  | .settle i accepted => do
    let c ← s.copies[i]?
    if c.delivery = .inFlight then
      some { s with
        copies := s.copies.set i { c with delivery := if accepted then .acked else .refused } }
    else none
  | .push alert =>
    some { s with
      pending := s.pending ++ [⟨s.pushed.length, alert⟩]
      pushed := s.pushed ++ [⟨s.pushed.length, alert⟩] }

/-- The broker has acknowledged a copy of the entry. -/
def Produced (s : System ω) (e : Entry) : Prop := ∃ c ∈ s.copies, c.entry = e ∧ c.delivery = .acked

/-- Every entry is in the list or was removed, in the order of the pushes, and none was removed
unproduced. -/
structure Lossless (s : System ω) : Prop where
  kept : s.removed ++ s.pending = s.pushed
  produced : ∀ e ∈ s.removed, Produced s e

/-- What a pop would take is the entry that its worker has looked at, whose copy was not refused. -/
def OwnHead (s : System ω) : Pc → Prop
  | .popping _ e copy => ∀ head ∈ s.pending.head?,
      head = e ∧ ∀ c ∈ s.copies[copy]?, c.delivery ≠ .refused
  | .idle | .looking _ | .producing _ _ | .flushing _ _ _ | .dead => True

def Own (s : System ω) : Action ω → Prop
  | .lpop w => OwnHead s (s.workers w)
  | .call _ _ | .lindex _ | .produce _ _ | .flush _ | .crash _ | .restart _ | .settle _ _ |
    .push _ => True

instance (s : System ω) (e : Entry) : Decidable (Produced s e) :=
  inferInstanceAs (Decidable (∃ c ∈ s.copies, _))

instance (s : System ω) : ∀ pc, Decidable (OwnHead s pc)
  | .popping _ e copy => inferInstanceAs (Decidable (∀ head ∈ s.pending.head?,
      head = e ∧ ∀ c ∈ s.copies[copy]?, c.delivery ≠ .refused))
  | .idle | .looking _ | .producing _ _ | .flushing _ _ _ | .dead => isTrue trivial

instance (s : System ω) : ∀ a : Action ω, Decidable (Own s a)
  | .lpop w => inferInstanceAs (Decidable (OwnHead s (s.workers w)))
  | .call _ _ | .lindex _ | .produce _ _ | .flush _ | .crash _ | .restart _ | .settle _ _ |
    .push _ => isTrue trivial

end Steps

/-! ### One step -/

section Invariant
variable {ω : Type*} {s t : System ω} {w : ω}

/-- A message that was produced for an entry is there as long as its worker is at it, and is decided
before the pop. -/
structure Inv (s : System ω) : Prop where
  kept : s.removed ++ s.pending = s.pushed
  produced : ∀ e ∈ s.removed, Produced s e
  flushing : ∀ w left e copy, s.workers w = .flushing left e copy →
    ∃ c, s.copies[copy]? = some c ∧ c.entry = e ∧ c.producer = some w
  popping : ∀ w left e copy, s.workers w = .popping left e copy →
    ∃ c, s.copies[copy]? = some c ∧ c.entry = e ∧ c.delivery ≠ .inFlight

/-- Copies that are known keep their entries, and what is decided stays so. -/
structure Extends (s t : System ω) : Prop where
  produced : ∀ e, Produced s e → Produced t e
  decided : ∀ (i : ℕ) (c : Copy ω), s.copies[i]? = some c → c.delivery ≠ .inFlight →
    ∃ c', t.copies[i]? = some c' ∧ c'.entry = c.entry ∧ c'.delivery ≠ .inFlight

theorem Extends.refl (s : System ω) {t : System ω} (hcopies : t.copies = s.copies) : Extends s t := by
  constructor
  case produced =>
    intro e he
    unfold Produced
    rw [hcopies]
    exact he
  case decided =>
    intro i c hc hdecided
    exact ⟨c, hcopies ▸ hc, rfl, hdecided⟩

variable [DecidableEq ω]

theorem Inv.goTo (h : Inv s) {pc : Pc} (hworkers : t.workers = Function.update s.workers w pc)
    (hextends : Extends s t)
    (hkept : t.removed ++ t.pending = t.pushed)
    (hremoved : ∀ e ∈ t.removed, e ∈ s.removed ∨ Produced t e)
    (hothers : ∀ v left e copy, v ≠ w → s.workers v = .flushing left e copy →
      ∃ c, t.copies[copy]? = some c ∧ c.entry = e ∧ c.producer = some v)
    (hflushing : ∀ left e copy, pc = .flushing left e copy →
      ∃ c, t.copies[copy]? = some c ∧ c.entry = e ∧ c.producer = some w)
    (hpopping : ∀ left e copy, pc = .popping left e copy →
      ∃ c, t.copies[copy]? = some c ∧ c.entry = e ∧ c.delivery ≠ .inFlight) : Inv t := by
  constructor
  case kept => exact hkept
  case produced =>
    intro e he
    rcases hremoved e he with hold | hnew
    · exact hextends.produced e (h.produced e hold)
    · exact hnew
  case flushing =>
    intro v left e copy hv
    rw [hworkers] at hv
    by_cases hw : v = w
    · subst hw
      rw [Function.update_self] at hv
      exact hflushing left e copy hv
    · rw [Function.update_of_ne hw] at hv
      exact hothers v left e copy hw hv
  case popping =>
    intro v left e copy hv
    rw [hworkers] at hv
    by_cases hw : v = w
    · subst hw
      rw [Function.update_self] at hv
      exact hpopping left e copy hv
    · rw [Function.update_of_ne hw] at hv
      obtain ⟨c, hc, rfl, hdecided⟩ := h.popping v left e copy hv
      exact hextends.decided copy c hc hdecided

theorem Inv.moves (h : Inv s) {pc : Pc}
    (hflushing : ∀ left e copy, pc ≠ .flushing left e copy)
    (hpopping : ∀ left e copy, pc = .popping left e copy →
      ∃ c, s.copies[copy]? = some c ∧ c.entry = e ∧ c.delivery ≠ .inFlight) :
    Inv (s.goTo w pc) :=
  h.goTo rfl (.refl s rfl) h.kept (fun _ he => Or.inl he)
    (fun v left e copy _ hv => h.flushing v left e copy hv)
    (fun left e copy hpc => absurd hpc (hflushing left e copy)) hpopping

theorem inv_produce {left : ℕ} {e : Entry} (h : Inv s) :
    Inv { s.goTo w (.flushing left e s.copies.length) with
      copies := s.copies ++ [⟨some w, e, .inFlight⟩] } := by
  have hold : ∀ (i : ℕ) (c : Copy ω), s.copies[i]? = some c →
      (s.copies ++ [⟨some w, e, .inFlight⟩])[i]? = some c := by
    intro i c hc
    rw [List.getElem?_append_left (List.getElem?_eq_some_iff.mp hc).1]
    exact hc
  refine h.goTo rfl ⟨fun e' he' => ?_, fun i c hc hdecided => ⟨c, hold i c hc, rfl, hdecided⟩⟩
    h.kept (fun _ he => Or.inl he) (fun v left e' copy _ hv => ?_) (fun left' e' copy hpc => ?_)
    fun left' e' copy hpc => ?_
  · obtain ⟨c, hc, hproduced⟩ := he'
    exact ⟨c, List.mem_append_left _ hc, hproduced⟩
  · obtain ⟨c, hc, hcopy⟩ := h.flushing v left e' copy hv
    exact ⟨c, hold copy c hc, hcopy⟩
  · obtain ⟨rfl, rfl, rfl⟩ := Pc.flushing.inj hpc
    exact ⟨⟨some w, e, .inFlight⟩, List.getElem?_concat_length, rfl, rfl⟩
  · cases hpc

theorem inv_lpop {left : ℕ} {e : Entry} {copy : ℕ} (h : Inv s)
    (hpc : s.workers w = .popping left e copy) (hown : OwnHead s (s.workers w)) :
    Inv { s.goTo w (.looking left) with
      pending := s.pending.tail
      removed := s.removed ++ s.pending.head?.toList } := by
  refine h.goTo rfl (.refl s rfl) ?_ (fun e' he' => ?_)
    (fun v left e' copy _ hv => h.flushing v left e' copy hv) (fun _ _ _ hpc => ?_)
    fun _ _ _ hpc => ?_
  · have hkept := h.kept
    dsimp only [System.goTo]
    cases hpending : s.pending with
    | nil => simpa [hpending] using hkept
    | cons head rest => simpa [hpending] using hkept
  · rcases List.mem_append.mp he' with hold | hnew
    · exact Or.inl hold
    · right
      have hhead : s.pending.head? = some e' := Option.mem_toList.mp hnew
      rw [hpc] at hown
      obtain ⟨rfl, haccepted⟩ := hown e' hhead
      obtain ⟨c, hc, hentry, hdecided⟩ := h.popping w left e' copy hpc
      refine ⟨c, List.mem_of_getElem? hc, hentry, ?_⟩
      cases hdelivery : c.delivery with
      | inFlight => exact absurd hdelivery hdecided
      | acked => rfl
      | refused => exact absurd hdelivery (haccepted c hc)
  · cases hpc
  · cases hpc

theorem inv_crash (h : Inv s) :
    Inv { s.goTo w .dead with copies := s.copies.map (Copy.orphan w) } := by
  have hsame : ∀ c : Copy ω, (c.orphan w).entry = c.entry ∧ (c.orphan w).delivery = c.delivery := by
    intro c
    unfold Copy.orphan
    split_ifs <;> exact ⟨rfl, rfl⟩
  refine h.goTo rfl ⟨fun e he => ?_, fun i c hc hdecided => ?_⟩ h.kept (fun _ he => Or.inl he)
    (fun v left e copy hne hv => ?_) (fun _ _ _ hpc => ?_) fun _ _ _ hpc => ?_
  · obtain ⟨c, hc, hentry, hacked⟩ := he
    exact ⟨c.orphan w, List.mem_map_of_mem hc, (hsame c).1.trans hentry, (hsame c).2.trans hacked⟩
  · refine ⟨c.orphan w, ?_, (hsame c).1, (hsame c).2 ▸ hdecided⟩
    dsimp only
    rw [List.getElem?_map, hc, Option.map_some]
  · obtain ⟨c, hc, hentry, hproducer⟩ := h.flushing v left e copy hv
    refine ⟨c, ?_, hentry, hproducer⟩
    dsimp only
    rw [List.getElem?_map, hc, Option.map_some]
    unfold Copy.orphan
    rw [if_neg]
    rw [hproducer]
    exact fun heq => hne (Option.some.inj heq)
  · cases hpc
  · cases hpc

omit [DecidableEq ω] in
theorem inv_settle {i : ℕ} {c : Copy ω} {d : Delivery} (h : Inv s) (hc : s.copies[i]? = some c)
    (hflight : c.delivery = .inFlight) :
    Inv { s with copies := s.copies.set i { c with delivery := d } } := by
  have hother : ∀ (j : ℕ) (c' : Copy ω), s.copies[j]? = some c' → c'.delivery ≠ .inFlight →
      (s.copies.set i { c with delivery := d })[j]? = some c' := by
    intro j c' hc' hdecided
    rw [List.getElem?_set_ne, hc']
    rintro rfl
    obtain rfl := Option.some.inj (hc.symm.trans hc')
    exact hdecided hflight
  constructor
  case kept => exact h.kept
  case produced =>
    intro e he
    obtain ⟨c', hc', hentry, hacked⟩ := h.produced e he
    obtain ⟨j, hj⟩ := List.mem_iff_getElem?.mp hc'
    exact ⟨c', List.mem_iff_getElem?.mpr ⟨j, hother j c' hj (by simp [hacked])⟩, hentry, hacked⟩
  case flushing =>
    intro v left e copy hv
    obtain ⟨c', hc', hentry, hproducer⟩ := h.flushing v left e copy hv
    dsimp only
    by_cases hi : i = copy
    · subst hi
      obtain rfl := Option.some.inj (hc.symm.trans hc')
      refine ⟨{ c with delivery := d }, ?_, hentry, hproducer⟩
      rw [List.getElem?_set_self (List.getElem?_eq_some_iff.mp hc).1]
    · rw [List.getElem?_set_ne hi]
      exact ⟨c', hc', hentry, hproducer⟩
  case popping =>
    intro v left e copy hv
    obtain ⟨c', hc', hentry, hdecided⟩ := h.popping v left e copy hv
    exact ⟨c', hother copy c' hc' hdecided, hentry, hdecided⟩

theorem inv_step {a : Action ω} (h : Inv s) (hown : Own s a) (hstep : step s a = some t) : Inv t := by
  cases a with
  | call w limit =>
    unfold step at hstep
    dsimp only at hstep
    split_ifs at hstep
    obtain rfl := Option.some.inj hstep
    exact h.moves (by simp) (by simp)
  | lindex w =>
    unfold step at hstep
    dsimp only at hstep
    split at hstep
    · obtain rfl := Option.some.inj hstep
      exact h.moves (by simp) (by simp)
    · split at hstep
      · obtain rfl := Option.some.inj hstep
        exact h.moves (by simp) (by simp)
      · obtain rfl := Option.some.inj hstep
        exact h.moves (by simp) (by simp)
    · cases hstep
  | produce w queued =>
    unfold step at hstep
    dsimp only at hstep
    split at hstep
    · split_ifs at hstep
      · obtain rfl := Option.some.inj hstep
        exact inv_produce h
      · obtain rfl := Option.some.inj hstep
        exact h.moves (by simp) (by simp)
    · cases hstep
  | flush w =>
    unfold step at hstep
    dsimp only at hstep
    split at hstep
    · rename_i left e copy hpc
      split_ifs at hstep with hopen
      · obtain rfl := Option.some.inj hstep
        exact h.moves (by simp) (by simp)
      · obtain rfl := Option.some.inj hstep
        refine h.moves (by simp) fun left' e' copy' hpop => ?_
        obtain ⟨rfl, rfl, rfl⟩ := Pc.popping.inj hpop
        obtain ⟨c, hc, hentry, hproducer⟩ := h.flushing w left e copy hpc
        -- nothing of this worker is in flight, so this copy is decided
        refine ⟨c, hc, hentry, fun hflight => hopen ?_⟩
        exact List.any_eq_true.mpr ⟨c, List.mem_of_getElem? hc, by simp [hproducer, hflight]⟩
    · cases hstep
  | lpop w =>
    unfold step at hstep
    dsimp only at hstep
    split at hstep
    · rename_i left e copy hpc
      obtain rfl := Option.some.inj hstep
      exact inv_lpop h hpc hown
    · cases hstep
  | crash w =>
    obtain rfl := Option.some.inj hstep
    exact inv_crash h
  | restart w =>
    unfold step at hstep
    dsimp only at hstep
    split_ifs at hstep
    obtain rfl := Option.some.inj hstep
    exact h.moves (by simp) (by simp)
  | settle i accepted =>
    obtain ⟨c, hc, hstep⟩ := Option.bind_eq_some_iff.mp hstep
    by_cases hflight : c.delivery = .inFlight
    · rw [if_pos hflight] at hstep
      obtain rfl := Option.some.inj hstep
      exact inv_settle h hc hflight
    · rw [if_neg hflight] at hstep
      cases hstep
  | push alert =>
    obtain rfl := Option.some.inj hstep
    refine ⟨?_, h.produced, h.flushing, h.popping⟩
    dsimp only
    rw [← List.append_assoc, h.kept]

/-- The list as the workers find it. -/
def System.init (ω : Type*) (alerts : List PendingAlert) : System ω :=
  { pending := alerts.mapIdx Entry.mk, pushed := alerts.mapIdx Entry.mk }

/-- In every run of any workers, sinks and brokers whose pops take their own entries, no alert is
lost. -/
theorem lossless {alerts : List PendingAlert} {actions : List (Action ω)}
    (hown : Guarded step Own (System.init ω alerts) actions)
    (hrun : run step (System.init ω alerts) actions = some t) : Lossless t := by
  have hinit : Inv (System.init ω alerts) := by
    constructor
    case kept => rfl
    case produced => intro e he; cases he
    case flushing => intro v left e copy hv; cases hv
    case popping => intro v left e copy hv; cases hv
  have h := guarded_invariant (fun _ _ _ hs hok hstep => inv_step hs hok hstep) hinit hown hrun
  exact ⟨h.kept, h.produced⟩

def alertOf (key : String) : PendingAlert := ⟨"budget-alerts", key, "\x7b\x7d"⟩

/-- One turn of a worker, with the broker's decision on its message. -/
def turn (w : Bool) (copy : ℕ) (accepted : Bool) : List (Action Bool) :=
  [.lindex w, .produce w true, .settle copy accepted, .flush w, .lpop w]

/-- One worker moves two alerts, while a sink pushes a third. -/
theorem lossless_two : ∃ t, run step (System.init Bool [alertOf "a", alertOf "b"])
      ([.call false 10] ++ turn false 0 true ++ [.push (alertOf "c")] ++ turn false 1 true) =
        some t ∧
    t.removed = [⟨0, alertOf "a"⟩, ⟨1, alertOf "b"⟩] ∧ Lossless t := by
  have hown : Guarded step Own (System.init Bool [alertOf "a", alertOf "b"])
      ([.call false 10] ++ turn false 0 true ++ [.push (alertOf "c")] ++ turn false 1 true) := by
    decide +kernel
  exact ⟨_, rfl, rfl, lossless hown rfl⟩

/-- Two workers look at `a`, and the second pop takes `b`, which nobody has produced; and a pop
follows a copy that the broker has refused. -/
theorem not_lossless :
    (∃ t, run step (System.init Bool [alertOf "a", alertOf "b"])
        [.call false 10, .call true 10, .lindex false, .lindex true, .produce false true,
          .produce true true, .settle 0 true, .settle 1 true, .flush false, .flush true, .lpop false,
          .lpop true] = some t ∧
      t.removed = [⟨0, alertOf "a"⟩, ⟨1, alertOf "b"⟩] ∧ (∀ c ∈ t.copies, c.entry.id = 0) ∧
      ¬ Lossless t) ∧
    ∃ t, run step (System.init Bool [alertOf "a"]) (.call false 10 :: turn false 0 false) = some t ∧
      t.removed = [⟨0, alertOf "a"⟩] ∧ (∀ c ∈ t.copies, c.delivery = .refused) ∧ ¬ Lossless t := by
  refine ⟨⟨_, rfl, rfl, by decide +kernel, fun h => ?_⟩, _, rfl, rfl, by decide +kernel, fun h => ?_⟩
  · have hproduced := h.produced ⟨1, alertOf "b"⟩ (by decide +kernel)
    revert hproduced
    decide +kernel
  · have hproduced := h.produced ⟨0, alertOf "a"⟩ (by decide +kernel)
    revert hproduced
    decide +kernel

end Invariant

end FluxMeter.Api.PendingAlerts
