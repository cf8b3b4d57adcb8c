import Mathlib.Data.String.Basic

/-! One entry of the identity store, as the claim, transition and release scripts read and write
it. An entry is the text of a phase and a fingerprint; no entry is `none`. -/
namespace FluxMeter.Custody

inductive Phase
  | pending
  | accepted
  | uncertain
  deriving DecidableEq

def Phase.text : Phase → String
  | .pending => "pending:"
  | .accepted => "accepted:"
  | .uncertain => "uncertain:"

def entryText (phase : Phase) (fingerprint : String) : String := phase.text ++ fingerprint

inductive Claim
  | owner
  | same
  | pending
  | uncertain
  | conflict
  deriving DecidableEq

/-- `CLAIM_EVENT_IDS_SCRIPT` on an entry that is not expired. -/
def claimAnswer (current : Option String) (fingerprint : String) : Claim :=
  match current with
  | none => .owner
  | some value =>
    if value = entryText .accepted fingerprint then .same
    else if value = entryText .pending fingerprint then .pending
    else if value = entryText .uncertain fingerprint then .uncertain
    else .conflict

def claimed (current : Option String) (fingerprint : String) : Option String :=
  match current with
  | none => some (entryText .pending fingerprint)
  | some value => some value

/-- The condition `allowed` of `TRANSITION_EVENT_IDS_SCRIPT`. -/
def transitionAllowed (target : Phase) (fingerprint : String) (current : Option String) : Bool :=
  current = some (entryText .pending fingerprint) ||
    (target = .accepted && current = some (entryText .uncertain fingerprint))

/-- The entry after `TRANSITION_EVENT_IDS_SCRIPT`. -/
def transitioned (target : Phase) (fingerprint : String) (current : Option String) :
    Option String :=
  if transitionAllowed target fingerprint current then some (entryText target fingerprint)
  else current

def transitionMatched (target : Phase) (fingerprint : String) (current : Option String) : Bool :=
  transitionAllowed target fingerprint current || current = some (entryText target fingerprint)

/-- The condition under which `RELEASE_EVENT_IDS_SCRIPT` deletes the entry. -/
def releaseAllowed (fingerprint : String) (current : Option String) : Bool :=
  current = some (entryText .pending fingerprint) ||
    current = some (entryText .uncertain fingerprint)

/-- The entry after `RELEASE_EVENT_IDS_SCRIPT`. -/
def released (fingerprint : String) (current : Option String) : Option String :=
  if releaseAllowed fingerprint current then none else current

theorem entryText_inj {p q : Phase} {f g : String} :
    entryText p f = entryText q g ↔ p = q ∧ f = g := by
  constructor
  · intro h
    have hlist := congrArg String.toList h
    unfold entryText at hlist
    rw [String.toList_append, String.toList_append] at hlist
    cases p <;> cases q <;> simp [Phase.text] at hlist ⊢ <;>
      exact String.toList_injective hlist
  · rintro ⟨rfl, rfl⟩
    rfl

theorem claimAnswer_eq_owner {current : Option String} {fingerprint : String} :
    claimAnswer current fingerprint = .owner ↔ current = none := by
  unfold claimAnswer
  cases current with
  | none => simp
  | some value =>
    dsimp only
    split_ifs <;> simp

theorem claimAnswer_entry (phase : Phase) (f g : String) :
    claimAnswer (some (entryText phase f)) g =
      if f = g then
        match phase with
        | .accepted => .same
        | .pending => .pending
        | .uncertain => .uncertain
      else .conflict := by
  unfold claimAnswer
  dsimp only
  simp only [entryText_inj]
  cases phase <;> by_cases h : f = g <;> simp [h]

theorem transitioned_entry (target phase : Phase) (f g : String) :
    ∃ phase', transitioned target g (some (entryText phase f)) = some (entryText phase' f) := by
  unfold transitioned
  split_ifs with h
  · refine ⟨target, ?_⟩
    unfold transitionAllowed at h
    simp only [Option.some.injEq, entryText_inj, Bool.or_eq_true, Bool.and_eq_true,
      decide_eq_true_eq] at h
    rcases h with h | h
    · rw [h.2]
    · rw [h.2.2]
  · exact ⟨phase, rfl⟩

theorem transitioned_accepted (target : Phase) (f g : String) :
    transitioned target g (some (entryText .accepted f)) = some (entryText .accepted f) := by
  unfold transitioned transitionAllowed
  simp [entryText_inj]

theorem transitioned_none (target : Phase) (g : String) : transitioned target g none = none := by
  simp [transitioned, transitionAllowed]

theorem released_accepted (f g : String) :
    released g (some (entryText .accepted f)) = some (entryText .accepted f) := by
  unfold released releaseAllowed
  simp [entryText_inj]

end FluxMeter.Custody
