import FluxMeter.Custody.BatchVerdicts

/-! The identity store read as a ledger, the text of every entry that is not expired, over a stretch of
time in which no entry expires. -/
namespace FluxMeter.Custody
open Collections Transition

namespace IdentityStore
variable {s : IdentityStore} {l : Location} {first last now : ℤ}

/-- The texts that a claim at `now` finds. -/
def ledger (now : ℤ) (s : IdentityStore) (l : Location) : Option String :=
  (s.live now l).map Prod.fst

/-- No entry expires after `first` and until `last`. -/
def Steady (first last : ℤ) (s : IdentityStore) : Prop :=
  ∀ l score, (s.slot l).expiry = some score → score ≤ first ∨ last < score

theorem ledger_slot (l : Location) : s.ledger now l = ((s.slot l).live now).map Prod.fst := rfl

theorem ledger_steady (h : s.Steady first last) (hfirst : first ≤ now) (hlast : now ≤ last) :
    s.ledger now = s.ledger first := by
  funext l
  rw [ledger_slot, ledger_slot]
  unfold Slot.live
  cases hexpiry : (s.slot l).expiry with
  | none => rfl
  | some score =>
    dsimp only
    rcases h l score hexpiry with hold | hnew
    · rw [if_pos hold, if_pos (hold.trans hfirst)]
    · rw [if_neg (by omega), if_neg (by omega)]

/-! ### Time -/

theorem steady_put {value : String} {expiry : ℤ} (h : s.Steady first last) (l : Location)
    (hexpiry : last < expiry) : (s.put l value expiry).Steady first last := by
  intro l' score hscore
  rw [slot_put, Function.update_apply] at hscore
  split_ifs at hscore
  · exact Or.inr (Option.some.inj hscore ▸ hexpiry)
  · exact h l' score hscore

theorem steady_drop (h : s.Steady first last) (l : Location) : (s.drop l).Steady first last := by
  intro l' score hscore
  rw [slot_drop, Function.update_apply] at hscore
  split_ifs at hscore
  exact h l' score hscore

theorem steady_cleanup (h : s.Steady first last) (S : IdentitySettings) (bucket : String) :
    (cleanup S now bucket s).Steady first last := by
  unfold cleanup
  generalize (s.zsets (expiryKey bucket)).rangeByScore (· ≤ now) S.cleanupLimit = fields
  induction fields generalizing s with
  | nil => exact h
  | cons field fields ih => exact ih (steady_drop h ⟨bucket, field⟩)

theorem steady_claimMember {pendingExpiry : ℤ} (hexpiry : last < pendingExpiry)
    (h : s.Steady first last) (m : Member) :
    (claimMember now pendingExpiry m s).1.Steady first last := by
  have hstale : (if (s.current m.location).isSome && s.expired now m.location then
      s.drop m.location else s).Steady first last := by
    split_ifs
    · exact steady_drop h m.location
    · exact h
  unfold claimMember
  dsimp only
  split
  · exact steady_put hstale m.location hexpiry
  · exact hstale

theorem steady_transitionMember {expiry : ℤ} (hexpiry : last < expiry) (target : Phase)
    (h : s.Steady first last) (m : Member) :
    (transitionMember target expiry m s).1.Steady first last := by
  unfold transitionMember
  split_ifs
  · exact steady_put h m.location hexpiry
  · exact h
  · exact h

end IdentityStore

namespace IdentityContext
open IdentityStore
variable {C : IdentityContext} {s : IdentityStore} {first last now : ℤ}
  {identities : List (String × String)}

/-- Entries that are written between `first` and `last` outlive `last`. -/
structure Outlasts (S : IdentitySettings) (first last : ℤ) : Prop where
  ordered : first ≤ last
  pending : last < first + S.pendingTtlSeconds
  accepted : last < first + S.ttlSeconds
  uncertain : last < first + S.uncertainTtlSeconds

theorem steady_claims (identities : List (String × String)) (h : s.Steady first last)
    (hS : Outlasts C.settings first last)
    (hfirst : first ≤ now) :
    (C.eventIdentityStatusBatch now identities s).1.Steady first last := by
  have hpending := hS.pending
  unfold eventIdentityStatusBatch
  dsimp only
  apply keep_each _ h
  intro g _ s hs
  unfold claimScript
  apply keep_each _ (steady_cleanup hs C.settings g.1)
  exact fun m _ s hs => steady_claimMember (by omega) hs m

theorem steady_transition (h : s.Steady first last) (hS : Outlasts C.settings first last)
    (hfirst : first ≤ now) (target : Phase) :
    (C.transitionEventIdentities target now .ok identities s).1.Steady first last := by
  have hexpiry : last < now + C.targetTtl target := by
    have haccepted := hS.accepted
    have huncertain := hS.uncertain
    unfold targetTtl
    cases target <;> dsimp only <;> omega
  unfold transitionEventIdentities
  split_ifs
  · exact h
  · dsimp only
    apply keep_each _ h
    intro g _ s hs
    unfold transitionScript
    dsimp only
    apply keep_each _ hs
    exact fun m _ s hs => steady_transitionMember hexpiry target hs m

/-! ### Claims -/

theorem ledger_claims (now : ℤ) (hnodup : (identities.map fun p => C.locate p.1).Nodup) (l : Location) :
    (∀ p ∈ identities, C.locate p.1 = l →
      (C.eventIdentityStatusBatch now identities s).1.ledger now l =
        claimed (s.ledger now l) p.2) ∧
    (l ∉ identities.map (fun p => C.locate p.1) →
      (C.eventIdentityStatusBatch now identities s).1.ledger now l = s.ledger now l) := by
  obtain ⟨hlive, -⟩ := C.eventIdentityStatusBatch_statuses now identities s
  have hkeys : (C.located identities).map Prod.fst = identities.map fun p => C.locate p.1 := by
    unfold located
    rw [List.map_map]
    rfl
  unfold ledger
  rw [hlive]
  unfold statuses
  constructor
  · rintro p hp rfl
    obtain ⟨i, hi⟩ := List.mem_iff_getElem?.mp hp
    have hlocated : (C.located identities)[i]? = some (C.locate p.1, p.2) := by
      unfold located
      rw [List.getElem?_map, hi]
      rfl
    obtain ⟨-, hstate⟩ := runKeyed_of_nodup
      (claimEntry (now + C.settings.pendingTtlSeconds)) (s.live now)
      (by rw [hkeys]; exact hnodup) hlocated
    rw [hstate]
    dsimp only
    cases s.live now (C.locate p.1) <;> rfl
  · intro hl
    rw [runKeyed_of_notMem (by rw [hkeys]; exact hl)]

/-! ### Transitions -/

theorem ledger_transition (hnodup : (identities.map fun p => C.locate p.1).Nodup)
    (hpending : ∀ p ∈ identities, s.current (C.locate p.1) = some (entryText .pending p.2))
    (target : Phase) (hlater : first < now + C.targetTtl target) (l : Location) :
    (∀ p ∈ identities, C.locate p.1 = l →
      (C.transitionEventIdentities target now .ok identities s).1.ledger first l =
        some (entryText target p.2)) ∧
    (l ∉ identities.map (fun p => C.locate p.1) →
      (C.transitionEventIdentities target now .ok identities s).1.ledger first l =
        s.ledger first l) := by
  by_cases hnil : identities = []
  · subst hnil
    exact ⟨fun p hp => absurd hp List.not_mem_nil, fun _ => rfl⟩
  have hslot : (C.transitionEventIdentities target now .ok identities s).1.slot =
      (runKeyed (transitionSlot target (now + C.targetTtl target)) s.slot
        (keyed (C.members identities))).1 := by
    unfold transitionEventIdentities
    rw [if_neg hnil]
    exact (slot_scripts (local_transition target (now + C.targetTtl target))
      (C.groupIdentities identities) s).1.trans (runKeyed_groupIdentities _ _).1
  have hkeys : (keyed (C.members identities)).map Prod.fst =
      identities.map fun p => C.locate p.1 := by
    have hplaces : identities.map (fun p => C.locate p.1) =
        (identities.zipIdx.map Prod.fst).map (fun p => C.locate p.1) := by
      rw [List.zipIdx_map_fst]
    rw [hplaces]
    unfold keyed members
    rw [List.map_map, List.map_map, List.map_map]
    rfl
  rw [ledger_slot, hslot]
  constructor
  · rintro p hp rfl
    obtain ⟨i, hi⟩ := List.mem_iff_getElem?.mp hp
    have hmember : (keyed (C.members identities))[i]? =
        some (C.locate p.1, ⟨i, C.locate p.1, p.2⟩) := by
      unfold keyed members
      rw [List.getElem?_map, List.getElem?_map, List.getElem?_zipIdx, hi]
      simp
    obtain ⟨-, hstate⟩ := runKeyed_of_nodup (transitionSlot target (now + C.targetTtl target))
      s.slot (by rw [hkeys]; exact hnodup) hmember
    have htext : (s.slot (C.locate p.1)).text = some (entryText .pending p.2) := hpending p hp
    rw [hstate]
    unfold transitionSlot
    rw [if_pos (by rw [htext]; simp [transitionAllowed])]
    unfold Slot.live
    dsimp only
    rw [if_neg (by omega)]
    rfl
  · intro hl
    rw [runKeyed_of_notMem (by rw [hkeys]; exact hl), ledger_slot]

end IdentityContext

namespace IdentityContext
open IdentityStore
variable {C : IdentityContext} {s : IdentityStore} {identities : List (String × String)}

theorem rememberable_of_pending (hnodup : (identities.map fun p => C.locate p.1).Nodup)
    (hpending : ∀ p ∈ identities, s.current (C.locate p.1) = some (entryText .pending p.2)) :
    C.Rememberable identities s := by
  have hmember : ∀ m ∈ C.members identities, ∃ p ∈ identities,
      m.location = C.locate p.1 ∧ m.fingerprint = p.2 := by
    intro m hm
    obtain ⟨p, hp, rfl⟩ := List.mem_map.mp hm
    exact ⟨p.1, List.fst_mem_of_mem_zipIdx hp, rfl, rfl⟩
  constructor
  · intro m hm
    obtain ⟨p, hp, hlocation, hfingerprint⟩ := hmember m hm
    have htext : (s.slot (C.locate p.1)).text = some (entryText .pending p.2) := hpending p hp
    unfold IdentityStore.Matched
    rw [hlocation, hfingerprint, htext]
    simp [transitionMatched, transitionAllowed]
  · intro m hm m' hm' hlocation
    obtain ⟨p, hp, hm, hf⟩ := hmember m hm
    obtain ⟨p', hp', hm', hf'⟩ := hmember m' hm'
    have hsame : p = p' :=
      List.inj_on_of_nodup_map hnodup hp hp' (hm.symm.trans (hlocation.trans hm'))
    rw [hf, hf', hsame]

end IdentityContext

/-! ### A call while Kafka and Redis answer -/

/-- Kafka acknowledges every message, and Redis answers every call. -/
structure Surroundings.Answering (w : Surroundings) : Prop where
  outcomes : ∀ messages, (w.broker messages).outcomes = messages.map fun _ => none
  produced : ∀ messages, (w.broker messages).produced = messages
  remember : ∀ k, w.rememberReply k = .ok
  mark : w.markReply = .ok

/-- The scripts run between `first` and `last`. -/
structure Surroundings.Within (first last : ℤ) (w : Surroundings) : Prop where
  claim : first ≤ w.claimClock ∧ w.claimClock ≤ last
  remember : ∀ k, first ≤ w.rememberClock k
  mark : first ≤ w.markClock

namespace TokenEventCustody
open IdentityContext IdentityStore
variable {C : TokenEventCustody} {w : Surroundings} {s : IdentityStore} {first last : ℤ}
  {identities : List (String × String)}

def settledPhase (C : TokenEventCustody) : Phase :=
  if 0 < C.settings.finalizeRetries then .accepted else .uncertain

/-- Acknowledged events are remembered, or marked uncertain. -/
def settle (C : TokenEventCustody) (w : Surroundings) (identities : List (String × String))
    (s : IdentityStore) : IdentityStore × Bool :=
  let r := C.remember w identities s
  (if r.2 then r.1 else C.mark w identities r.1, r.2)

/-- The entries are settled by one transition. -/
theorem settle_eq (hw : w.Answering) (hnodup : (identities.map fun p => C.locate p.1).Nodup)
    (hpending : ∀ p ∈ identities, s.current (C.locate p.1) = some (entryText .pending p.2)) :
    C.settle w identities s =
      ((C.transitionEventIdentities C.settledPhase
        (if 0 < C.settings.finalizeRetries then w.rememberClock 0 else w.markClock) .ok identities
          s).1, decide (0 < C.settings.finalizeRetries)) := by
  unfold settle settledPhase remember mark rememberEventIdentities markEventIdentitiesUncertain
  rw [hw.mark]
  cases hretries : C.settings.finalizeRetries with
  | zero => rfl
  | succ tries =>
    have hcounted : (C.transitionEventIdentities .accepted (w.rememberClock 0) .ok identities s).2 =
        some identities.length := by
      by_cases hnil : identities = []
      · subst hnil
        rfl
      · exact (transition_rememberable (w.rememberClock 0) (rememberable_of_pending hnodup hpending)
          hnil .ok).2
    have hremembered : C.rememberFrom w.rememberClock w.rememberReply identities 0 (tries + 1) s =
        ((C.transitionEventIdentities .accepted (w.rememberClock 0) .ok identities s).1, true) := by
      unfold rememberFrom
      rw [hw.remember]
      generalize C.transitionEventIdentities .accepted (w.rememberClock 0) .ok identities s = r
        at hcounted ⊢
      obtain ⟨s', counted⟩ := r
      dsimp only at hcounted
      rw [hcounted]
      simp
    rw [hremembered]
    simp

theorem ledger_settle (hw : w.Answering) (hwithin : w.Within first last)
    (hS : Outlasts C.settings first last)
    (hnodup : (identities.map fun p => C.locate p.1).Nodup)
    (hpending : ∀ p ∈ identities, s.current (C.locate p.1) = some (entryText .pending p.2))
    (h : s.Steady first last) :
    (C.settle w identities s).1.Steady first last ∧ ∀ l,
      (∀ p ∈ identities, C.locate p.1 = l →
        (C.settle w identities s).1.ledger first l = some (entryText C.settledPhase p.2)) ∧
      (l ∉ identities.map (fun p => C.locate p.1) →
        (C.settle w identities s).1.ledger first l = s.ledger first l) := by
  have hclock : first ≤ if 0 < C.settings.finalizeRetries then w.rememberClock 0
      else w.markClock := by
    split_ifs
    · exact hwithin.remember 0
    · exact hwithin.mark
  rw [settle_eq hw hnodup hpending]
  refine ⟨steady_transition h hS hclock _, fun l => ledger_transition hnodup hpending _ ?_ l⟩
  have hordered := hS.ordered
  have haccepted := hS.accepted
  have huncertain := hS.uncertain
  unfold targetTtl settledPhase
  split_ifs at hclock ⊢ <;> dsimp only <;> omega

end TokenEventCustody

end FluxMeter.Custody
