import FluxMeter.Custody.Scripts

/-! Calls on the identity store, and what each of them can read and write: a claim answers from the
entry at its own location alone, a batch answers as its claims one after another would, and the hash
and the expiry set of a bucket hold the same fields after every call. -/
namespace FluxMeter.Custody
open Collections Transition

inductive IdentityCall
  | claim (now : ℤ) (identities : List (String × String))
  | transition (target : Phase) (now : ℤ) (reply : Reply) (identities : List (String × String))
  | release (identities : List (String × String))

def IdentityCall.identities : IdentityCall → List (String × String)
  | .claim _ identities => identities
  | .transition _ _ _ identities => identities
  | .release identities => identities

namespace IdentityStore

/-- The hashes and the expiry sets hold the same fields. -/
def Twinned (s : IdentityStore) : Prop := ∀ l, (s.current l).isSome = (s.expiry l).isSome

variable {s : IdentityStore} {l : Location} {now : ℤ}

theorem slot_twinned : s.Twinned ↔ ∀ l, (s.slot l).text.isSome = (s.slot l).expiry.isSome :=
  Iff.rfl

theorem twinned_put (h : s.Twinned) (l : Location) (value : String) (expiry : ℤ) :
    (s.put l value expiry).Twinned := by
  rw [slot_twinned] at h ⊢
  intro l'
  rw [slot_put, Function.update_apply]
  split_ifs
  · rfl
  · exact h l'

private theorem twinned_drop (h : s.Twinned) (l : Location) : (s.drop l).Twinned := by
  rw [slot_twinned] at h ⊢
  intro l'
  rw [slot_drop, Function.update_apply]
  split_ifs
  · rfl
  · exact h l'

/-! ### What the scripts keep -/

/-- A property that `HSET` with `ZADD`, of some entries, and `HDEL` with `ZREM` keep at the locations
of some buckets. -/
structure Kept (mine : String → Prop) (entry : Location → String → Prop)
    (I : IdentityStore → Prop) : Prop where
  put : ∀ s, I s → ∀ l, mine l.bucket → ∀ value, entry l value → ∀ expiry, I (s.put l value expiry)
  drop : ∀ s, I s → ∀ l, mine l.bucket → I (s.drop l)

theorem kept_twinned (mine : String → Prop) : Kept mine (fun _ _ => True) Twinned where
  put _ h l _ value _ expiry := twinned_put h l value expiry
  drop _ h l _ := twinned_drop h l

theorem keep_each {μ γ : Type*} {I : IdentityStore → Prop} {op : μ → IdentityStore → IdentityStore × γ}
    {items : List μ} (hop : ∀ m ∈ items, ∀ s, I s → I (op m s).1) (h : I s) :
    I (each op items s).1 := by
  induction items generalizing s with
  | nil => exact h
  | cons m items ih =>
    exact ih (fun m' hm' => hop m' (List.mem_cons_of_mem _ hm')) (hop m List.mem_cons_self s h)

section Kept
variable {mine : String → Prop} {entry : Location → String → Prop} {I : IdentityStore → Prop}
  (hkept : Kept mine entry I)
include hkept

theorem keep_cleanup {bucket : String} (S : IdentitySettings) (now : ℤ) (hbucket : mine bucket)
    (h : I s) : I (cleanup S now bucket s) := by
  unfold cleanup
  generalize (s.zsets (expiryKey bucket)).rangeByScore (· ≤ now) S.cleanupLimit = fields
  induction fields generalizing s with
  | nil => exact h
  | cons field fields ih => exact ih (hkept.drop s h ⟨bucket, field⟩ hbucket)

theorem keep_claimMember {m : Member} (hm : mine m.location.bucket)
    (hentry : entry m.location (entryText .pending m.fingerprint)) (now pendingExpiry : ℤ)
    (h : I s) : I (claimMember now pendingExpiry m s).1 := by
  have hstale : I (if (s.current m.location).isSome && s.expired now m.location then
      s.drop m.location else s) := by
    split_ifs
    · exact hkept.drop s h m.location hm
    · exact h
  unfold claimMember
  dsimp only
  split
  · exact hkept.put _ hstale m.location hm _ hentry _
  · exact hstale

theorem keep_transitionMember {m : Member} (hm : mine m.location.bucket) {target : Phase}
    (hentry : entry m.location (entryText target m.fingerprint)) (expiry : ℤ) (h : I s) :
    I (transitionMember target expiry m s).1 := by
  unfold transitionMember
  split_ifs
  · exact hkept.put s h m.location hm _ hentry _
  · exact h
  · exact h

theorem keep_releaseMember {m : Member} (hm : mine m.location.bucket) (h : I s) :
    I (releaseMember m s).1 := by
  unfold releaseMember
  split_ifs
  · exact hkept.drop s h m.location hm
  · exact h

end Kept

end IdentityStore

namespace IdentityContext
open IdentityStore
variable {C : IdentityContext} {s : IdentityStore} {now : ℤ} {identities : List (String × String)}

/-- `event_identity_status`. -/
def eventIdentityStatus (C : IdentityContext) (now : ℤ) (identity : String × String)
    (s : IdentityStore) : IdentityStore × Claim :=
  let r := C.eventIdentityStatusBatch now [identity] s
  (r.1, r.2.headD .owner)

/-- The identities claimed one by one at the same time. -/
def oneByOne (C : IdentityContext) (now : ℤ) (identities : List (String × String))
    (s : IdentityStore) : IdentityStore × List Claim :=
  each (C.eventIdentityStatus now) identities s

def call (C : IdentityContext) (s : IdentityStore) : IdentityCall → IdentityStore
  | .claim now identities => (C.eventIdentityStatusBatch now identities s).1
  | .transition target now reply identities =>
    (C.transitionEventIdentities target now reply identities s).1
  | .release identities => C.releaseEventIdentities identities s

def calls (C : IdentityContext) (cs : List IdentityCall) (s : IdentityStore) : IdentityStore :=
  cs.foldl C.call s

/-- A bucket of the tenant. -/
def Owns (C : IdentityContext) (bucket : String) : Prop := ∃ eventId, (C.locate eventId).bucket = bucket

/-- The members of a group are identities of the call. -/
theorem identity_of_group {g : String × List Member} (hg : g ∈ C.groupIdentities identities) :
    ∀ m ∈ g.2, ∃ p ∈ identities, m.location = C.locate p.1 ∧ m.fingerprint = p.2 := by
  intro m hm
  have hmem : m ∈ C.members identities := by
    rw [← (groupIdentities_perm C identities).mem_iff]
    exact List.mem_flatMap.mpr ⟨g, hg, hm⟩
  obtain ⟨p, hp, rfl⟩ := List.mem_map.mp hmem
  exact ⟨p.1, List.fst_mem_of_mem_zipIdx hp, rfl, rfl⟩

theorem owns_of_group {g : String × List Member} (hg : g ∈ C.groupIdentities identities) :
    C.Owns g.1 ∧ ∀ m ∈ g.2, C.Owns m.location.bucket := by
  constructor
  · obtain ⟨m, hm, hkey⟩ := exists_of_mem_groupsOf hg
    obtain ⟨p, -, rfl⟩ := List.mem_map.mp hm
    exact ⟨p.1.1, hkey⟩
  · intro m hm
    obtain ⟨p, -, hlocation, -⟩ := identity_of_group hg m hm
    exact ⟨p.1, by rw [hlocation]⟩

/-- A call keeps what the commands keep at the buckets of its tenant, with the entries of its
identities. -/
theorem keep_call {entry : Location → String → Prop} {I : IdentityStore → Prop}
    (hkept : Kept C.Owns entry I) (c : IdentityCall)
    (hentry : ∀ p ∈ c.identities, ∀ phase, entry (C.locate p.1) (entryText phase p.2)) (h : I s) :
    I (C.call s c) := by
  have hmember : ∀ g ∈ C.groupIdentities c.identities, ∀ m ∈ g.2, C.Owns m.location.bucket ∧
      ∀ phase, entry m.location (entryText phase m.fingerprint) := by
    intro g hg m hm
    obtain ⟨p, hp, hlocation, hfingerprint⟩ := identity_of_group hg m hm
    rw [hlocation, hfingerprint]
    exact ⟨⟨p.1, rfl⟩, hentry p hp⟩
  cases c with
  | claim now identities =>
    show I (each (claimScript C.settings now) (C.groupIdentities identities) s).1
    refine keep_each ?_ h
    intro g hg s hs
    have hclean := keep_cleanup hkept C.settings now (owns_of_group hg).1 hs
    refine keep_each (fun m hm s hs => ?_) hclean
    exact keep_claimMember hkept (hmember g hg m hm).1 ((hmember g hg m hm).2 .pending) now _ hs
  | transition target now reply identities =>
    have hscript : ∀ g ∈ C.groupIdentities identities, ∀ s, I s →
        I (transitionScript target (now + C.targetTtl target) g s).1 := by
      intro g hg s hs
      refine keep_each (fun m hm s hs => ?_) hs
      exact keep_transitionMember hkept (hmember g hg m hm).1 ((hmember g hg m hm).2 target) _ hs
    show I (C.transitionEventIdentities target now reply identities s).1
    unfold transitionEventIdentities
    split_ifs
    · exact h
    · cases reply with
      | ok => exact keep_each hscript h
      | raised executed =>
        exact keep_each (fun g hg => hscript g (List.mem_filter.mp hg).1) h
  | release identities =>
    show I (each releaseScript (C.groupIdentities identities) s).1
    refine keep_each ?_ h
    intro g hg s hs
    exact keep_each (fun m hm s hs => keep_releaseMember hkept (hmember g hg m hm).1 hs) hs

theorem keep_calls {entry : Location → String → Prop} {I : IdentityStore → Prop}
    (hkept : Kept C.Owns entry I) (cs : List IdentityCall)
    (hentry : ∀ c ∈ cs, ∀ p ∈ c.identities, ∀ phase, entry (C.locate p.1) (entryText phase p.2))
    (h : I s) : I (C.calls cs s) := by
  induction cs generalizing s with
  | nil => exact h
  | cons c cs ih =>
    exact ih (fun d hd => hentry d (List.mem_cons_of_mem _ hd))
      (keep_call hkept c (hentry c List.mem_cons_self) h)

/-! ### Claims -/

/-- The fingerprints of the identities under their locations. -/
def located (C : IdentityContext) (identities : List (String × String)) :
    List (Location × String) :=
  identities.map fun p => (C.locate p.1, p.2)

/-- The identities claimed in their order, on the entries that are not expired. -/
def statuses (C : IdentityContext) (now : ℤ) (identities : List (String × String))
    (s : IdentityStore) : (Location → Option (String × Option ℤ)) × List (Location × Claim) :=
  runKeyed (claimEntry (now + C.settings.pendingTtlSeconds)) (s.live now) (C.located identities)

private theorem located_members (C : IdentityContext) (identities : List (String × String)) :
    (keyed (C.members identities)).map (fun p => (p.1, p.2.fingerprint)) = C.located identities := by
  unfold keyed members located
  rw [List.map_map, List.map_map]
  have hplaces : identities.map (fun p => (C.locate p.1, p.2)) =
      (identities.zipIdx.map Prod.fst).map (fun p => (C.locate p.1, p.2)) := by
    rw [List.zipIdx_map_fst]
  rw [hplaces, List.map_map]
  rfl

/-- A batch answers as its claims in their order do, and leaves the entries that they leave. -/
theorem eventIdentityStatusBatch_statuses (C : IdentityContext) (now : ℤ)
    (identities : List (String × String)) (s : IdentityStore) :
    (C.eventIdentityStatusBatch now identities s).1.live now = (C.statuses now identities s).1 ∧
      (C.eventIdentityStatusBatch now identities s).2 =
        (C.statuses now identities s).2.map Prod.snd := by
  have hrun : C.statuses now identities s = ((C.claims now identities s).1,
      (C.claims now identities s).2.map fun p => (p.1, p.2.2)) := by
    unfold statuses claims
    rw [← located_members]
    have hstep : ∀ (m : Member) (entry : Option (String × Option ℤ)),
        claimEntry (now + C.settings.pendingTtlSeconds) m.fingerprint entry =
          ((claimStep (now + C.settings.pendingTtlSeconds) m entry).1,
            (claimStep (now + C.settings.pendingTtlSeconds) m entry).2.2) := fun _ _ => rfl
    exact runKeyed_map hstep
  have hbatch : (C.eventIdentityStatusBatch now identities s).1.live now =
        (C.claims now identities s).1 ∧
      (C.eventIdentityStatusBatch now identities s).2 =
        (C.claims now identities s).2.map fun x => x.2.2 := eventIdentityStatusBatch_eq
  rw [hrun, hbatch.1, hbatch.2, List.map_map]
  exact ⟨rfl, rfl⟩

theorem oneByOne_statuses (C : IdentityContext) (now : ℤ) (identities : List (String × String))
    (s : IdentityStore) :
    (C.oneByOne now identities s).1.live now = (C.statuses now identities s).1 ∧
      (C.oneByOne now identities s).2 = (C.statuses now identities s).2.map Prod.snd := by
  induction identities generalizing s with
  | nil => exact ⟨rfl, rfl⟩
  | cons p identities ih =>
    obtain ⟨hlive, hanswer⟩ := C.eventIdentityStatusBatch_statuses now [p] s
    obtain ⟨hstore, hanswers⟩ := ih (C.eventIdentityStatus now p s).1
    have hfirst : (C.eventIdentityStatus now p s).1.live now = _ := hlive
    unfold statuses at hstore hanswers
    rw [hfirst] at hstore hanswers
    refine ⟨hstore, ?_⟩
    show (C.eventIdentityStatus now p s).2 :: (C.oneByOne now identities _).2 = _
    rw [hanswers]
    unfold eventIdentityStatus
    dsimp only
    rw [hanswer]
    rfl

/-- What the claims of a batch promise: the answers of claiming one by one, each of them from the
entry of its own field, an expired entry being none. -/
structure LocalClaims (C : IdentityContext) (now : ℤ) (identities : List (String × String))
    (s : IdentityStore) : Prop where
  sequential : (C.eventIdentityStatusBatch now identities s).2 = (C.oneByOne now identities s).2
  stored : (C.eventIdentityStatusBatch now identities s).1.live now =
    (C.oneByOne now identities s).1.live now
  own : ∀ (i : ℕ) (p : String × String), identities[i]? = some p → ∀ s' : IdentityStore,
    s'.slot (C.locate p.1) = s.slot (C.locate p.1) →
      (C.eventIdentityStatusBatch now identities s').2[i]? =
        (C.eventIdentityStatusBatch now identities s).2[i]?
  expired : ∀ l, s.expired now l = true →
    (C.eventIdentityStatusBatch now identities (s.drop l)).2 =
      (C.eventIdentityStatusBatch now identities s).2

private theorem live_of_expired {l : Location} (h : s.expired now l = true) :
    s.live now l = none := by
  unfold IdentityStore.expired at h
  unfold live slot Slot.live
  dsimp only
  cases hexpiry : s.expiry l with
  | none => simp [hexpiry] at h
  | some score =>
    rw [hexpiry] at h
    dsimp only
    rw [if_pos (of_decide_eq_true h)]

/-- Claims are local and batches are sequential, and every call keeps the hash and the expiry set
of a bucket on the same fields. -/
theorem claims_local (C : IdentityContext) (now : ℤ) (identities : List (String × String))
    (s : IdentityStore) (h : s.Twinned) :
    C.LocalClaims now identities s ∧ ∀ c : IdentityCall, (C.call s c).Twinned := by
  constructor
  case right =>
    exact fun c => keep_call (kept_twinned C.Owns) c (fun _ _ _ => trivial) h
  case left =>
    have hbatch := C.eventIdentityStatusBatch_statuses now identities
    have hserial := C.oneByOne_statuses now identities s
    constructor
    case sequential => rw [(hbatch s).2, hserial.2]
    case stored => rw [(hbatch s).1, hserial.1]
    case own =>
      intro i p hp s' hslot
      have hlocated : (C.located identities)[i]? = some (C.locate p.1, p.2) := by
        unfold located
        rw [List.getElem?_map, hp]
        rfl
      have hlive : s'.live now (C.locate p.1) = s.live now (C.locate p.1) := by
        unfold live
        rw [hslot]
      rw [(hbatch s').2, (hbatch s).2, List.getElem?_map, List.getElem?_map]
      exact congrArg (Option.map Prod.snd) (runKeyed_outcome_congr hlocated hlive)
    case expired =>
      intro l hl
      have hlive : (s.drop l).live now = s.live now := by
        rw [live_drop, ← live_of_expired hl, Function.update_eq_self]
      rw [(hbatch (s.drop l)).2, (hbatch s).2]
      unfold statuses
      rw [hlive]

end IdentityContext

theorem IdentityStore.twinned_empty : IdentityStore.empty.Twinned := fun _ => rfl

/-- A pending entry that expired at 50. -/
def staleEntry : IdentityStore :=
  IdentityStore.empty.put (identityLocation .ofEventId .defaults none "e1") "pending:f" 50

/-- At 100 the first claim takes the expired entry over, and its repeat finds it pending. -/
theorem claims_local_stale :
    (IdentityContext.mk .ofEventId {} none).LocalClaims 100 [("e1", "f"), ("e1", "f")] staleEntry ∧
      ((IdentityContext.mk .ofEventId {} none).eventIdentityStatusBatch 100
        [("e1", "f"), ("e1", "f")] staleEntry).2 = [.owner, .pending] := by
  have hstore := IdentityStore.twinned_put IdentityStore.twinned_empty
    (identityLocation .ofEventId {} none "e1") "pending:f" 50
  exact ⟨(IdentityContext.claims_local _ 100 _ staleEntry hstore).1, by decide +kernel⟩

end FluxMeter.Custody
