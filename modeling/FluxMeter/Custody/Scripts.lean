import FluxMeter.Custody.IdentityStore
import FluxMeter.Transition.Keyed

/-! What the scripts do to one location of the identity store: each member of a script is read and
written at its own location, so a pipeline runs its members as if they came one after another in the
order of the batch. -/
namespace FluxMeter.Custody
open Collections Transition

theorem stateKey_inj {b b' : String} : stateKey b = stateKey b' ↔ b = b' := by
  unfold stateKey
  constructor
  · intro h
    have hlist := congrArg String.toList h
    rw [String.toList_append, String.toList_append] at hlist
    exact String.toList_injective (List.append_cancel_left hlist)
  · rintro rfl
    rfl

theorem expiryKey_inj {b b' : String} : expiryKey b = expiryKey b' ↔ b = b' := by
  unfold expiryKey
  constructor
  · intro h
    have hlist := congrArg String.toList h
    rw [String.toList_append, String.toList_append] at hlist
    exact String.toList_injective (List.append_cancel_left hlist)
  · rintro rfl
    rfl

/-- The value and the score of one field. -/
@[ext] structure Slot where
  text : Option String
  expiry : Option ℤ
  deriving DecidableEq

/-- What a claim at `now` finds: the value that is not expired, with its score. -/
def Slot.live (now : ℤ) (x : Slot) : Option (String × Option ℤ) :=
  match x.expiry with
  | some score => if score ≤ now then none else x.text.map fun text => (text, some score)
  | none => x.text.map fun text => (text, none)

namespace IdentityStore
variable {s : IdentityStore} {l : Location} {now : ℤ}

def slot (s : IdentityStore) (l : Location) : Slot := ⟨s.current l, s.expiry l⟩

def live (now : ℤ) (s : IdentityStore) (l : Location) : Option (String × Option ℤ) :=
  (s.slot l).live now

theorem slot_update (bucket : String) (hash : Table String String) (zset : Table String ℤ) :
    IdentityStore.slot
        ⟨Function.update s.hashes (stateKey bucket) hash,
          Function.update s.zsets (expiryKey bucket) zset⟩ l =
      if l.bucket = bucket then ⟨hash.get l.field, zset.get l.field⟩ else s.slot l := by
  unfold slot current expiry
  dsimp only
  split_ifs with hbucket
  · rw [hbucket, Function.update_self, Function.update_self]
  · rw [Function.update_of_ne (fun h => hbucket (stateKey_inj.mp h)),
      Function.update_of_ne (fun h => hbucket (expiryKey_inj.mp h))]

theorem slot_drop : (s.drop l).slot = Function.update s.slot l ⟨none, none⟩ := by
  funext l'
  unfold drop
  rw [slot_update, Function.update_apply, Table.get_erase, Table.get_erase]
  cases l; cases l'
  unfold slot current expiry
  simp only [Location.mk.injEq]
  split_ifs <;> simp_all

theorem slot_put {value : String} {expiry : ℤ} :
    (s.put l value expiry).slot = Function.update s.slot l ⟨some value, some expiry⟩ := by
  funext l'
  unfold put
  rw [slot_update, Function.update_apply, Table.get_set, Table.get_set]
  cases l; cases l'
  unfold slot current IdentityStore.expiry
  simp only [Location.mk.injEq]
  split_ifs <;> simp_all

theorem current_of_live {text : String} {expiry : Option ℤ}
    (h : s.live now l = some (text, expiry)) : s.current l = some text := by
  unfold live slot Slot.live at h
  dsimp only at h
  cases hexpiry : s.expiry l with
  | none =>
    rw [hexpiry] at h
    obtain ⟨x, hx, heq⟩ := Option.map_eq_some_iff.mp h
    rw [hx, (Prod.mk.inj heq).1]
  | some score =>
    rw [hexpiry] at h
    dsimp only at h
    split_ifs at h
    obtain ⟨x, hx, heq⟩ := Option.map_eq_some_iff.mp h
    rw [hx, (Prod.mk.inj heq).1]

theorem live_put {value : String} {expiry : ℤ} (h : now < expiry) :
    (s.put l value expiry).live now =
      Function.update (s.live now) l (some (value, some expiry)) := by
  funext l'
  unfold live
  rw [slot_put]
  by_cases hl : l' = l
  · subst hl
    rw [Function.update_self, Function.update_self]
    unfold Slot.live
    dsimp only
    rw [if_neg (by omega), Option.map_some]
  · rw [Function.update_of_ne hl, Function.update_of_ne hl]

theorem live_drop : (s.drop l).live now = Function.update (s.live now) l none := by
  funext l'
  unfold live
  rw [slot_drop]
  by_cases hl : l' = l
  · subst hl
    rw [Function.update_self, Function.update_self]
    rfl
  · rw [Function.update_of_ne hl, Function.update_of_ne hl]

/-- The members of a script under their locations. -/
def keyed (members : List Member) : List (Location × Member) :=
  members.map fun m => (m.location, m)

/-! ### Claims -/

def claimEntry (pendingExpiry : ℤ) (fingerprint : String) (entry : Option (String × Option ℤ)) :
    Option (String × Option ℤ) × Claim :=
  match entry with
  | none => (some (entryText .pending fingerprint, some pendingExpiry), .owner)
  | some e => (some e, claimAnswer (some e.1) fingerprint)

theorem claimEntry_answer (pendingExpiry : ℤ) (fingerprint : String)
    (entry : Option (String × Option ℤ)) :
    (claimEntry pendingExpiry fingerprint entry).2 =
      claimAnswer (entry.map Prod.fst) fingerprint := by
  cases entry <;> rfl

/-- The cleanup drops only what no claim finds. -/
theorem live_cleanup (S : IdentitySettings) (now : ℤ) (bucket : String) :
    (cleanup S now bucket s).live now = s.live now := by
  unfold cleanup
  -- every field that is dropped has an expired score in the first store
  have hexpired : ∀ field ∈ (s.zsets (expiryKey bucket)).rangeByScore (· ≤ now) S.cleanupLimit,
      s.live now ⟨bucket, field⟩ = none := by
    intro field hfield
    obtain ⟨score, hscore, hle⟩ := Table.get_of_mem_rangeByScore _ hfield
    have hexpiry : s.expiry ⟨bucket, field⟩ = some score := hscore
    unfold live slot Slot.live
    dsimp only
    rw [hexpiry]
    dsimp only
    rw [if_pos (of_decide_eq_true hle)]
  generalize (s.zsets (expiryKey bucket)).rangeByScore (· ≤ now) S.cleanupLimit = fields
    at hexpired
  induction fields generalizing s with
  | nil => rfl
  | cons field fields ih =>
    obtain ⟨hfirst, hrest⟩ := List.forall_mem_cons.mp hexpired
    have hsame : (s.drop ⟨bucket, field⟩).live now = s.live now := by
      rw [live_drop, ← hfirst, Function.update_eq_self]
    rw [List.foldl_cons, ih (by rw [hsame]; exact hrest), hsame]

private theorem live_claimMember {pendingExpiry : ℤ} (h : now < pendingExpiry) (m : Member) :
    (claimMember now pendingExpiry m s).1.live now = Function.update (s.live now) m.location
        (claimEntry pendingExpiry m.fingerprint (s.live now m.location)).1 ∧
      (claimMember now pendingExpiry m s).2 =
        (claimEntry pendingExpiry m.fingerprint (s.live now m.location)).2 := by
  have hlive : s.live now m.location =
      if (s.current m.location).isSome && s.expired now m.location then none
      else (s.current m.location).map fun text => (text, s.expiry m.location) := by
    unfold live slot Slot.live IdentityStore.expired
    dsimp only
    cases s.expiry m.location with
    | none => simp
    | some score =>
      dsimp only
      cases hcurrent : s.current m.location with
      | none => simp
      | some text => simp
  unfold claimMember
  dsimp only
  by_cases hstale : ((s.current m.location).isSome && s.expired now m.location) = true
  · rw [if_pos hstale] at hlive ⊢
    rw [if_pos hstale, hlive]
    dsimp only
    rw [live_put h, live_drop, Function.update_idem]
    exact ⟨rfl, rfl⟩
  · rw [if_neg hstale] at hlive ⊢
    rw [if_neg hstale, hlive]
    cases hcurrent : s.current m.location with
    | none => exact ⟨live_put h, rfl⟩
    | some text =>
      rw [hcurrent] at hlive
      refine ⟨?_, rfl⟩
      dsimp only
      rw [Option.map_some]
      dsimp only [claimEntry]
      rw [← Option.map_some (f := fun text => (text, s.expiry m.location)), ← hlive,
        Function.update_eq_self]

def claimStep (pendingExpiry : ℤ) (m : Member) (entry : Option (String × Option ℤ)) :
    Option (String × Option ℤ) × (ℕ × Claim) :=
  let r := claimEntry pendingExpiry m.fingerprint entry
  (r.1, (m.index, r.2))

theorem live_claimMembers {pendingExpiry : ℤ} (h : now < pendingExpiry) (members : List Member) :
    (each (claimMember now pendingExpiry) members s).1.live now =
        (runKeyed (claimStep pendingExpiry) (s.live now) (keyed members)).1 ∧
      (members.map Member.index).zip (each (claimMember now pendingExpiry) members s).2 =
        (runKeyed (claimStep pendingExpiry) (s.live now) (keyed members)).2.map Prod.snd := by
  induction members generalizing s with
  | nil => exact ⟨rfl, rfl⟩
  | cons m members ih =>
    obtain ⟨hlive, hanswer⟩ := live_claimMember (s := s) h m
    obtain ⟨hstore, hanswers⟩ := ih (s := (claimMember now pendingExpiry m s).1)
    rw [hlive] at hstore hanswers
    constructor
    · exact hstore
    · simp only [each, keyed, List.map_cons, runKeyed, List.zip_cons_cons]
      rw [hanswer]
      exact congrArg _ hanswers

private theorem claimEntry_accepted {pendingExpiry : ℤ} {fingerprint f : String}
    {entry : Option (String × Option ℤ)} {expiry : Option ℤ}
    (h : (claimEntry pendingExpiry fingerprint entry).1 = some (entryText .accepted f, expiry)) :
    entry = some (entryText .accepted f, expiry) := by
  cases entry with
  | none =>
    have htext := congrArg Prod.fst (Option.some.inj h)
    exact absurd (entryText_inj.mp htext).1 (by decide)
  | some e => exact h

private theorem claimAnswer_same {entry : Option (String × Option ℤ)} {fingerprint : String}
    (h : claimAnswer (entry.map Prod.fst) fingerprint = .same) :
    ∃ expiry, entry = some (entryText .accepted fingerprint, expiry) := by
  cases entry with
  | none => cases h
  | some e =>
    obtain ⟨text, expiry⟩ := e
    unfold claimAnswer at h
    dsimp only [Option.map_some] at h
    split_ifs at h with htext
    exact ⟨expiry, by rw [htext]⟩

theorem accepted_of_claimStep {pendingExpiry : ℤ} {f : Location → Option (String × Option ℤ)}
    {members : List Member} {i : ℕ} {m : Member} (hm : members[i]? = some m)
    (h : ((runKeyed (claimStep pendingExpiry) f (keyed members)).2.map fun x => x.2.2)[i]? =
      some .same) :
    ∃ expiry, f m.location = some (entryText .accepted m.fingerprint, expiry) := by
  induction members generalizing f i with
  | nil => cases hm
  | cons first members ih =>
    simp only [keyed, List.map_cons, runKeyed] at h
    cases i with
    | zero =>
      have hfirst : first = m := Option.some.inj hm
      subst hfirst
      have hanswer := Option.some.inj h
      dsimp only [claimStep] at hanswer
      rw [claimEntry_answer] at hanswer
      exact claimAnswer_same hanswer
    | succ i =>
      obtain ⟨expiry, hentry⟩ := ih hm h
      rw [Function.update_apply] at hentry
      split_ifs at hentry with hl
      · rw [hl]
        exact ⟨expiry, claimEntry_accepted hentry⟩
      · exact ⟨expiry, hentry⟩

def placed (groups : List (String × List Member)) (answers : List (List Claim)) :
    List (ℕ × Claim) :=
  (groups.zip answers).flatMap fun p => (p.1.2.map Member.index).zip p.2

theorem live_claimScripts (now : ℤ) (s : IdentityStore) (S : IdentitySettings)
    (groups : List (String × List Member)) :
    (each (claimScript S now) groups s).1.live now =
        (runKeyed (claimStep (now + S.pendingTtlSeconds)) (s.live now)
          (keyed (groups.flatMap Prod.snd))).1 ∧
      placed groups (each (claimScript S now) groups s).2 =
        (runKeyed (claimStep (now + S.pendingTtlSeconds)) (s.live now)
          (keyed (groups.flatMap Prod.snd))).2.map Prod.snd := by
  have hlater : now < now + S.pendingTtlSeconds := by
    have := S.pending_pos
    omega
  induction groups generalizing s with
  | nil => exact ⟨rfl, rfl⟩
  | cons g groups ih =>
    obtain ⟨hlive, hanswer⟩ :=
      live_claimMembers (s := cleanup S now g.1 s) hlater g.2
    obtain ⟨hstore, hanswers⟩ := ih (claimScript S now g s).1
    have hscript : (claimScript S now g s).1.live now =
        (runKeyed (claimStep (now + S.pendingTtlSeconds)) (s.live now) (keyed g.2)).1 := by
      rw [← live_cleanup (s := s) S now g.1]
      exact hlive
    rw [hscript] at hstore hanswers
    rw [live_cleanup] at hanswer
    have hkeyed : keyed ((g :: groups).flatMap Prod.snd) =
        keyed g.2 ++ keyed (groups.flatMap Prod.snd) := by
      unfold keyed
      rw [List.flatMap_cons, List.map_append]
    rw [hkeyed, runKeyed_append]
    refine ⟨hstore, ?_⟩
    rw [List.map_append, ← hanswers, ← hanswer]
    rfl

theorem claimStep_places (pendingExpiry : ℤ) (members : List Member)
    (f : Location → Option (String × Option ℤ)) :
    (runKeyed (claimStep pendingExpiry) f (keyed members)).2.map (fun x => x.2.1) =
      members.map Member.index := by
  induction members generalizing f with
  | nil => rfl
  | cons m members ih =>
    simp only [keyed, List.map_cons, runKeyed] at ih ⊢
    rw [ih]
    rfl

/-! ### Transitions and releases -/

def transitionSlot (target : Phase) (expiry : ℤ) (m : Member) (x : Slot) : Slot × ℕ :=
  if transitionAllowed target m.fingerprint x.text then
    (⟨some (entryText target m.fingerprint), some expiry⟩, 1)
  else if x.text = some (entryText target m.fingerprint) then (x, 1)
  else (x, 0)

def releaseSlot (m : Member) (x : Slot) : Slot × ℕ :=
  if releaseAllowed m.fingerprint x.text then (⟨none, none⟩, 1) else (x, 0)

/-- An operation that does to the slot of its member what `step` does. -/
def Local (op : Member → IdentityStore → IdentityStore × ℕ) (step : Member → Slot → Slot × ℕ) :
    Prop :=
  ∀ m s, (op m s).1.slot = Function.update s.slot m.location (step m (s.slot m.location)).1 ∧
    (op m s).2 = (step m (s.slot m.location)).2

theorem local_transition (target : Phase) (expiry : ℤ) :
    Local (transitionMember target expiry) (transitionSlot target expiry) := by
  intro m s
  unfold transitionMember transitionSlot
  have htext : (s.slot m.location).text = s.current m.location := rfl
  rw [htext]
  split_ifs
  · exact ⟨slot_put, rfl⟩
  · exact ⟨(Function.update_eq_self _ _).symm, rfl⟩
  · exact ⟨(Function.update_eq_self _ _).symm, rfl⟩

theorem local_release : Local releaseMember releaseSlot := by
  intro m s
  unfold releaseMember releaseSlot
  have htext : (s.slot m.location).text = s.current m.location := rfl
  rw [htext]
  split_ifs
  · exact ⟨slot_drop, rfl⟩
  · exact ⟨(Function.update_eq_self _ _).symm, rfl⟩

section Local
variable {op : Member → IdentityStore → IdentityStore × ℕ} {step : Member → Slot → Slot × ℕ}

private theorem slot_each (h : Local op step) (members : List Member) (s : IdentityStore) :
    (each op members s).1.slot = (runKeyed step s.slot (keyed members)).1 ∧
      (each op members s).2 = (runKeyed step s.slot (keyed members)).2.map Prod.snd := by
  induction members generalizing s with
  | nil => exact ⟨rfl, rfl⟩
  | cons m members ih =>
    obtain ⟨hslot, hcount⟩ := h m s
    obtain ⟨hstore, hcounts⟩ := ih (op m s).1
    rw [hslot] at hstore hcounts
    constructor
    · exact hstore
    · simp only [each, keyed, List.map_cons, runKeyed]
      rw [hcount]
      exact congrArg _ hcounts

/-- The scripts of a pipeline run the operation for all members, and count together. -/
theorem slot_scripts (h : Local op step) (groups : List (String × List Member))
    (s : IdentityStore) :
    (each (fun g s => ((each op g.2 s).1, (each op g.2 s).2.sum)) groups s).1.slot =
        (runKeyed step s.slot (keyed (groups.flatMap Prod.snd))).1 ∧
      (each (fun g s => ((each op g.2 s).1, (each op g.2 s).2.sum)) groups s).2.sum =
        ((runKeyed step s.slot (keyed (groups.flatMap Prod.snd))).2.map Prod.snd).sum := by
  induction groups generalizing s with
  | nil => exact ⟨rfl, rfl⟩
  | cons g groups ih =>
    obtain ⟨hslot, hcounts⟩ := slot_each h g.2 s
    obtain ⟨hstore, hsum⟩ := ih (each op g.2 s).1
    rw [hslot] at hstore hsum
    have hkeyed : keyed ((g :: groups).flatMap Prod.snd) =
        keyed g.2 ++ keyed (groups.flatMap Prod.snd) := by
      unfold keyed
      rw [List.flatMap_cons, List.map_append]
    rw [hkeyed, runKeyed_append]
    refine ⟨hstore, ?_⟩
    simp only [each, List.sum_cons, List.map_append, List.sum_append]
    rw [hsum, hcounts]

/-- An entry that every step keeps is kept. -/
theorem text_runKeyed {entry : String}
    (hkeep : ∀ m x, x.text = some entry → (step m x).1.text = some entry) {f : Location → Slot}
    {l : Location} (h : (f l).text = some entry) (members : List Member) :
    ((runKeyed step f (keyed members)).1 l).text = some entry := by
  induction members generalizing f with
  | nil => exact h
  | cons m members ih =>
    apply ih
    rw [Function.update_apply]
    split_ifs with hl
    · subst hl
      exact hkeep m _ h
    · exact h

end Local

theorem transitionSlot_accepted (target : Phase) (expiry : ℤ) (fingerprint : String) (m : Member)
    (x : Slot) (h : x.text = some (entryText .accepted fingerprint)) :
    (transitionSlot target expiry m x).1.text = some (entryText .accepted fingerprint) := by
  have hkept := transitioned_accepted target fingerprint m.fingerprint
  unfold transitioned at hkept
  unfold transitionSlot
  rw [h]
  split_ifs with hallowed
  · rw [if_pos hallowed] at hkept
    exact hkept
  · exact h
  · exact h

theorem releaseSlot_accepted (fingerprint : String) (m : Member) (x : Slot)
    (h : x.text = some (entryText .accepted fingerprint)) :
    (releaseSlot m x).1.text = some (entryText .accepted fingerprint) := by
  have hkept := released_accepted fingerprint m.fingerprint
  unfold released at hkept
  unfold releaseSlot
  rw [h]
  split_ifs with hallowed
  · rw [if_pos hallowed] at hkept
    cases hkept
  · exact h

theorem transitionSlot_le (target : Phase) (expiry : ℤ) (m : Member) (x : Slot) :
    (transitionSlot target expiry m x).2 ≤ 1 := by
  unfold transitionSlot
  split_ifs <;> simp

theorem text_of_matched {target : Phase} {expiry : ℤ} {m : Member} {x : Slot}
    (h : (transitionSlot target expiry m x).2 = 1) :
    (transitionSlot target expiry m x).1.text = some (entryText target m.fingerprint) := by
  unfold transitionSlot at h ⊢
  split_ifs at h ⊢ with hallowed hsame
  · rfl
  · exact hsame

private theorem sum_matched_le (target : Phase) (expiry : ℤ) (f : Location → Slot)
    (members : List Member) :
    ((runKeyed (transitionSlot target expiry) f (keyed members)).2.map Prod.snd).sum ≤
      members.length := by
  induction members generalizing f with
  | nil => simp [keyed]
  | cons m members ih =>
    simp only [keyed, List.map_cons, runKeyed, List.sum_cons, List.length_cons]
    have hfirst := transitionSlot_le target expiry m (f m.location)
    have hrest := ih (Function.update f m.location
      (transitionSlot target expiry m (f m.location)).1)
    unfold keyed at hrest
    omega

theorem accepted_of_sum {expiry : ℤ} {f : Location → Slot} {members : List Member}
    (h : ((runKeyed (transitionSlot .accepted expiry) f (keyed members)).2.map Prod.snd).sum =
      members.length) :
    ∀ m ∈ members, ((runKeyed (transitionSlot .accepted expiry) f (keyed members)).1
      m.location).text = some (entryText .accepted m.fingerprint) := by
  induction members generalizing f with
  | nil => simp
  | cons m members ih =>
    simp only [keyed, List.map_cons, runKeyed, List.sum_cons, List.length_cons] at h ⊢
    set g := Function.update f m.location (transitionSlot .accepted expiry m (f m.location)).1
      with hg
    have hfirst := transitionSlot_le .accepted expiry m (f m.location)
    have hrest := sum_matched_le .accepted expiry g members
    unfold keyed at hrest
    intro m' hm'
    rcases List.mem_cons.mp hm' with rfl | hm'
    · apply text_runKeyed (transitionSlot_accepted .accepted expiry m'.fingerprint)
      rw [hg, Function.update_self]
      exact text_of_matched (by omega)
    · exact ih (f := g) (by unfold keyed; omega) m' hm'

end IdentityStore

namespace IdentityContext
open IdentityStore
variable {C : IdentityContext} {s : IdentityStore} {now : ℤ} {identities : List (String × String)}

theorem members_index : (C.members identities).map Member.index = List.range identities.length := by
  unfold members
  rw [List.map_map]
  have hindex : (Member.index ∘ fun p : (String × String) × ℕ =>
      { index := p.2, location := C.locate p.1.1, fingerprint := p.1.2 : Member }) = Prod.snd := rfl
  rw [hindex, List.zipIdx_map_snd, List.range_eq_range']

private theorem filter_groupIdentities (l : Location) :
    (keyed ((C.groupIdentities identities).flatMap Prod.snd)).filter (fun p => p.1 = l) =
      (keyed (C.members identities)).filter fun p => p.1 = l := by
  unfold keyed groupIdentities
  rw [List.filter_map, List.filter_map]
  congr 1
  apply filter_groupsOf
  intro x y hx hy
  simp only [Function.comp_apply, decide_eq_true_eq] at hx hy
  rw [hx, hy]

theorem groupIdentities_perm (C : IdentityContext) (identities : List (String × String)) :
    ((C.groupIdentities identities).flatMap Prod.snd).Perm (C.members identities) :=
  groupsOf_perm _

/-- A pipeline may run its members in the order of the batch. -/
theorem runKeyed_groupIdentities {β γ : Type*} (step : Member → β → β × γ) (f : Location → β) :
    (runKeyed step f (keyed ((C.groupIdentities identities).flatMap Prod.snd))).1 =
        (runKeyed step f (keyed (C.members identities))).1 ∧
      ∀ x, x ∈ (runKeyed step f (keyed ((C.groupIdentities identities).flatMap Prod.snd))).2 ↔
        x ∈ (runKeyed step f (keyed (C.members identities))).2 :=
  runKeyed_regroup filter_groupIdentities

def claims (C : IdentityContext) (now : ℤ) (identities : List (String × String))
    (s : IdentityStore) : (Location → Option (String × Option ℤ)) × List (Location × (ℕ × Claim)) :=
  runKeyed (claimStep (now + C.settings.pendingTtlSeconds)) (s.live now)
    (keyed (C.members identities))

theorem claims_places :
    (C.claims now identities s).2.map (fun x => x.2.1) = List.range identities.length := by
  rw [← members_index (C := C)]
  exact claimStep_places _ _ _

theorem length_claims : (C.claims now identities s).2.length = identities.length := by
  have hplaces : (C.claims now identities s).2.map (fun x => x.2.1) =
      List.range identities.length := claims_places
  have hlength := congrArg List.length hplaces
  simpa using hlength

/-- A batch of claims stores and answers what its identities would be told one after another. -/
theorem eventIdentityStatusBatch_eq :
    (C.eventIdentityStatusBatch now identities s).1.live now = (C.claims now identities s).1 ∧
      (C.eventIdentityStatusBatch now identities s).2 =
        (C.claims now identities s).2.map fun x => x.2.2 := by
  obtain ⟨hlive, hplaced⟩ := live_claimScripts now s C.settings (C.groupIdentities identities)
  obtain ⟨hstate, hmem⟩ := runKeyed_groupIdentities (C := C)
    (claimStep (now + C.settings.pendingTtlSeconds)) (s.live now)
  have hplaces := claimStep_places (now + C.settings.pendingTtlSeconds)
    ((C.groupIdentities identities).flatMap Prod.snd) (s.live now)
  generalize runKeyed (claimStep (now + C.settings.pendingTtlSeconds)) (s.live now)
    (keyed ((C.groupIdentities identities).flatMap Prod.snd)) = grouped at *
  refine ⟨hlive.trans hstate, ?_⟩
  -- a place is answered once
  have hnodup : ((grouped.2.map Prod.snd).map Prod.fst).Nodup := by
    have hperm := (groupIdentities_perm C identities).map Member.index
    rw [← hplaces, members_index] at hperm
    rw [List.map_map]
    exact hperm.nodup_iff.mpr List.nodup_range
  unfold eventIdentityStatusBatch
  dsimp only
  unfold placed at hplaced
  rw [hplaced]
  apply List.ext_getElem
  · rw [List.length_map, List.length_map, List.length_range, length_claims]
  · intro i hi _
    rw [List.getElem_map, List.getElem_map, List.getElem_range]
    rw [List.length_map, List.length_range] at hi
    have hlt : i < (C.claims now identities s).2.length := by rw [length_claims]; exact hi
    have hget : (C.claims now identities s).2[i] ∈ (C.claims now identities s).2 :=
      List.getElem_mem _
    have hplace : ((C.claims now identities s).2[i]).2.1 = i := by
      have hrange : (C.claims now identities s).2.map (fun x => x.2.1) =
          List.range identities.length := claims_places
      have hcongr := List.getElem_of_eq hrange (by simpa using hlt)
      simpa using hcongr
    have hlookup : (grouped.2.map Prod.snd).lookup i =
        some ((C.claims now identities s).2[i]).2.2 := by
      rw [Table.lookup_eq_some_iff_mem hnodup]
      exact List.mem_map.mpr ⟨_, (hmem _).mpr hget, Prod.ext hplace rfl⟩
    rw [hlookup, Option.getD_some]

/-! ### Accepted entries -/

variable {l : Location} {fingerprint : String}

theorem length_members : (C.members identities).length = identities.length := by
  simp [members]

theorem accepted_scripts {op : Member → IdentityStore → IdentityStore × ℕ}
    {step : Member → Slot → Slot × ℕ} (hlocal : Local op step)
    (hkeep : ∀ m x, x.text = some (entryText .accepted fingerprint) →
      (step m x).1.text = some (entryText .accepted fingerprint))
    (h : s.current l = some (entryText .accepted fingerprint))
    (groups : List (String × List Member)) :
    (each (fun g s => ((each op g.2 s).1, (each op g.2 s).2.sum)) groups s).1.current l =
      some (entryText .accepted fingerprint) := by
  have hslot := congrFun (slot_scripts hlocal groups s).1 l
  exact (congrArg Slot.text hslot).trans (text_runKeyed hkeep h _)

theorem accepted_transition (target : Phase) (reply : Reply)
    (h : s.current l = some (entryText .accepted fingerprint)) :
    (C.transitionEventIdentities target now reply identities s).1.current l =
      some (entryText .accepted fingerprint) := by
  have hscripts := accepted_scripts (local_transition target (now + C.targetTtl target))
    (transitionSlot_accepted target _ fingerprint) h
  unfold transitionEventIdentities
  split_ifs
  · exact h
  · cases reply with
    | ok => exact hscripts _
    | raised executed => exact hscripts _

theorem accepted_release (h : s.current l = some (entryText .accepted fingerprint)) :
    (C.releaseEventIdentities identities s).current l = some (entryText .accepted fingerprint) :=
  accepted_scripts local_release (releaseSlot_accepted fingerprint) h _

private theorem accepted_of_transition {changed : ℕ} {s' : IdentityStore} {reply : Reply}
    (h : C.transitionEventIdentities .accepted now reply identities s = (s', some changed))
    (hall : changed = identities.length) :
    ∀ p ∈ identities, s'.current (C.locate p.1) = some (entryText .accepted p.2) := by
  unfold transitionEventIdentities at h
  split_ifs at h with hnil
  · simp [hnil]
  · cases reply with
    | raised executed => cases h
    | ok =>
      obtain ⟨hslot, hsum⟩ := slot_scripts
        (local_transition .accepted (now + C.targetTtl .accepted)) (C.groupIdentities identities) s
      dsimp only at h
      obtain ⟨rfl, hcount⟩ := Prod.mk.inj h
      have hperm := groupIdentities_perm C identities
      have hmatched := hsum.symm.trans ((Option.some.inj hcount).trans hall)
      rw [← length_members (C := C), ← hperm.length_eq] at hmatched
      have hall := accepted_of_sum hmatched
      intro p hp
      obtain ⟨i, hi, hget⟩ := List.getElem_of_mem hp
      have hmember : (⟨i, C.locate p.1, p.2⟩ : Member) ∈ C.members identities := by
        apply List.mem_map.mpr
        refine ⟨(p, i), ?_, rfl⟩
        rw [List.mem_zipIdx_iff_getElem?, List.getElem?_eq_getElem hi, hget]
      have htext := hall _ (hperm.mem_iff.mpr hmember)
      exact (congrArg Slot.text (congrFun hslot _)).trans htext

/-- Identities that are reported as remembered are stored as accepted. -/
theorem accepted_of_remembered {clock : ℕ → ℤ} {replies : ℕ → Reply}
    (h : (C.rememberEventIdentities clock replies identities s).2 = true) :
    ∀ p ∈ identities, (C.rememberEventIdentities clock replies identities s).1.current
      (C.locate p.1) = some (entryText .accepted p.2) := by
  unfold rememberEventIdentities at h ⊢
  generalize C.settings.finalizeRetries = tries at h ⊢
  generalize 0 = attempt at h ⊢
  induction tries generalizing attempt s with
  | zero => cases h
  | succ tries ih =>
    unfold rememberFrom at h ⊢
    split at h
    next heq => exact accepted_of_transition heq (of_decide_eq_true h)
    next heq => exact ih (attempt + 1) h

/-- What a claim finds accepted was stored as accepted before the batch. -/
theorem accepted_of_same {i : ℕ} {p : String × String} (hp : identities[i]? = some p)
    (h : (C.eventIdentityStatusBatch now identities s).2[i]? = some .same) :
    s.current (C.locate p.1) = some (entryText .accepted p.2) := by
  rw [eventIdentityStatusBatch_eq.2] at h
  have hmember : (C.members identities)[i]? = some ⟨i, C.locate p.1, p.2⟩ := by
    unfold members
    rw [List.getElem?_map, List.getElem?_zipIdx, hp]
    simp
  obtain ⟨expiry, hlive⟩ := accepted_of_claimStep hmember h
  exact current_of_live hlive

end IdentityContext

end FluxMeter.Custody
