import FluxMeter.Custody.IdentityCalls
import FluxMeter.Transition.Unwinding

/-! The identity store under several tenants. A tenant works in buckets of its own, whose keys carry
sixteen digits of the hash of its name; no tenant has the name `default`. -/
namespace FluxMeter.Custody
open Collections Transition

/-- SHA-256 gives 64 hexadecimal digits, and two tenant names that differ have tags that differ. -/
structure NoTagCollision (py : Python) (name name' : String) : Prop where
  length : ∀ text, (py.sha256 text).toList.length = 64
  tag : (py.sha256 name).toList.take 16 = (py.sha256 name').toList.take 16 → name = name'

namespace IdentityStore
variable {s t : IdentityStore} {mine : String → Prop}

/-- The stores have the same tables in some buckets. -/
def Same (mine : String → Prop) (s t : IdentityStore) : Prop :=
  ∀ bucket, mine bucket → s.hashes (stateKey bucket) = t.hashes (stateKey bucket) ∧
    s.zsets (expiryKey bucket) = t.zsets (expiryKey bucket)

theorem same_equivalence (mine : String → Prop) : Equivalence (Same mine) where
  refl _ _ _ := ⟨rfl, rfl⟩
  symm h bucket hbucket := ⟨(h bucket hbucket).1.symm, (h bucket hbucket).2.symm⟩
  trans h h' bucket hbucket :=
    ⟨(h bucket hbucket).1.trans (h' bucket hbucket).1, (h bucket hbucket).2.trans (h' bucket hbucket).2⟩

theorem same_update (h : Same mine s t) (bucket : String)
    {hash hash' : Table String String} {zset zset' : Table String ℤ} (hhash : hash = hash')
    (hzset : zset = zset') :
    Same mine ⟨Function.update s.hashes (stateKey bucket) hash,
        Function.update s.zsets (expiryKey bucket) zset⟩
      ⟨Function.update t.hashes (stateKey bucket) hash',
        Function.update t.zsets (expiryKey bucket) zset'⟩ := by
  subst hhash hzset
  intro b hb
  obtain ⟨hhashes, hzsets⟩ := h b hb
  dsimp only
  rw [Function.update_apply, Function.update_apply, Function.update_apply, Function.update_apply,
    hhashes, hzsets]
  exact ⟨rfl, rfl⟩

theorem same_put (h : Same mine s t) {l : Location} (hl : mine l.bucket) (value : String)
    (expiry : ℤ) : Same mine (s.put l value expiry) (t.put l value expiry) :=
  same_update h l.bucket (congrArg (fun hash => hash.set l.field value) (h l.bucket hl).1)
    (congrArg (fun zset => zset.set l.field expiry) (h l.bucket hl).2)

theorem same_drop (h : Same mine s t) {l : Location} (hl : mine l.bucket) :
    Same mine (s.drop l) (t.drop l) :=
  same_update h l.bucket (congrArg (fun hash => hash.erase l.field) (h l.bucket hl).1)
    (congrArg (fun zset => zset.erase l.field) (h l.bucket hl).2)

theorem same_current (h : Same mine s t) {l : Location} (hl : mine l.bucket) :
    s.current l = t.current l := by
  unfold current
  rw [(h l.bucket hl).1]

theorem same_expired (h : Same mine s t) {l : Location} (hl : mine l.bucket) (now : ℤ) :
    s.expired now l = t.expired now l := by
  unfold expired expiry
  rw [(h l.bucket hl).2]

theorem same_each {μ γ : Type*} {op : μ → IdentityStore → IdentityStore × γ} {items : List μ}
    (hop : ∀ m ∈ items, ∀ s t, Same mine s t →
      Same mine (op m s).1 (op m t).1 ∧ (op m s).2 = (op m t).2) (h : Same mine s t) :
    Same mine (each op items s).1 (each op items t).1 ∧
      (each op items s).2 = (each op items t).2 := by
  induction items generalizing s t with
  | nil => exact ⟨h, rfl⟩
  | cons m items ih =>
    obtain ⟨hstore, hresult⟩ := hop m List.mem_cons_self s t h
    obtain ⟨hstores, hresults⟩ := ih (fun m' hm' => hop m' (List.mem_cons_of_mem _ hm')) hstore
    refine ⟨hstores, ?_⟩
    simp only [each]
    rw [hresult, hresults]

theorem same_cleanup (h : Same mine s t) {bucket : String} (hbucket : mine bucket)
    (S : IdentitySettings) (now : ℤ) : Same mine (cleanup S now bucket s) (cleanup S now bucket t) := by
  unfold cleanup
  rw [(h bucket hbucket).2]
  generalize (t.zsets (expiryKey bucket)).rangeByScore (· ≤ now) S.cleanupLimit = fields
  induction fields generalizing s t with
  | nil => exact h
  | cons field fields ih => exact ih (same_drop h (l := ⟨bucket, field⟩) hbucket)

theorem same_claimMember (h : Same mine s t) {m : Member} (hm : mine m.location.bucket)
    (now pendingExpiry : ℤ) :
    Same mine (claimMember now pendingExpiry m s).1 (claimMember now pendingExpiry m t).1 ∧
      (claimMember now pendingExpiry m s).2 = (claimMember now pendingExpiry m t).2 := by
  unfold claimMember
  rw [same_current h hm, same_expired h hm now]
  have hstale : Same mine
      (if (t.current m.location).isSome && t.expired now m.location then s.drop m.location else s)
      (if (t.current m.location).isSome && t.expired now m.location then t.drop m.location
        else t) := by
    split_ifs
    · exact same_drop h hm
    · exact h
  dsimp only
  split
  · exact ⟨same_put hstale hm _ _, rfl⟩
  · exact ⟨hstale, rfl⟩

theorem same_transitionMember (h : Same mine s t) {m : Member} (hm : mine m.location.bucket)
    (target : Phase) (expiry : ℤ) :
    Same mine (transitionMember target expiry m s).1 (transitionMember target expiry m t).1 ∧
      (transitionMember target expiry m s).2 = (transitionMember target expiry m t).2 := by
  unfold transitionMember
  rw [same_current h hm]
  split_ifs
  · exact ⟨same_put h hm _ _, rfl⟩
  · exact ⟨h, rfl⟩
  · exact ⟨h, rfl⟩

private theorem same_releaseMember (h : Same mine s t) {m : Member} (hm : mine m.location.bucket) :
    Same mine (releaseMember m s).1 (releaseMember m t).1 ∧
      (releaseMember m s).2 = (releaseMember m t).2 := by
  unfold releaseMember
  rw [same_current h hm]
  split_ifs
  · exact ⟨same_drop h hm, rfl⟩
  · exact ⟨h, rfl⟩

end IdentityStore

namespace IdentityContext
open IdentityStore
variable {C D : IdentityContext} {s t : IdentityStore}

/-- Claims on stores that agree in the buckets of the tenant are answered alike. -/
theorem same_claim (h : Same C.Owns s t) (now : ℤ) (identities : List (String × String)) :
    Same C.Owns (C.eventIdentityStatusBatch now identities s).1
        (C.eventIdentityStatusBatch now identities t).1 ∧
      (C.eventIdentityStatusBatch now identities s).2 =
        (C.eventIdentityStatusBatch now identities t).2 := by
  have hscript : ∀ g ∈ C.groupIdentities identities, ∀ s t, Same C.Owns s t →
      Same C.Owns (claimScript C.settings now g s).1 (claimScript C.settings now g t).1 ∧
        (claimScript C.settings now g s).2 = (claimScript C.settings now g t).2 := by
    intro g hg s t h
    obtain ⟨hbucket, hmembers⟩ := owns_of_group hg
    exact same_each (fun m hm s t h => same_claimMember h (hmembers m hm) now _)
      (same_cleanup h hbucket C.settings now)
  obtain ⟨hstore, hresults⟩ := same_each hscript h
  refine ⟨hstore, ?_⟩
  unfold eventIdentityStatusBatch
  dsimp only
  rw [hresults]

theorem same_call (h : Same C.Owns s t) (c : IdentityCall) :
    Same C.Owns (C.call s c) (C.call t c) := by
  cases c with
  | claim now identities => exact (same_claim h now identities).1
  | transition target now reply identities =>
    have hscript : ∀ g ∈ C.groupIdentities identities, ∀ s t, Same C.Owns s t →
        Same C.Owns (transitionScript target (now + C.targetTtl target) g s).1
            (transitionScript target (now + C.targetTtl target) g t).1 ∧
          (transitionScript target (now + C.targetTtl target) g s).2 =
            (transitionScript target (now + C.targetTtl target) g t).2 := by
      intro g hg s t h
      obtain ⟨hstore, hcounts⟩ := same_each (fun m hm s t h =>
        same_transitionMember h ((owns_of_group hg).2 m hm) target (now + C.targetTtl target)) h
      exact ⟨hstore, congrArg List.sum hcounts⟩
    show Same C.Owns (C.transitionEventIdentities target now reply identities s).1
      (C.transitionEventIdentities target now reply identities t).1
    unfold transitionEventIdentities
    split_ifs
    · exact h
    · cases reply with
      | ok => exact (same_each hscript h).1
      | raised executed =>
        exact (same_each (fun g hg => hscript g (List.mem_filter.mp hg).1) h).1
  | release identities =>
    have hscript : ∀ g ∈ C.groupIdentities identities, ∀ s t, Same C.Owns s t →
        Same C.Owns (releaseScript g s).1 (releaseScript g t).1 ∧
          (releaseScript g s).2 = (releaseScript g t).2 := by
      intro g hg s t h
      obtain ⟨hstore, hcounts⟩ := same_each (fun m hm s t h =>
        same_releaseMember (m := m) h ((owns_of_group hg).2 m hm)) h
      exact ⟨hstore, congrArg List.sum hcounts⟩
    exact (same_each hscript h).1

theorem same_call_other (hapart : ∀ bucket, C.Owns bucket → ¬ D.Owns bucket) (c : IdentityCall)
    (s : IdentityStore) : Same D.Owns (C.call s c) s := by
  have hkept : Kept C.Owns (fun _ _ => True) fun s' => Same D.Owns s' s := by
    constructor
    case put =>
      intro s' h l hl value _ expiry bucket hbucket
      have hne : bucket ≠ l.bucket := by
        rintro rfl
        exact hapart l.bucket hl hbucket
      obtain ⟨hhashes, hzsets⟩ := h bucket hbucket
      unfold put
      dsimp only
      rw [Function.update_of_ne (fun heq => hne (stateKey_inj.mp heq)),
        Function.update_of_ne (fun heq => hne (expiryKey_inj.mp heq))]
      exact ⟨hhashes, hzsets⟩
    case drop =>
      intro s' h l hl bucket hbucket
      have hne : bucket ≠ l.bucket := by
        rintro rfl
        exact hapart l.bucket hl hbucket
      obtain ⟨hhashes, hzsets⟩ := h bucket hbucket
      unfold drop
      dsimp only
      rw [Function.update_of_ne (fun heq => hne (stateKey_inj.mp heq)),
        Function.update_of_ne (fun heq => hne (expiryKey_inj.mp heq))]
      exact ⟨hhashes, hzsets⟩
  exact keep_call hkept c (fun _ _ _ => trivial) ((same_equivalence D.Owns).refl s)

/-! ### Two tenants -/

/-- The same service for another tenant. -/
def under (C : IdentityContext) (tenantId : Option String) : IdentityContext :=
  { C with tenantId := tenantId }

/-- Calls of two tenants in any order: those under the first one are marked `true`. -/
def interleaved (C : IdentityContext) (other : Option String) (s : IdentityStore)
    (c : Bool × IdentityCall) : IdentityStore :=
  if c.1 then C.call s c.2 else (C.under other).call s c.2

/-- Whatever is called under the tenant, the claims under the other one are answered as if nothing
had been called under the tenant. -/
def IsolatedFrom (C : IdentityContext) (other : Option String) : Prop :=
  ∀ (cs : List (Bool × IdentityCall)) (s : IdentityStore) (now : ℤ)
    (identities : List (String × String)),
    ((C.under other).eventIdentityStatusBatch now identities
        (cs.foldl (C.interleaved other) s)).2 =
      ((C.under other).eventIdentityStatusBatch now identities
        ((cs.filter fun c => !c.1).foldl (C.interleaved other) s)).2

private theorem tenant_of_bucket {other : Option String}
    (hsha : NoTagCollision C.py (tenantOrDefault C.tenantId) (tenantOrDefault other))
    {bucket : String} (h : C.Owns bucket) (h' : (C.under other).Owns bucket) :
    tenantOrDefault C.tenantId = tenantOrDefault other := by
  obtain ⟨eventId, rfl⟩ := h
  obtain ⟨eventId', hbucket⟩ := h'
  have hchars := congrArg String.toList hbucket
  unfold locate identityLocation under at hchars
  simp only [String.toList_append, String.toList_ofList, List.append_assoc] at hchars
  have htags := List.append_cancel_left hchars
  have hlength : ∀ text, ((C.py.sha256 text).toList.take 16).length = 16 := by
    intro text
    rw [List.length_take, hsha.length]
    rfl
  obtain ⟨htag, -⟩ := List.append_inj htags (by rw [hlength, hlength])
  exact hsha.tag htag.symm

theorem isolatedFrom_of_ne {other : Option String}
    (hsha : NoTagCollision C.py (tenantOrDefault C.tenantId) (tenantOrDefault other))
    (h : tenantOrDefault C.tenantId ≠ tenantOrDefault other) : C.IsolatedFrom other := by
  intro cs s now identities
  have hapart : ∀ bucket, C.Owns bucket → ¬ (C.under other).Owns bucket :=
    fun bucket hown hown' => h (tenant_of_bucket hsha hown hown')
  have hfilter : cs.filter (fun c => !c.1) =
      (cs.filter fun c => !c.1).filter fun c => !c.1 := by
    rw [List.filter_filter]
    simp
  have hsame : Same (C.under other).Owns (cs.foldl (C.interleaved other) s)
      ((cs.filter fun c => !c.1).foldl (C.interleaved other) s) := by
    refine unwinding (C.interleaved other) (fun c => c.1) (same_equivalence _) hfilter ?_ ?_ s
    · intro c _ hidden s
      unfold interleaved
      rw [if_pos hidden]
      exact same_call_other hapart c.2 s
    · intro c _ hvisible s t hst
      unfold interleaved
      rw [if_neg (by simp [hvisible]), if_neg (by simp [hvisible])]
      exact same_call hst c.2
  exact (same_claim hsame now identities).2

theorem statuses_empty (C : IdentityContext) :
    (C.eventIdentityStatusBatch 0 [("e", "f")] .empty).2 = [.owner] ∧
      (C.eventIdentityStatusBatch 0 [("e", "f")]
        (C.eventIdentityStatusBatch 0 [("e", "f")] .empty).1).2 = [.pending] := by
  have hempty : IdentityStore.empty.live 0 (C.locate "e") = none := rfl
  have hfirst := C.eventIdentityStatusBatch_statuses 0 [("e", "f")] .empty
  have hsecond := C.eventIdentityStatusBatch_statuses 0 [("e", "f")]
    (C.eventIdentityStatusBatch 0 [("e", "f")] .empty).1
  unfold statuses located at hfirst hsecond
  simp only [List.map_cons, List.map_nil, runKeyed] at hfirst hsecond
  rw [hempty] at hfirst
  refine ⟨hfirst.2, ?_⟩
  rw [hsecond.2, hfirst.1, Function.update_self]
  show [claimAnswer (some (entryText .pending "f")) "f"] = [.pending]
  rw [claimAnswer_entry, if_pos rfl]

theorem not_isolatedFrom_of_eq {other : Option String}
    (heq : tenantOrDefault C.tenantId = tenantOrDefault other) : ¬ C.IsolatedFrom other := by
  intro h
  have hsame : ∀ now identities s, (C.under other).eventIdentityStatusBatch now identities s =
      C.eventIdentityStatusBatch now identities s := by
    intro now identities s
    unfold eventIdentityStatusBatch groupIdentities members locate identityLocation under
    dsimp only
    rw [heq]
  have hclaim := h [(true, .claim 0 [("e", "f")])] .empty 0 [("e", "f")]
  rw [hsame, hsame] at hclaim
  obtain ⟨howner, hpending⟩ := C.statuses_empty
  have hcall : [(true, IdentityCall.claim 0 [("e", "f")])].foldl (C.interleaved other) .empty =
      (C.eventIdentityStatusBatch 0 [("e", "f")] .empty).1 := rfl
  have hnone : ([(true, IdentityCall.claim 0 [("e", "f")])].filter fun c => !c.1).foldl
      (C.interleaved other) .empty = .empty := rfl
  rw [hcall, hnone, howner, hpending] at hclaim
  cases hclaim

/-- Two tenant contexts are isolated from each other exactly when they name different tenants, no
tenant id being the tenant `default`. -/
theorem isolatedFrom_iff (C : IdentityContext) (other : Option String)
    (hsha : NoTagCollision C.py (tenantOrDefault C.tenantId) (tenantOrDefault other)) :
    C.IsolatedFrom other ↔ tenantOrDefault C.tenantId ≠ tenantOrDefault other :=
  ⟨fun h heq => not_isolatedFrom_of_eq heq h, isolatedFrom_of_ne hsha⟩

end IdentityContext

/-- SHA-256 on the names `acme` and `default`. -/
def Python.onTenants : Python :=
  { Python.ofEventId with
    sha256 := fun text =>
      if text = "acme" then "822b33ad87c148a0a20a5ba7cd5ebcaa68d36a18e7aad165554903f52ca82757"
      else "37a8eec1ce19687d132fe29051dca629d164e2c4958ba141d5f4133a33f0688f" }

theorem noTagCollision_onTenants {name name' : String}
    (h : (Python.onTenants.sha256 name).toList.take 16 =
      (Python.onTenants.sha256 name').toList.take 16 → name = name') :
    NoTagCollision .onTenants name name' where
  length text := by
    unfold Python.onTenants
    dsimp only
    split_ifs <;> decide
  tag := h

/-- The claims of `acme` do not touch those without a tenant. -/
theorem isolatedFrom_acme : (IdentityContext.mk .onTenants {} (some "acme")).IsolatedFrom none :=
  (IdentityContext.isolatedFrom_iff _ none (noTagCollision_onTenants (by decide))).mpr (by decide)

/-- The tenant `default` and no tenant at all are two contexts with the same claims. -/
theorem not_isolatedFrom_default :
    ¬ ∀ (C : IdentityContext) (other : Option String),
      NoTagCollision C.py (tenantOrDefault C.tenantId) (tenantOrDefault other) →
        C.tenantId ≠ other → C.IsolatedFrom other := by
  intro h
  have hsha : NoTagCollision .onTenants "default" "default" := noTagCollision_onTenants fun _ => rfl
  exact IdentityContext.not_isolatedFrom_of_eq rfl
    (h ⟨.onTenants, {}, some "default"⟩ none hsha (by decide))

end FluxMeter.Custody
