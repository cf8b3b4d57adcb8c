import FluxMeter.ControlPlane.Tenants
import Mathlib.Tactic.Common

/-! What one command of a creation or of a deletion does to the keys: they hold what the creations have
written and the deletions have not yet removed. -/
namespace FluxMeter.ControlPlane

/-! ### Keys that creations write and deletions remove -/

section Slots
variable {κ ν : Type*} {made made' : Creation → ℕ → Prop} {gone gone' late late' : String → ℕ → Prop}
  {a b : ℕ} {key : Creation → κ} {val : Creation → ν} {f : κ → Option ν}

/-- The keys hold what creations wrote with command `a`, until a deletion is past command `b`. -/
def Slot (made : Creation → ℕ → Prop) (gone : String → ℕ → Prop) (a b : ℕ) (key : Creation → κ)
    (val : Creation → ν) (f : κ → Option ν) : Prop :=
  ∀ k v, f k = some v ↔ ∃ c, key c = k ∧ val c = v ∧ made c a ∧ ¬ gone c.tenantId b

theorem Slot.frame (h : Slot made gone a b key val f)
    (hsame : ∀ c, (made' c a ∧ ¬ gone' c.tenantId b) ↔ (made c a ∧ ¬ gone c.tenantId b)) :
    Slot made' gone' a b key val f := by
  intro k v
  rw [h k v]
  exact exists_congr fun c => and_congr_right fun _ => and_congr_right fun _ => (hsame c).symm

theorem Slot.write [DecidableEq κ] (h : Slot made gone a b key val f) {c₀ : Creation}
    (hkey : ∀ c, made c a → key c ≠ key c₀) (hgone : ¬ gone c₀.tenantId b)
    (hmade : ∀ c, made' c a ↔ made c a ∨ c = c₀) :
    Slot made' gone a b key val (Function.update f (key c₀) (some (val c₀))) := by
  intro k v
  by_cases hk : k = key c₀
  · rw [hk, Function.update_self]
    constructor
    · intro hv
      exact ⟨c₀, rfl, Option.some.inj hv, (hmade c₀).mpr (Or.inr rfl), hgone⟩
    · rintro ⟨c, hc, rfl, hm, -⟩
      rcases (hmade c).mp hm with hold | rfl
      · exact absurd hc (hkey c hold)
      · rfl
  · rw [Function.update_of_ne hk, h k v]
    constructor
    · rintro ⟨c, hc, hv, hm, hg⟩
      exact ⟨c, hc, hv, (hmade c).mpr (Or.inl hm), hg⟩
    · rintro ⟨c, hc, hv, hm, hg⟩
      rcases (hmade c).mp hm with hold | rfl
      · exact ⟨c, hc, hv, hold, hg⟩
      · exact absurd hc.symm hk

theorem Slot.erase [DecidableEq κ] (h : Slot made gone a b key val f) {id₀ : String} {k₀ : κ}
    (hkey : ∀ c, made c a → (c.tenantId = id₀ ↔ key c = k₀))
    (hgone : ∀ id, gone' id b ↔ gone id b ∨ id = id₀) :
    Slot made gone' a b key val (Function.update f k₀ none) := by
  intro k v
  by_cases hk : k = k₀
  · rw [hk, Function.update_self]
    refine iff_of_false (Option.some_ne_none v).symm ?_
    rintro ⟨c, hc, -, hm, hg⟩
    exact hg ((hgone _).mpr (Or.inr ((hkey c hm).mpr hc)))
  · rw [Function.update_of_ne hk, h k v]
    refine exists_congr fun c => and_congr_right fun hc => and_congr_right fun _ =>
      and_congr_right fun hm => not_congr ?_
    rw [hgone, or_iff_left]
    exact fun hid => hk (hc.symm.trans ((hkey c hm).mp hid))

/-- A limit of a tenant: written with command `a`; gone once a deletion by one who was told of the
creation is past command `b`, and kept where no deletion is. -/
structure Limited (made : Creation → ℕ → Prop) (gone late : String → ℕ → Prop) (a b : ℕ)
    (val : Creation → String) (f : String → Option String) : Prop where
  of_some : ∀ id v, f id = some v →
    (∃ c, c.tenantId = id ∧ val c = v ∧ made c a) ∧ ¬ late id b
  of_made : ∀ c, made c a → ¬ gone c.tenantId b → f c.tenantId ≠ none

variable {limit : Creation → String} {g : String → Option String}

theorem Limited.frame (h : Limited made gone late a b limit g) (hmade : ∀ c, made' c a ↔ made c a)
    (hgone : ∀ id, gone' id b ↔ gone id b) (hlate : ∀ id, late' id b ↔ late id b) :
    Limited made' gone' late' a b limit g where
  of_some id v hv := by
    obtain ⟨⟨c, hc, hval, hm⟩, hl⟩ := h.of_some id v hv
    exact ⟨⟨c, hc, hval, (hmade c).mpr hm⟩, fun hlate' => hl ((hlate id).mp hlate')⟩
  of_made c hm hg := h.of_made c ((hmade c).mp hm) fun hgone' => hg ((hgone _).mpr hgone')

theorem Limited.write (h : Limited made gone late a b limit g) {c₀ : Creation}
    (hlate : ¬ late c₀.tenantId b) (hmade : ∀ c, made' c a ↔ made c a ∨ c = c₀) :
    Limited made' gone late a b limit
      (Function.update g c₀.tenantId (some (limit c₀))) where
  of_some id v hv := by
    by_cases hid : id = c₀.tenantId
    · rw [hid, Function.update_self] at hv
      rw [hid]
      exact ⟨⟨c₀, rfl, Option.some.inj hv, (hmade c₀).mpr (Or.inr rfl)⟩, hlate⟩
    · rw [Function.update_of_ne hid] at hv
      obtain ⟨⟨c, hc, hval, hm⟩, hl⟩ := h.of_some id v hv
      exact ⟨⟨c, hc, hval, (hmade c).mpr (Or.inl hm)⟩, hl⟩
  of_made c hm hg := by
    by_cases hid : c.tenantId = c₀.tenantId
    · rw [hid, Function.update_self]
      exact Option.some_ne_none _
    · rw [Function.update_of_ne hid]
      rcases (hmade c).mp hm with hold | rfl
      · exact h.of_made c hold hg
      · exact absurd rfl hid

theorem Limited.erase (h : Limited made gone late a b limit g) {id₀ : String}
    (hgone : ∀ id, gone' id b ↔ gone id b ∨ id = id₀)
    (hlate : ∀ id, id ≠ id₀ → (late' id b ↔ late id b)) :
    Limited made gone' late' a b limit (Function.update g id₀ none) where
  of_some id v hv := by
    by_cases hid : id = id₀
    · rw [hid, Function.update_self] at hv
      cases hv
    · rw [Function.update_of_ne hid] at hv
      obtain ⟨hc, hl⟩ := h.of_some id v hv
      exact ⟨hc, fun hlate' => hl ((hlate id hid).mp hlate')⟩
  of_made c hm hg := by
    have hid : c.tenantId ≠ id₀ := fun hid => hg ((hgone _).mpr (Or.inr hid))
    rw [Function.update_of_ne hid]
    exact h.of_made c hm fun hold => hg ((hgone _).mpr (Or.inl hold))

end Slots

/-! ### One command -/

/-- What is known of the requests: no two creations share a tenant or a digest, and no deletion is
ahead of what its caller was shown. -/
structure Requests (sha256 : String → String) (made : Creation → ℕ → Prop)
    (gone late : String → ℕ → Prop) : Prop where
  sameId : ∀ c c', made c 0 → made c' 0 → c.tenantId = c'.tenantId → c = c'
  sameDigest : ∀ c c', made c 0 → made c' 0 →
    digest (sha256 c.apiKey) = digest (sha256 c'.apiKey) → c = c'
  shown : ∀ c, made c 0 → gone c.tenantId 0 → made c 3
  answered : ∀ c, made c 0 → late c.tenantId 0 → made c 5
  madeOf : ∀ c j k, made c k → j ≤ k → made c j
  goneOf : ∀ id j k, gone id k → j ≤ k → gone id j
  lateOf : ∀ id j k, late id k → j ≤ k → late id j

/-- What the keys hold. -/
structure Holds (sha256 : String → String) (made : Creation → ℕ → Prop)
    (gone late : String → ℕ → Prop) (s : Store) : Prop where
  tenants : Slot made gone 1 4 Creation.tenantId (fun c => c.record sha256) s.tenants
  apiKeys : Slot made gone 2 3 (fun c => digest (sha256 c.apiKey)) Creation.tenantId s.apiKeys
  ids : ∀ id, id ∈ s.ids ↔ ∃ c, c.tenantId = id ∧ made c 3 ∧ ¬ gone id 5
  maxEps : Limited made gone late 4 6 (fun c => toString c.limits.maxEps) s.maxEps
  maxEventsMonth :
    Limited made gone late 5 7 (fun c => toString c.limits.maxEventsPerMonth) s.maxEventsMonth

section Commands
variable {sha256 : String → String} {made made' : Creation → ℕ → Prop}
  {gone gone' late late' : String → ℕ → Prop} {s : Store}

theorem Holds.frame (h : Holds sha256 made gone late s)
    (hmade : ∀ c k, 1 ≤ k → (made' c k ↔ made c k))
    (hgone : ∀ id k, 3 ≤ k → (gone' id k ↔ gone id k))
    (hlate : ∀ id k, 3 ≤ k → (late' id k ↔ late id k)) : Holds sha256 made' gone' late' s where
  tenants := h.tenants.frame fun c =>
    and_congr (hmade c 1 (by decide)) (not_congr (hgone _ 4 (by decide)))
  apiKeys := h.apiKeys.frame fun c =>
    and_congr (hmade c 2 (by decide)) (not_congr (hgone _ 3 (by decide)))
  ids id := by
    rw [h.ids id]
    exact exists_congr fun c => and_congr_right fun _ =>
      and_congr (hmade c 3 (by decide)).symm (not_congr (hgone id 5 (by decide)).symm)
  maxEps := h.maxEps.frame (fun c => hmade c 4 (by decide)) (fun id => hgone id 6 (by decide))
    fun id => hlate id 6 (by decide)
  maxEventsMonth := h.maxEventsMonth.frame (fun c => hmade c 5 (by decide))
    (fun id => hgone id 7 (by decide)) fun id => hlate id 7 (by decide)

theorem Holds.create (hrequests : Requests sha256 made gone late) (h : Holds sha256 made gone late s)
    {c₀ : Creation} {next : CreateCommand} (hdone : ∀ k, made c₀ k ↔ k ≤ next.done)
    (hmade : ∀ c k, made' c k ↔ made c k ∨ c = c₀ ∧ k ≤ (next.run sha256 c₀ s).2.done) :
    Holds sha256 made' gone late (next.run sha256 c₀ s).1 := by
  have hfirst : made c₀ 0 := (hdone 0).mpr (Nat.zero_le _)
  -- nothing deletes the tenant before it is shown
  have hfresh : ∀ k, next.done < 3 → ¬ gone c₀.tenantId k := by
    intro k hearly hgone
    have hshown := (hdone 3).mp (hrequests.shown c₀ hfirst (hrequests.goneOf _ 0 k hgone (Nat.zero_le k)))
    omega
  have hunanswered : ∀ k, next.done < 5 → ¬ late c₀.tenantId k := by
    intro k hearly hlate
    have hanswered := (hdone 5).mp
      (hrequests.answered c₀ hfirst (hrequests.lateOf _ 0 k hlate (Nat.zero_le k)))
    omega
  have hothers : ∀ n, n ≤ next.done ∨ (next.run sha256 c₀ s).2.done < n →
      ∀ c, made' c n ↔ made c n := by
    intro n hn c
    rw [hmade, or_iff_left_iff_imp]
    rintro ⟨rfl, hle⟩
    exact (hdone n).mpr (by omega)
  have hthis : ∀ {m : ℕ}, (next.run sha256 c₀ s).2.done = m → ∀ c, made' c m ↔ made c m ∨ c = c₀ := by
    intro m hm c
    rw [hmade, hm]
    simp
  have hapart : ∀ c k, next.done < k → made c k → c ≠ c₀ := by
    rintro c k hlt hc rfl
    rw [hdone] at hc
    omega
  have htenants : 1 ≤ next.done ∨ (next.run sha256 c₀ s).2.done < 1 → Slot made' gone 1 4 _ _ _ :=
    fun hn => h.tenants.frame fun c => and_congr_left' (hothers 1 hn c)
  have hapiKeys : 2 ≤ next.done ∨ (next.run sha256 c₀ s).2.done < 2 → Slot made' gone 2 3 _ _ _ :=
    fun hn => h.apiKeys.frame fun c => and_congr_left' (hothers 2 hn c)
  have hids : 3 ≤ next.done ∨ (next.run sha256 c₀ s).2.done < 3 →
      ∀ id, id ∈ s.ids ↔ ∃ c, c.tenantId = id ∧ made' c 3 ∧ ¬ gone id 5 := fun hn id =>
    (h.ids id).trans (exists_congr fun c => and_congr_right fun _ =>
      and_congr_left' (hothers 3 hn c).symm)
  have hmaxEps : 4 ≤ next.done ∨ (next.run sha256 c₀ s).2.done < 4 →
      Limited made' gone late 4 6 _ _ := fun hn =>
    h.maxEps.frame (hothers 4 hn) (fun _ => Iff.rfl) fun _ => Iff.rfl
  have hmaxEventsMonth : 5 ≤ next.done ∨ (next.run sha256 c₀ s).2.done < 5 →
      Limited made' gone late 5 7 _ _ := fun hn =>
    h.maxEventsMonth.frame (hothers 5 hn) (fun _ => Iff.rfl) fun _ => Iff.rfl
  cases next with
  | hsetTenant =>
    have hrun : (CreateCommand.hsetTenant.run sha256 c₀ s).2.done = 1 := rfl
    have hkey : ∀ c, made c 1 → c.tenantId ≠ c₀.tenantId := fun c hc hid =>
      hapart c 1 (by decide) hc
        (hrequests.sameId c c₀ (hrequests.madeOf c 0 1 hc (by decide)) hfirst hid)
    exact
      { tenants := h.tenants.write hkey (hfresh 4 (by decide)) (hthis rfl)
        apiKeys := hapiKeys (Or.inr (hrun.trans_lt (by decide)))
        ids := hids (Or.inr (hrun.trans_lt (by decide)))
        maxEps := hmaxEps (Or.inr (hrun.trans_lt (by decide)))
        maxEventsMonth := hmaxEventsMonth (Or.inr (hrun.trans_lt (by decide))) }
  | setApiKey =>
    have hrun : (CreateCommand.setApiKey.run sha256 c₀ s).2.done = 2 := rfl
    have hkey : ∀ c, made c 2 → digest (sha256 c.apiKey) ≠ digest (sha256 c₀.apiKey) :=
      fun c hc hdigest => hapart c 2 (by decide) hc
        (hrequests.sameDigest c c₀ (hrequests.madeOf c 0 2 hc (by decide)) hfirst hdigest)
    exact
      { tenants := htenants (Or.inl (by decide))
        apiKeys := h.apiKeys.write hkey (hfresh 3 (by decide)) (hthis rfl)
        ids := hids (Or.inr (hrun.trans_lt (by decide)))
        maxEps := hmaxEps (Or.inr (hrun.trans_lt (by decide)))
        maxEventsMonth := hmaxEventsMonth (Or.inr (hrun.trans_lt (by decide))) }
  | saddTenant =>
    have hrun : (CreateCommand.saddTenant.run sha256 c₀ s).2.done = 3 := rfl
    refine
      { tenants := htenants (Or.inl (by decide))
        apiKeys := hapiKeys (Or.inl (by decide))
        ids := fun id => ?_
        maxEps := hmaxEps (Or.inr (hrun.trans_lt (by decide)))
        maxEventsMonth := hmaxEventsMonth (Or.inr (hrun.trans_lt (by decide))) }
    show id ∈ s.ids.insert c₀.tenantId ↔ _
    rw [List.mem_insert_iff, h.ids id]
    constructor
    · rintro (rfl | ⟨c, hc, hm, hg⟩)
      · exact ⟨c₀, rfl, (hthis rfl c₀).mpr (Or.inr rfl), hfresh 5 (by decide)⟩
      · exact ⟨c, hc, (hthis rfl c).mpr (Or.inl hm), hg⟩
    · rintro ⟨c, hc, hm, hg⟩
      rcases (hthis rfl c).mp hm with hold | rfl
      · exact Or.inr ⟨c, hc, hold, hg⟩
      · exact Or.inl hc.symm
  | setMaxEps =>
    have hrun : (CreateCommand.setMaxEps.run sha256 c₀ s).2.done = 4 := rfl
    exact
      { tenants := htenants (Or.inl (by decide))
        apiKeys := hapiKeys (Or.inl (by decide))
        ids := hids (Or.inl (by decide))
        maxEps := h.maxEps.write (hunanswered 6 (by decide)) (hthis rfl)
        maxEventsMonth := hmaxEventsMonth (Or.inr (hrun.trans_lt (by decide))) }
  | setMaxEventsMonth =>
    exact
      { tenants := htenants (Or.inl (by decide))
        apiKeys := hapiKeys (Or.inl (by decide))
        ids := hids (Or.inl (by decide))
        maxEps := hmaxEps (Or.inl (by decide))
        maxEventsMonth := h.maxEventsMonth.write (hunanswered 7 (by decide)) (hthis rfl) }
  | returned =>
    refine h.frame (fun c k _ => ?_) (fun _ _ _ => Iff.rfl) fun _ _ _ => Iff.rfl
    rw [hmade, or_iff_left_iff_imp]
    rintro ⟨rfl, hle⟩
    exact (hdone k).mpr hle

theorem Holds.delete (hsha : ∀ key, sha256 key ≠ "") (hrequests : Requests sha256 made gone late)
    (h : Holds sha256 made gone late s) {id₀ : String} {told : Prop} {next : DeleteCommand}
    (hat : ∀ k ≤ next.done, gone id₀ k ∧ (told → late id₀ k))
    (hdrawn : ∀ key, next = .delApiKey key →
      ∃ c, c.tenantId = id₀ ∧ digest (sha256 c.apiKey) = key ∧ made c 0)
    (hgone : ∀ id k, gone' id k ↔ gone id k ∨ id = id₀ ∧ k ≤ (next.run id₀ s).2.done)
    (hlate : ∀ id k, late' id k ↔ late id k ∨ told ∧ id = id₀ ∧ k ≤ (next.run id₀ s).2.done) :
    Holds sha256 made gone' late' (next.run id₀ s).1 := by
  -- only the command that is run is passed
  have hothers : ∀ n, n ≤ next.done ∨ (next.run id₀ s).2.done < n →
      ∀ id, (gone' id n ↔ gone id n) ∧ (late' id n ↔ late id n) := by
    intro n hn id
    rw [hgone, hlate, or_iff_left_iff_imp, or_iff_left_iff_imp]
    constructor
    · rintro ⟨rfl, hle⟩
      exact (hat n (by omega)).1
    · rintro ⟨htold, rfl, hle⟩
      exact (hat n (by omega)).2 htold
  have hthis : ∀ {m : ℕ}, (next.run id₀ s).2.done = m → ∀ id, gone' id m ↔ gone id m ∨ id = id₀ := by
    intro m hm id
    rw [hgone, hm]
    simp
  have hearly : (next.run id₀ s).2.done < 3 → Holds sha256 made gone' late' s := fun hlt =>
    h.frame (fun _ _ _ => Iff.rfl) (fun id k hk => (hothers k (Or.inr (by omega)) id).1)
      fun id k hk => (hothers k (Or.inr (by omega)) id).2
  have htenants : 4 ≤ next.done ∨ (next.run id₀ s).2.done < 4 → Slot made gone' 1 4 _ _ _ := fun hn =>
    h.tenants.frame fun c => and_congr_right' (not_congr (hothers 4 hn _).1)
  have hapiKeys : 3 ≤ next.done ∨ (next.run id₀ s).2.done < 3 → Slot made gone' 2 3 _ _ _ := fun hn =>
    h.apiKeys.frame fun c => and_congr_right' (not_congr (hothers 3 hn _).1)
  have hids : 5 ≤ next.done ∨ (next.run id₀ s).2.done < 5 →
      ∀ id, id ∈ s.ids ↔ ∃ c, c.tenantId = id ∧ made c 3 ∧ ¬ gone' id 5 := fun hn id =>
    (h.ids id).trans (exists_congr fun c => and_congr_right fun _ =>
      and_congr_right' (not_congr (hothers 5 hn id).1.symm))
  have hmaxEps : 6 ≤ next.done ∨ (next.run id₀ s).2.done < 6 →
      Limited made gone' late' 4 6 _ _ := fun hn =>
    h.maxEps.frame (fun _ => Iff.rfl) (fun id => (hothers 6 hn id).1) fun id => (hothers 6 hn id).2
  have hmaxEventsMonth : 7 ≤ next.done ∨ (next.run id₀ s).2.done < 7 →
      Limited made gone' late' 5 7 _ _ := fun hn =>
    h.maxEventsMonth.frame (fun _ => Iff.rfl) (fun id => (hothers 7 hn id).1)
      fun id => (hothers 7 hn id).2
  have hlater : ∀ id, id ≠ id₀ → ∀ k, late' id k ↔ late id k := by
    intro id hid k
    rw [hlate, or_iff_left]
    exact fun hthis' => hid hthis'.2.1
  cases next with
  | existsTenant =>
    cases hfound : s.tenants id₀ with
    | none =>
      have hrun : (DeleteCommand.existsTenant.run id₀ s).2 = .notFound := by
        unfold DeleteCommand.run
        rw [hfound]
        rfl
      exact hearly (by rw [hrun]; decide)
    | some data =>
      have hrun : (DeleteCommand.existsTenant.run id₀ s).2 = .hgetall := by
        unfold DeleteCommand.run
        rw [hfound]
        rfl
      exact hearly (by rw [hrun]; decide)
  | hgetall =>
    cases hfound : s.tenants id₀ with
    | none =>
      have hrun : (DeleteCommand.hgetall.run id₀ s).2.done = 3 := by
        unfold DeleteCommand.run
        rw [hfound]
        rfl
      -- another deletion has removed the tenant, and its key before
      have hkey : ∀ c, (made c 2 ∧ ¬ gone' c.tenantId 3) ↔ (made c 2 ∧ ¬ gone c.tenantId 3) := by
        intro c
        refine and_congr_right fun hm => not_congr ?_
        rw [hthis hrun, or_iff_left_iff_imp]
        intro hid
        refine hrequests.goneOf _ 3 4 ?_ (by decide)
        by_contra hkept
        have hthere := (h.tenants id₀ (c.record sha256)).mpr
          ⟨c, hid, rfl, hrequests.madeOf c 1 2 hm (by decide), hkept⟩
        rw [hfound] at hthere
        cases hthere
      exact
        { tenants := htenants (Or.inr (hrun.trans_lt (by decide)))
          apiKeys := h.apiKeys.frame hkey
          ids := hids (Or.inr (hrun.trans_lt (by decide)))
          maxEps := hmaxEps (Or.inr (hrun.trans_lt (by decide)))
          maxEventsMonth := hmaxEventsMonth (Or.inr (hrun.trans_lt (by decide))) }
    | some data =>
      obtain ⟨c, -, rfl, -, -⟩ := (h.tenants id₀ data).mp hfound
      have hrun : (DeleteCommand.hgetall.run id₀ s).2 = .delApiKey (digest (sha256 c.apiKey)) := by
        unfold DeleteCommand.run
        rw [hfound]
        exact if_neg (hsha _)
      exact hearly (by rw [hrun]; show 2 < 3; decide)
  | delApiKey key =>
    have hrun : ((DeleteCommand.delApiKey key).run id₀ s).2.done = 3 := rfl
    obtain ⟨c₁, hid, hdigest, hmade⟩ := hdrawn key rfl
    have hkey : ∀ c, made c 2 →
        (c.tenantId = id₀ ↔ digest (sha256 c.apiKey) = key) := by
      intro c hc
      have hfirst := hrequests.madeOf c 0 2 hc (by decide)
      constructor
      · intro h
        rw [hrequests.sameId c c₁ hfirst hmade (h.trans hid.symm), hdigest]
      · intro h
        rw [hrequests.sameDigest c c₁ hfirst hmade (h.trans hdigest.symm), hid]
    exact
      { tenants := htenants (Or.inr (hrun.trans_lt (by decide)))
        apiKeys := h.apiKeys.erase hkey (hthis rfl)
        ids := hids (Or.inr (hrun.trans_lt (by decide)))
        maxEps := hmaxEps (Or.inr (hrun.trans_lt (by decide)))
        maxEventsMonth := hmaxEventsMonth (Or.inr (hrun.trans_lt (by decide))) }
  | delTenant =>
    have hrun : (DeleteCommand.delTenant.run id₀ s).2.done = 4 := rfl
    exact
      { tenants := h.tenants.erase (fun c _ => Iff.rfl) (hthis rfl)
        apiKeys := hapiKeys (Or.inl (by decide))
        ids := hids (Or.inr (hrun.trans_lt (by decide)))
        maxEps := hmaxEps (Or.inr (hrun.trans_lt (by decide)))
        maxEventsMonth := hmaxEventsMonth (Or.inr (hrun.trans_lt (by decide))) }
  | sremTenant =>
    have hrun : (DeleteCommand.sremTenant.run id₀ s).2.done = 5 := rfl
    refine
      { tenants := htenants (Or.inl (by decide))
        apiKeys := hapiKeys (Or.inl (by decide))
        ids := fun id => ?_
        maxEps := hmaxEps (Or.inr (hrun.trans_lt (by decide)))
        maxEventsMonth := hmaxEventsMonth (Or.inr (hrun.trans_lt (by decide))) }
    show id ∈ s.ids.filter (· ≠ id₀) ↔ _
    rw [List.mem_filter, h.ids id, decide_eq_true_eq]
    constructor
    · rintro ⟨⟨c, hc, hm, hg⟩, hid⟩
      exact ⟨c, hc, hm, fun hg' => ((hthis rfl id).mp hg').elim hg hid⟩
    · rintro ⟨c, hc, hm, hg⟩
      exact ⟨⟨c, hc, hm, fun hg' => hg ((hthis rfl id).mpr (Or.inl hg'))⟩,
        fun hid => hg ((hthis rfl id).mpr (Or.inr hid))⟩
  | delMaxEps =>
    have hrun : (DeleteCommand.delMaxEps.run id₀ s).2.done = 6 := rfl
    exact
      { tenants := htenants (Or.inl (by decide))
        apiKeys := hapiKeys (Or.inl (by decide))
        ids := hids (Or.inl (by decide))
        maxEps := h.maxEps.erase (hthis rfl) fun id hid => hlater id hid 6
        maxEventsMonth := hmaxEventsMonth (Or.inr (hrun.trans_lt (by decide))) }
  | delMaxEventsMonth =>
    exact
      { tenants := htenants (Or.inl (by decide))
        apiKeys := hapiKeys (Or.inl (by decide))
        ids := hids (Or.inl (by decide))
        maxEps := hmaxEps (Or.inl (by decide))
        maxEventsMonth := h.maxEventsMonth.erase (hthis rfl) fun id hid => hlater id hid 7 }
  | deleted =>
    exact h.frame (fun _ _ _ => Iff.rfl)
      (fun id k _ => (hothers k (Nat.lt_or_ge 7 k).symm id).1)
      fun id k _ => (hothers k (Nat.lt_or_ge 7 k).symm id).2
  | notFound => exact hearly (Nat.zero_lt_succ 2)

theorem CreateCommand.done_le_run (sha256 : String → String) (c : Creation) (s : Store)
    (next : CreateCommand) : next.done ≤ (next.run sha256 c s).2.done := by
  cases next with
  | returned => exact le_refl 5
  | hsetTenant => exact Nat.le_succ 0
  | setApiKey => exact Nat.le_succ 1
  | saddTenant => exact Nat.le_succ 2
  | setMaxEps => exact Nat.le_succ 3
  | setMaxEventsMonth => exact Nat.le_succ 4

theorem DeleteCommand.done_le_run (tenantId : String) (s : Store) (next : DeleteCommand) :
    next.done ≤ (next.run tenantId s).2.done := by
  cases next with
  | hgetall =>
    unfold DeleteCommand.run
    cases s.tenants tenantId with
    | none => exact Nat.le_add_right 1 2
    | some data =>
      dsimp only
      by_cases hhash : data.apiKeyHash = ""
      · rw [if_pos hhash]
        exact Nat.le_add_right 1 2
      · rw [if_neg hhash]
        exact Nat.le_succ 1
  | existsTenant => exact Nat.zero_le _
  | notFound => exact Nat.zero_le _
  | delApiKey key => exact Nat.le_succ 2
  | delTenant => exact Nat.le_succ 3
  | sremTenant => exact Nat.le_succ 4
  | delMaxEps => exact Nat.le_succ 5
  | delMaxEventsMonth => exact Nat.le_succ 6
  | deleted => exact le_refl 7

/-- The digest that a deletion goes on to remove is that of the tenant it read. -/
theorem DeleteCommand.run_eq_delApiKey {tenantId key : String} {next : DeleteCommand}
    (h : (next.run tenantId s).2 = .delApiKey key) :
    ∃ data, s.tenants tenantId = some data ∧ digest data.apiKeyHash = key := by
  cases next with
  | hgetall =>
    unfold DeleteCommand.run at h
    cases hfound : s.tenants tenantId with
    | none =>
      rw [hfound] at h
      cases h
    | some data =>
      rw [hfound] at h
      dsimp only at h
      by_cases hhash : data.apiKeyHash = ""
      · rw [if_pos hhash] at h
        cases h
      · rw [if_neg hhash] at h
        exact ⟨data, rfl, DeleteCommand.delApiKey.inj h⟩
  | existsTenant =>
    unfold DeleteCommand.run at h
    dsimp only at h
    by_cases hsome : (s.tenants tenantId).isSome = true
    · rw [if_pos hsome] at h
      cases h
    · rw [if_neg hsome] at h
      cases h
  | notFound => cases h
  | delApiKey key => cases h
  | delTenant => cases h
  | sremTenant => cases h
  | delMaxEps => cases h
  | delMaxEventsMonth => cases h
  | deleted => cases h

theorem DeleteCommand.run_eq_notFound {tenantId : String} {next : DeleteCommand}
    (h : (next.run tenantId s).2 = .notFound) : s.tenants tenantId = none ∨ next = .notFound := by
  cases next with
  | existsTenant =>
    cases hfound : s.tenants tenantId with
    | none => exact Or.inl rfl
    | some data =>
      unfold DeleteCommand.run at h
      rw [hfound] at h
      cases h
  | hgetall =>
    unfold DeleteCommand.run at h
    cases hfound : s.tenants tenantId with
    | none => exact Or.inl rfl
    | some data =>
      rw [hfound] at h
      dsimp only at h
      by_cases hhash : data.apiKeyHash = ""
      · rw [if_pos hhash] at h
        cases h
      · rw [if_neg hhash] at h
        cases h
  | notFound => exact Or.inr rfl
  | delApiKey key => cases h
  | delTenant => cases h
  | sremTenant => cases h
  | delMaxEps => cases h
  | delMaxEventsMonth => cases h
  | deleted => cases h

end Commands

end FluxMeter.ControlPlane
