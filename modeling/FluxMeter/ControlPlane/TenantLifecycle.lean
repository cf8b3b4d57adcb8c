import FluxMeter.ControlPlane.HandlerRuns

/-! What callers of the control plane and of the API see of a tenant, from its creation to its
deletion. -/
namespace FluxMeter.ControlPlane
open FluxMeter.Api Transition

/-- The tenant that `auth.py` finds for a key. -/
def Store.resolve (sha256 : String → String) (s : Store) (key : String) : Option String :=
  resolveTenantFromKey sha256 { tenants := s.apiKeys } (some key)

/-- The usage of a tenant is found, with the plan of its creation. -/
def Store.Found (s : Store) (c : Creation) : Prop :=
  ∃ usage, getTenantUsage s c.tenantId = some usage ∧ usage.plan = c.body.plan ∧
    usage.limits = c.limits

/-- What is served after some steps of the handlers. -/
structure Serves (sha256 : String → String) (w : World) : Prop where
  resolves : ∀ key id, w.store.resolve sha256 key = some id →
    ∃ c next, .creating c next ∈ w.handlers ∧ c.tenantId = id ∧
      digest (sha256 key) = digest (sha256 c.apiKey) ∧ w.store.Found c
  live : ∀ c, .creating c .returned ∈ w.handlers →
    (∀ origin next, .deleting c.tenantId origin next ∉ w.handlers) →
    w.store.resolve sha256 c.apiKey = some c.tenantId ∧ c.tenantId ∈ w.store.ids ∧
      w.store.Found c ∧ w.store.maxEps c.tenantId = some (toString c.limits.maxEps) ∧
      w.store.maxEventsMonth c.tenantId = some (toString c.limits.maxEventsPerMonth)
  deleted : ∀ id origin, .deleting id origin .deleted ∈ w.handlers →
    (∀ key, w.store.resolve sha256 key ≠ some id) ∧ id ∉ w.store.ids ∧
      getTenantUsage w.store id = none ∧
      (∀ session plan, tenantCheckout session w.store id plan = .error (404, "Tenant not found")) ∧
      (origin = .answer → w.store.maxEps id = none ∧ w.store.maxEventsMonth id = none)
  notFound : ∀ id origin, .deleting id origin .notFound ∈ w.handlers →
    ∀ c next, .creating c next ∈ w.handlers → c.tenantId = id → Gone w.handlers id 4

section Serving
variable {sha256 : String → String} {w : World}

private theorem tenantId_ne (c : Creation) : c.tenantId ≠ "" := by
  intro h
  have hlength := congrArg String.length h
  unfold Creation.tenantId at hlength
  rw [String.length_append] at hlength
  exact absurd hlength (by simp)

theorem resolve_iff (h : Inv sha256 w) (key id : String) :
    w.store.resolve sha256 key = some id ↔ key ≠ "" ∧ ∃ c, digest (sha256 c.apiKey) =
      digest (sha256 key) ∧ c.tenantId = id ∧ Made w.handlers c 2 ∧ ¬ Gone w.handlers c.tenantId 3 := by
  unfold Store.resolve resolveTenantFromKey
  by_cases hkey : key = ""
  · rw [if_pos (by simp [Custody.given, hkey])]
    exact iff_of_false (Option.some_ne_none id).symm fun hne => hne.1 hkey
  · rw [if_neg (by simp [Custody.given, hkey]), and_iff_right hkey,
      ← h.holds.apiKeys (digest (sha256 key)) id]
    show (if Custody.given (w.store.apiKeys (digest (sha256 key))) = true then _ else none) = _ ↔ _
    cases hfound : w.store.apiKeys (digest (sha256 key)) with
    | none => exact iff_of_eq rfl
    | some id' =>
      obtain ⟨c, -, rfl, -, -⟩ := (h.holds.apiKeys _ id').mp hfound
      have hgiven : Custody.given (some c.tenantId) = true := by
        simp [Custody.given, tenantId_ne c]
      rw [if_pos hgiven]
      exact iff_of_eq (congrArg (· = some id) hfound)

/-- A tenant with a key, or without a deletion, is found. -/
theorem found_of_made (h : Inv sha256 w) {c : Creation} (hmade : Made w.handlers c 1)
    (hkept : ¬ Gone w.handlers c.tenantId 4) : w.store.Found c := by
  have hthere := (h.holds.tenants c.tenantId (c.record sha256)).mpr ⟨c, rfl, rfl, hmade, hkept⟩
  unfold Store.Found getTenantUsage
  rw [hthere]
  exact ⟨_, rfl, rfl, rfl⟩

theorem limit_eq {made : Creation → ℕ → Prop} {gone late : String → ℕ → Prop} {a b : ℕ}
    {limit : Creation → String} {g : String → Option String} (h : Limited made gone late a b limit g)
    (hsame : ∀ c c', made c a → made c' a → c.tenantId = c'.tenantId → c = c') {c : Creation}
    (hmade : made c a) (hkept : ¬ gone c.tenantId b) : g c.tenantId = some (limit c) := by
  obtain ⟨v, hv⟩ := Option.ne_none_iff_exists'.mp (h.of_made c hmade hkept)
  obtain ⟨⟨c', hid, hval, hm⟩, -⟩ := h.of_some c.tenantId v hv
  rw [hv, ← hval, hsame c' c hm hmade hid]

/-- In every run of the control plane, command by command of any number of handlers: a key leads to its
own tenant only, while that one can be found; a tenant whose creation was answered is served until a
deletion comes; and one whose deletion was answered is served no more. -/
theorem tenant_lifecycle (hsha : ∀ key, sha256 key ≠ "") {as : List Action}
    (hrun : run (step sha256) {} as = some w) : Serves sha256 w := by
  have h := inv_run hsha hrun
  have hreq := h.requests
  constructor
  case resolves =>
    intro key id hid
    obtain ⟨-, c, hdigest, rfl, hm, hg⟩ := (resolve_iff h key id).mp hid
    obtain ⟨next, hmem, hdone⟩ := hm
    exact ⟨c, next, hmem, rfl, hdigest.symm,
      found_of_made h (hreq.madeOf c 1 2 ⟨next, hmem, hdone⟩ (by decide))
        fun hgone => hg (hreq.goneOf _ 3 4 hgone (by decide))⟩
  case live =>
    intro c hmem hnone
    have hm : Made w.handlers c 5 := ⟨.returned, hmem, le_rfl⟩
    have hg : ∀ k, ¬ Gone w.handlers c.tenantId k := by
      rintro k ⟨origin, next, hdeleting, -⟩
      exact hnone origin next hdeleting
    have hkey : c.apiKey ≠ "" := by
      intro hempty
      have hlength := congrArg String.length hempty
      unfold Creation.apiKey at hlength
      rw [String.length_append] at hlength
      exact absurd hlength (by simp)
    have hmade : ∀ k ≤ 5, Made w.handlers c k := fun k hk => hreq.madeOf c k 5 hm hk
    refine ⟨(resolve_iff h _ _).mpr ⟨hkey, c, rfl, rfl, hmade 2 (by decide), hg 3⟩,
      (h.holds.ids _).mpr ⟨c, rfl, hmade 3 (by decide), hg 5⟩,
      found_of_made h (hmade 1 (by decide)) (hg 4), limit_eq h.holds.maxEps ?_ (hmade 4 (by decide)) (hg 6),
      limit_eq h.holds.maxEventsMonth ?_ hm (hg 7)⟩
    · exact fun c c' hc hc' => hreq.sameId c c' (hreq.madeOf c 0 4 hc (by decide))
        (hreq.madeOf c' 0 4 hc' (by decide))
    · exact fun c c' hc hc' => hreq.sameId c c' (hreq.madeOf c 0 5 hc (by decide))
        (hreq.madeOf c' 0 5 hc' (by decide))
  case deleted =>
    intro id origin hmem
    have hg : ∀ k ≤ 7, Gone w.handlers id k := fun k hk => ⟨origin, .deleted, hmem, hk⟩
    have hnone : w.store.tenants id = none := by
      refine Option.eq_none_iff_forall_ne_some.mpr fun data hdata => ?_
      obtain ⟨c, rfl, -, -, hkept⟩ := (h.holds.tenants id data).mp hdata
      exact hkept (hg 4 (by decide))
    refine ⟨fun key hkey => ?_, fun hid => ?_, ?_, fun session plan => ?_, ?_⟩
    · obtain ⟨-, c, -, rfl, -, hkept⟩ := (resolve_iff h key id).mp hkey
      exact hkept (hg 3 (by decide))
    · obtain ⟨c, rfl, -, hkept⟩ := (h.holds.ids id).mp hid
      exact hkept (hg 5 (by decide))
    · unfold getTenantUsage
      rw [hnone, Option.map_none]
    · unfold tenantCheckout
      rw [hnone]
    · rintro rfl
      have hl : ∀ k ≤ 7, Late w.handlers id k := fun k hk => ⟨.deleted, hmem, hk⟩
      constructor
      · refine Option.eq_none_iff_forall_ne_some.mpr fun v hv => ?_
        exact (h.holds.maxEps.of_some id v hv).2 (hl 6 (by decide))
      · refine Option.eq_none_iff_forall_ne_some.mpr fun v hv => ?_
        exact (h.holds.maxEventsMonth.of_some id v hv).2 (hl 7 (by decide))
  case notFound =>
    intro id origin hmem c next hcreating hid
    exact h.missing id origin hmem c hid ⟨next, hcreating, Nat.zero_le _⟩

end Serving

/-- A growth tenant is created and listed, and deleted by one who was told of it. -/
def sampleActions : List Action :=
  .create ⟨{ name := "Acme", email := "a@acme", plan := .growth, length := by decide }, "a1", "k1", 0⟩ ::
    List.replicate 5 (.command 0) ++ .delete "tenant_a1" .answer :: .create
      ⟨{ name := "Beta", email := "b@beta", length := by decide }, "b2", "k2", 5⟩ ::
    List.replicate 7 (.command 1) ++ List.replicate 5 (.command 2)

theorem tenant_lifecycle_acme : ∃ w, run (step sampleSha256) {} sampleActions = some w ∧
    Serves sampleSha256 w ∧ w.store.ids = ["tenant_b2"] := by
  have hsome : ((run (step sampleSha256) {} sampleActions).map fun w => w.store.ids) =
      some ["tenant_b2"] := by
    decide +kernel
  obtain ⟨w, hw, hids⟩ := Option.map_eq_some_iff.mp hsome
  exact ⟨w, hw, tenant_lifecycle sampleSha256_ne hw, hids⟩

end FluxMeter.ControlPlane
