import FluxMeter.ControlPlane.HandlerRuns
import Mathlib.Data.List.Nodup

/-! What `list_tenants` answers while other handlers create and delete tenants. -/
namespace FluxMeter.ControlPlane
open Transition

section Steps
variable {sha256 : String → String} {w w' : World} {a : Action} {as : List Action}

theorem step_forward (hstep : step sha256 w a = some w') :
    (∀ c k, Made w.handlers c k → Made w'.handlers c k) ∧
      ∀ id k, Gone w.handlers id k → Gone w'.handlers id k := by
  have happend : ∀ x : Handler, (∀ c k, Made w.handlers c k → Made (w.handlers ++ [x]) c k) ∧
      ∀ id k, Gone w.handlers id k → Gone (w.handlers ++ [x]) id k := by
    intro x
    constructor
    · rintro c k ⟨next, hmem, hk⟩
      exact ⟨next, List.mem_append_left _ hmem, hk⟩
    · rintro id k ⟨origin, next, hmem, hk⟩
      exact ⟨origin, next, List.mem_append_left _ hmem, hk⟩
  cases a with
  | create c =>
    by_cases hnew : ∀ x ∈ w.handlers, x.Apart sha256 c
    · rw [step, if_pos hnew] at hstep
      rw [← Option.some.inj hstep]
      exact happend _
    · rw [step, if_neg hnew] at hstep
      cases hstep
  | delete id origin =>
    by_cases hshown : ∀ x ∈ w.handlers, x.Shown id origin
    · rw [step, if_pos hshown] at hstep
      rw [← Option.some.inj hstep]
      exact happend _
    · rw [step, if_neg hshown] at hstep
      cases hstep
  | list =>
    rw [← Option.some.inj hstep]
    exact happend _
  | command i =>
    obtain ⟨x, hx, rfl⟩ := Option.map_eq_some_iff.mp hstep
    obtain ⟨hi, hget⟩ := List.getElem?_eq_some_iff.mp hx
    obtain ⟨l₁, l₂, hw, -, hset⟩ := @List.exists_of_set _ i (x.run sha256 w.store).2 w.handlers hi
    rw [hget] at hw
    rw [hset, hw]
    constructor
    · intro c k hm
      rw [made_split] at hm ⊢
      refine hm.imp_left ?_
      rintro ⟨next, rfl, hk⟩
      exact ⟨_, rfl, hk.trans (next.done_le_run sha256 c w.store)⟩
    · intro id k hg
      rw [gone_split] at hg ⊢
      refine hg.imp_left ?_
      rintro ⟨origin, next, rfl, hk⟩
      exact ⟨origin, _, rfl, hk.trans (next.done_le_run id w.store)⟩

theorem nodup_step (h : w.store.ids.Nodup) (hstep : step sha256 w a = some w') :
    w'.store.ids.Nodup := by
  cases a with
  | create c =>
    by_cases hnew : ∀ x ∈ w.handlers, x.Apart sha256 c
    · rw [step, if_pos hnew] at hstep
      rw [← Option.some.inj hstep]
      exact h
    · rw [step, if_neg hnew] at hstep
      cases hstep
  | delete id origin =>
    by_cases hshown : ∀ x ∈ w.handlers, x.Shown id origin
    · rw [step, if_pos hshown] at hstep
      rw [← Option.some.inj hstep]
      exact h
    · rw [step, if_neg hshown] at hstep
      cases hstep
  | list =>
    rw [← Option.some.inj hstep]
    exact h
  | command i =>
    obtain ⟨x, -, rfl⟩ := Option.map_eq_some_iff.mp hstep
    cases x with
    | listing l => exact h
    | creating c next =>
      cases next with
      | saddTenant => exact List.Nodup.insert h
      | hsetTenant => exact h
      | setApiKey => exact h
      | setMaxEps => exact h
      | setMaxEventsMonth => exact h
      | returned => exact h
    | deleting id origin next =>
      cases next with
      | sremTenant => exact h.filter _
      | existsTenant => exact h
      | hgetall => exact h
      | delApiKey key => exact h
      | delTenant => exact h
      | delMaxEps => exact h
      | delMaxEventsMonth => exact h
      | deleted => exact h
      | notFound => exact h

theorem handler_step {i : ℕ} {x : Handler} (hx : w.handlers[i]? = some x)
    (hstep : step sha256 w a = some w') : w'.handlers[i]? = some x ∨
      w'.store = (x.run sha256 w.store).1 ∧ w'.handlers[i]? = some (x.run sha256 w.store).2 := by
  have hi := (List.getElem?_eq_some_iff.mp hx).1
  have happend : ∀ y, (w.handlers ++ [y])[i]? = some x := fun y => by
    rw [List.getElem?_append_left hi, hx]
  cases a with
  | create c =>
    by_cases hnew : ∀ x ∈ w.handlers, x.Apart sha256 c
    · rw [step, if_pos hnew] at hstep
      rw [← Option.some.inj hstep]
      exact Or.inl (happend _)
    · rw [step, if_neg hnew] at hstep
      cases hstep
  | delete id origin =>
    by_cases hshown : ∀ x ∈ w.handlers, x.Shown id origin
    · rw [step, if_pos hshown] at hstep
      rw [← Option.some.inj hstep]
      exact Or.inl (happend _)
    · rw [step, if_neg hshown] at hstep
      cases hstep
  | list =>
    rw [← Option.some.inj hstep]
    exact Or.inl (happend _)
  | command j =>
    obtain ⟨y, hy, rfl⟩ := Option.map_eq_some_iff.mp hstep
    by_cases hij : j = i
    · rw [hij] at hy ⊢
      rw [hx] at hy
      rw [← Option.some.inj hy]
      exact Or.inr ⟨rfl, List.getElem?_set_self hi⟩
    · refine Or.inl ?_
      rw [List.getElem?_set_ne hij]
      exact hx

end Steps

/-! ### One list -/

/-- A loop of `list_tenants` that began after the handlers `before`, with `rest` to read and the rows
read so far: each tenant that could be seen then is read, to be read or deleted. -/
structure Reading (sha256 : String → String) (before : List Handler) (w : World)
    (rest : List String) (tenants : List TenantRow) : Prop where
  covers : ∀ c, Made before c 3 → Gone w.handlers c.tenantId 4 ∨ c.tenantId ∈ rest ∨
    rowOf c.tenantId (c.record sha256) ∈ tenants
  made : ∀ row ∈ tenants, ∃ c, row = rowOf c.tenantId (c.record sha256) ∧ Made w.handlers c 1 ∧
    ¬ Gone before c.tenantId 4
  once : (tenants.map TenantRow.tenantId ++ rest).Nodup

/-- The list `i` has not begun, or is reading. -/
def Lists (sha256 : String → String) (before : List Handler) (i : ℕ) (w : World) : Prop :=
  w.handlers[i]? = some (.listing .smembers) ∨
    ∃ ids rest tenants, w.handlers[i]? = some (.listing (.loop ids rest tenants)) ∧
      Reading sha256 before w rest tenants

section Lists
variable {sha256 : String → String} {before : List Handler} {i : ℕ} {w w' : World}

theorem Reading.mono {rest : List String} {tenants : List TenantRow}
    (h : Reading sha256 before w rest tenants)
    (hmade : ∀ c k, Made w.handlers c k → Made w'.handlers c k)
    (hgone : ∀ id k, Gone w.handlers id k → Gone w'.handlers id k) :
    Reading sha256 before w' rest tenants where
  covers c hc := (h.covers c hc).imp_left (hgone _ 4)
  made row hrow := by
    obtain ⟨c, hc, hm, hg⟩ := h.made row hrow
    exact ⟨c, hc, hmade c 1 hm, hg⟩
  once := h.once

private theorem reading_smembers (h : Inv sha256 w) (hnodup : w.store.ids.Nodup)
    (hmade : ∀ c k, Made before c k → Made w.handlers c k) :
    Reading sha256 before w w.store.ids [] where
  covers c hc := by
    by_cases hgone : Gone w.handlers c.tenantId 5
    · exact Or.inl (h.requests.goneOf _ 4 5 hgone (by decide))
    · exact Or.inr (Or.inl ((h.holds.ids _).mpr ⟨c, rfl, hmade c 3 hc, hgone⟩))
  made row hrow := by cases hrow
  once := hnodup

private theorem reading_hgetall (h : Inv sha256 w)
    (hgone : ∀ id k, Gone before id k → Gone w.handlers id k)
    (hmade : ∀ c k, Made before c k → Made w.handlers c k) {tid : String} {rest : List String}
    {tenants : List TenantRow} (hreading : Reading sha256 before w (tid :: rest) tenants) :
    Reading sha256 before w rest
      (tenants ++ ((w.store.tenants tid).map (rowOf tid)).toList) := by
  have hstored := h.holds.tenants tid
  have honce := hreading.once
  cases hfound : w.store.tenants tid with
  | none =>
    rw [Option.map_none, Option.toList_none, List.append_nil]
    refine ⟨fun c hc => ?_, hreading.made, honce.sublist
      (List.Sublist.append_left (List.sublist_cons_self tid rest) _)⟩
    rcases hreading.covers c hc with hgone' | hrest | hrow
    · exact Or.inl hgone'
    · rcases List.mem_cons.mp hrest with hid | hrest
      · refine Or.inl (by_contra fun hkept => ?_)
        have hthere := (hstored (c.record sha256)).mpr
          ⟨c, hid, rfl, h.requests.madeOf c 1 3 (hmade c 3 hc) (by decide), hkept⟩
        rw [hfound] at hthere
        cases hthere
      · exact Or.inr (Or.inl hrest)
    · exact Or.inr (Or.inr hrow)
  | some data =>
    obtain ⟨c₀, rfl, rfl, hm₀, hkept₀⟩ := (hstored data).mp hfound
    rw [Option.map_some, Option.toList_some]
    refine ⟨fun c hc => ?_, fun row hrow => ?_, ?_⟩
    · rcases hreading.covers c hc with hgone' | hrest | hrow
      · exact Or.inl hgone'
      · rcases List.mem_cons.mp hrest with hid | hrest
        · have hsame := h.requests.sameId c c₀
            (h.requests.madeOf c 0 3 (hmade c 3 hc) (by decide))
            (h.requests.madeOf c₀ 0 1 hm₀ (by decide)) hid
          rw [hsame]
          exact Or.inr (Or.inr (List.mem_append_right _ List.mem_cons_self))
        · exact Or.inr (Or.inl hrest)
      · exact Or.inr (Or.inr (List.mem_append_left _ hrow))
    · rcases List.mem_append.mp hrow with hold | hthis
      · exact hreading.made row hold
      · exact ⟨c₀, List.mem_singleton.mp hthis, hm₀, fun hg => hkept₀ (hgone _ 4 hg)⟩
    · rw [List.map_append, List.map_singleton, List.append_assoc]
      exact honce

private theorem lists_step (h : Inv sha256 w) (hnodup : w.store.ids.Nodup)
    (hmade : ∀ c k, Made before c k → Made w.handlers c k)
    (hgone : ∀ id k, Gone before id k → Gone w.handlers id k) (hlists : Lists sha256 before i w)
    {a : Action} (hstep : step sha256 w a = some w') : Lists sha256 before i w' := by
  obtain ⟨hforward, hforward'⟩ := step_forward hstep
  rcases hlists with hbegin | ⟨ids, rest, tenants, hloop, hreading⟩
  · rcases handler_step hbegin hstep with hsame | ⟨-, hnext⟩
    · exact Or.inl hsame
    · exact Or.inr ⟨_, _, _, hnext, (reading_smembers h hnodup hmade).mono hforward hforward'⟩
  · rcases handler_step hloop hstep with hsame | ⟨-, hnext⟩
    · exact Or.inr ⟨ids, rest, tenants, hsame, hreading.mono hforward hforward'⟩
    · cases rest with
      | nil => exact Or.inr ⟨_, _, _, hnext, hreading.mono hforward hforward'⟩
      | cons tid rest =>
        exact Or.inr ⟨_, _, _, hnext,
          (reading_hgetall h hgone hmade hreading).mono hforward hforward'⟩

/-- In every run, what a list answers that was asked for after some steps: one row for each tenant that
could be seen then and is not deleted at the end, and none for one that was deleted then. -/
theorem list_tenants_exact (hsha : ∀ key, sha256 key ≠ "") {as bs : List Action} {w₁ w₂ : World}
    (hbefore : run (step sha256) {} as = some w₁) (hlist : w₁.handlers[i]? = some (.listing .smembers))
    (hrun : run (step sha256) w₁ bs = some w₂) {ids : List String} {tenants : List TenantRow}
    (hanswer : w₂.handlers[i]? = some (.listing (.loop ids [] tenants))) :
    (∀ c, Made w₁.handlers c 3 → ¬ Gone w₂.handlers c.tenantId 4 →
        rowOf c.tenantId (c.record sha256) ∈ tenants) ∧
      (∀ row ∈ tenants, ∃ c, row = rowOf c.tenantId (c.record sha256) ∧ Made w₂.handlers c 1 ∧
        ¬ Gone w₁.handlers c.tenantId 4) ∧
      (tenants.map TenantRow.tenantId).Nodup := by
  have hnodup : w₁.store.ids.Nodup :=
    run_invariant (fun w a w' h hstep => nodup_step h hstep) List.nodup_nil hbefore
  have hinv := inv_run hsha hbefore
  have hall : Inv sha256 w₂ ∧ w₂.store.ids.Nodup ∧
      (∀ c k, Made w₁.handlers c k → Made w₂.handlers c k) ∧
      (∀ id k, Gone w₁.handlers id k → Gone w₂.handlers id k) ∧ Lists sha256 w₁.handlers i w₂ := by
    refine run_invariant (P := fun w => Inv sha256 w ∧ w.store.ids.Nodup ∧
      (∀ c k, Made w₁.handlers c k → Made w.handlers c k) ∧
      (∀ id k, Gone w₁.handlers id k → Gone w.handlers id k) ∧ Lists sha256 w₁.handlers i w) ?_
      ⟨hinv, hnodup, fun _ _ h => h, fun _ _ h => h, Or.inl hlist⟩ hrun
    rintro w a w' ⟨h, hids, hmade, hgone, hlists⟩ hstep
    obtain ⟨hforward, hforward'⟩ := step_forward hstep
    exact ⟨inv_step hsha h hstep, nodup_step hids hstep,
      fun c k hm => hforward c k (hmade c k hm), fun id k hg => hforward' id k (hgone id k hg),
      lists_step h hids hmade hgone hlists hstep⟩
  obtain ⟨-, -, -, -, hlists⟩ := hall
  rcases hlists with hbegin | ⟨ids', rest, tenants', hloop, hreading⟩
  · rw [hanswer] at hbegin
    cases hbegin
  · rw [hanswer] at hloop
    cases hloop
    refine ⟨fun c hc hkept => ?_, hreading.made, ?_⟩
    · rcases hreading.covers c hc with hgone | hrest | hrow
      · exact absurd hgone hkept
      · cases hrest
      · exact hrow
    · have honce := hreading.once
      rw [List.append_nil] at honce
      exact honce

end Lists

/-- Two tenants that exist when a list is asked for, of which one is deleted before it is read. -/
def listActions : List Action × List Action :=
  (.create ⟨{ name := "Acme Ltd", email := "a@acme", length := by decide }, "a1", "k1", 0⟩ ::
      .create ⟨{ name := "Beta Ltd", email := "b@beta", length := by decide }, "b2", "k2", 5⟩ ::
      List.replicate 5 (.command 0) ++ List.replicate 5 (.command 1) ++ [.list],
    .delete "tenant_a1" .list :: .command 2 :: List.replicate 7 (.command 3) ++
      List.replicate 2 (.command 2))

theorem list_tenants_exact_beta : ∃ w₁ w₂ ids tenants,
    run (step sampleSha256) {} listActions.1 = some w₁ ∧
    run (step sampleSha256) w₁ listActions.2 = some w₂ ∧
    w₂.handlers[2]? = some (.listing (.loop ids [] tenants)) ∧
    ((∀ c, Made w₁.handlers c 3 → ¬ Gone w₂.handlers c.tenantId 4 →
        rowOf c.tenantId (c.record sampleSha256) ∈ tenants) ∧
      (∀ row ∈ tenants, ∃ c, row = rowOf c.tenantId (c.record sampleSha256) ∧
        Made w₂.handlers c 1 ∧ ¬ Gone w₁.handlers c.tenantId 4) ∧
      (tenants.map TenantRow.tenantId).Nodup) ∧
    tenants.map TenantRow.tenantId = ["tenant_b2"] := by
  have hsome : ((run (step sampleSha256) {} listActions.1).bind fun w₁ =>
      (run (step sampleSha256) w₁ listActions.2).map fun w₂ =>
        (w₁.handlers[2]?, w₂.handlers[2]?)) = some (some (.listing .smembers),
          some (.listing (.loop ["tenant_b2", "tenant_a1"] []
            [rowOf "tenant_b2" ⟨"Beta Ltd", "b@beta", .free, 
              "7424006201098bff664545dc7ef8f7cb6e14050086026b73d150263424cda429", 5, ""⟩]))) := by
    rfl
  obtain ⟨w₁, hw₁, hsome⟩ := Option.bind_eq_some_iff.mp hsome
  obtain ⟨w₂, hw₂, hpair⟩ := Option.map_eq_some_iff.mp hsome
  obtain ⟨hlist, hanswer⟩ := Prod.mk.inj hpair
  refine ⟨w₁, w₂, _, _, hw₁, hw₂, hanswer,
    list_tenants_exact sampleSha256_ne hw₁ hlist hw₂ hanswer, rfl⟩

end FluxMeter.ControlPlane
