import FluxMeter.ControlPlane.StoreCommands
import Mathlib.Data.List.Pairwise

/-! The invariant of every run of the handlers: how far the creations and the deletions are says what the
keys hold. -/
namespace FluxMeter.ControlPlane
open Transition

/-- The creation is past its first `k` commands. -/
def Made (handlers : List Handler) (c : Creation) (k : ℕ) : Prop :=
  ∃ next, .creating c next ∈ handlers ∧ k ≤ next.done

/-- A deletion of the tenant is past its first `k` commands. -/
def Gone (handlers : List Handler) (tenantId : String) (k : ℕ) : Prop :=
  ∃ origin next, .deleting tenantId origin next ∈ handlers ∧ k ≤ next.done

/-- One is whose caller had the answer to the creation. -/
def Late (handlers : List Handler) (tenantId : String) (k : ℕ) : Prop :=
  ∃ next, .deleting tenantId .answer next ∈ handlers ∧ k ≤ next.done

def Handler.creation : Handler → Option Creation
  | .creating c _ => some c
  | .deleting _ _ _ => none
  | .listing _ => none

/-- Creations that share neither a tenant nor a digest. -/
def Apart (sha256 : String → String) (c c' : Creation) : Prop :=
  c.tenantId ≠ c'.tenantId ∧ digest (sha256 c.apiKey) ≠ digest (sha256 c'.apiKey)

structure Inv (sha256 : String → String) (w : World) : Prop where
  apart : (w.handlers.filterMap Handler.creation).Pairwise (Apart sha256)
  shown : ∀ c, Made w.handlers c 0 → Gone w.handlers c.tenantId 0 → Made w.handlers c 3
  answered : ∀ c, Made w.handlers c 0 → Late w.handlers c.tenantId 0 → Made w.handlers c 5
  drawn : ∀ tenantId origin key, .deleting tenantId origin (.delApiKey key) ∈ w.handlers →
    ∃ c, c.tenantId = tenantId ∧ digest (sha256 c.apiKey) = key ∧ Made w.handlers c 0
  missing : ∀ tenantId origin, .deleting tenantId origin .notFound ∈ w.handlers →
    ∀ c, c.tenantId = tenantId → Made w.handlers c 0 → Gone w.handlers tenantId 4
  holds : Holds sha256 (Made w.handlers) (Gone w.handlers) (Late w.handlers) w.store

section Handlers
variable {sha256 : String → String} {w : World} {handlers l₁ l₂ : List Handler} {c : Creation}
  {tenantId : String} {k : ℕ}

theorem made_split {h : Handler} :
    Made (l₁ ++ h :: l₂) c k ↔ (∃ next, h = .creating c next ∧ k ≤ next.done) ∨ Made (l₁ ++ l₂) c k := by
  unfold Made
  rw [← exists_or]
  refine exists_congr fun next => ?_
  rw [List.perm_middle.mem_iff, List.mem_cons, or_and_right, eq_comm]

theorem gone_split {h : Handler} : Gone (l₁ ++ h :: l₂) tenantId k ↔
    (∃ origin next, h = .deleting tenantId origin next ∧ k ≤ next.done) ∨
      Gone (l₁ ++ l₂) tenantId k := by
  unfold Gone
  rw [← exists_or]
  refine exists_congr fun origin => ?_
  rw [← exists_or]
  refine exists_congr fun next => ?_
  rw [List.perm_middle.mem_iff, List.mem_cons, or_and_right, eq_comm]

theorem late_split {h : Handler} : Late (l₁ ++ h :: l₂) tenantId k ↔
    (∃ next, h = .deleting tenantId .answer next ∧ k ≤ next.done) ∨
      Late (l₁ ++ l₂) tenantId k := by
  unfold Late
  rw [← exists_or]
  refine exists_congr fun next => ?_
  rw [List.perm_middle.mem_iff, List.mem_cons, or_and_right, eq_comm]

theorem creations_creating (next : CreateCommand) :
    (l₁ ++ .creating c next :: l₂).filterMap Handler.creation =
      l₁.filterMap Handler.creation ++ c :: l₂.filterMap Handler.creation := by
  rw [List.filterMap_append]
  rfl

theorem creations_other {h : Handler} (hother : h.creation = none) :
    (l₁ ++ h :: l₂).filterMap Handler.creation = (l₁ ++ l₂).filterMap Handler.creation := by
  rw [List.filterMap_append, List.filterMap_append, List.filterMap_cons_none hother]

theorem mem_creations (h : Made handlers c k) : c ∈ handlers.filterMap Handler.creation := by
  obtain ⟨next, hmem, -⟩ := h
  exact List.mem_filterMap.mpr ⟨_, hmem, rfl⟩

theorem Inv.requests (h : Inv sha256 w) :
    Requests sha256 (Made w.handlers) (Gone w.handlers) (Late w.handlers) where
  sameId c c' hc hc' hid := by
    by_contra hne
    have hsymm : Std.Symm (Apart sha256) := ⟨fun _ _ h => ⟨h.1.symm, h.2.symm⟩⟩
    exact (h.apart.forall (mem_creations hc) (mem_creations hc') hne).1 hid
  sameDigest c c' hc hc' hdigest := by
    by_contra hne
    have hsymm : Std.Symm (Apart sha256) := ⟨fun _ _ h => ⟨h.1.symm, h.2.symm⟩⟩
    exact (h.apart.forall (mem_creations hc) (mem_creations hc') hne).2 hdigest
  shown := h.shown
  answered := h.answered
  madeOf c j k hm hle := by
    obtain ⟨next, hmem, hk⟩ := hm
    exact ⟨next, hmem, hle.trans hk⟩
  goneOf id j k hg hle := by
    obtain ⟨origin, next, hmem, hk⟩ := hg
    exact ⟨origin, next, hmem, hle.trans hk⟩
  lateOf id j k hl hle := by
    obtain ⟨next, hmem, hk⟩ := hl
    exact ⟨next, hmem, hle.trans hk⟩

theorem Late.gone (h : Late handlers tenantId k) : Gone handlers tenantId k := by
  obtain ⟨next, hmem, hk⟩ := h
  exact ⟨.answer, next, hmem, hk⟩

theorem inv_create (h : Inv sha256 w) {c₀ : Creation} (hnew : ∀ x ∈ w.handlers, x.Apart sha256 c₀) :
    Inv sha256 { w with handlers := w.handlers ++ [.creating c₀ .hsetTenant] } := by
  have hmade : ∀ c k, Made (w.handlers ++ [.creating c₀ .hsetTenant]) c k ↔
      Made w.handlers c k ∨ c = c₀ ∧ k = 0 := by
    intro c k
    rw [made_split, List.append_nil, or_comm]
    refine or_congr_right ⟨?_, ?_⟩
    · rintro ⟨next, heq, hk⟩
      cases heq
      exact ⟨rfl, Nat.le_zero.mp hk⟩
    · rintro ⟨rfl, rfl⟩
      exact ⟨.hsetTenant, rfl, le_rfl⟩
  have hgone : ∀ id k, Gone (w.handlers ++ [.creating c₀ .hsetTenant]) id k ↔
      Gone w.handlers id k := by
    intro id k
    rw [gone_split, List.append_nil, or_iff_right]
    rintro ⟨origin, next, heq, -⟩
    cases heq
  have hlate : ∀ id k, Late (w.handlers ++ [.creating c₀ .hsetTenant]) id k ↔
      Late w.handlers id k := by
    intro id k
    rw [late_split, List.append_nil, or_iff_right]
    rintro ⟨next, heq, -⟩
    cases heq
  have hnone : ¬ Gone w.handlers c₀.tenantId 0 := by
    rintro ⟨origin, next, hmem, -⟩
    exact hnew _ hmem rfl
  constructor
  case apart =>
    rw [List.filterMap_append]
    refine List.pairwise_append.mpr ⟨h.apart, List.pairwise_singleton _ _, ?_⟩
    intro c hc c' hc'
    obtain rfl := List.mem_singleton.mp hc'
    obtain ⟨x, hx, hxc⟩ := List.mem_filterMap.mp hc
    cases x with
    | creating c next =>
      obtain rfl := Option.some.inj hxc
      exact hnew _ hx
    | deleting id origin next => cases hxc
    | listing l => cases hxc
  case shown =>
    intro c hm hg
    rw [hgone] at hg
    rcases (hmade c 0).mp hm with hold | ⟨rfl, -⟩
    · exact (hmade c 3).mpr (Or.inl (h.shown c hold hg))
    · exact absurd hg hnone
  case answered =>
    intro c hm hl
    rw [hlate] at hl
    rcases (hmade c 0).mp hm with hold | ⟨rfl, -⟩
    · exact (hmade c 5).mpr (Or.inl (h.answered c hold hl))
    · exact absurd hl.gone hnone
  case drawn =>
    intro id origin key hmem
    rcases List.mem_append.mp hmem with hold | hthis
    · obtain ⟨c, hid, hkey, hm⟩ := h.drawn id origin key hold
      exact ⟨c, hid, hkey, (hmade c 0).mpr (Or.inl hm)⟩
    · cases List.mem_singleton.mp hthis
  case missing =>
    intro id origin hmem c hid hm
    rcases List.mem_append.mp hmem with hold | hthis
    · rcases (hmade c 0).mp hm with hm | ⟨rfl, -⟩
      · exact (hgone _ 4).mpr (h.missing id origin hold c hid hm)
      · exact absurd hid.symm (hnew _ hold)
    · cases List.mem_singleton.mp hthis
  case holds =>
    refine h.holds.frame (fun c k hk => ?_) (fun id k _ => hgone id k) fun id k _ => hlate id k
    rw [hmade, or_iff_left]
    omega

theorem inv_delete (h : Inv sha256 w) {id₀ : String} {origin : Origin}
    (hshown : ∀ x ∈ w.handlers, x.Shown id₀ origin) :
    Inv sha256 { w with handlers := w.handlers ++ [.deleting id₀ origin .existsTenant] } := by
  have hmade : ∀ c k, Made (w.handlers ++ [.deleting id₀ origin .existsTenant]) c k ↔
      Made w.handlers c k := by
    intro c k
    rw [made_split, List.append_nil, or_iff_right]
    rintro ⟨next, heq, -⟩
    cases heq
  have hgone : ∀ id k, Gone (w.handlers ++ [.deleting id₀ origin .existsTenant]) id k ↔
      Gone w.handlers id k ∨ id = id₀ ∧ k = 0 := by
    intro id k
    rw [gone_split, List.append_nil, or_comm]
    refine or_congr_right ⟨?_, ?_⟩
    · rintro ⟨origin', next, heq, hk⟩
      cases heq
      exact ⟨rfl, Nat.le_zero.mp hk⟩
    · rintro ⟨rfl, rfl⟩
      exact ⟨origin, .existsTenant, rfl, le_rfl⟩
  have hlate : ∀ id k, Late (w.handlers ++ [.deleting id₀ origin .existsTenant]) id k ↔
      Late w.handlers id k ∨ origin = .answer ∧ id = id₀ ∧ k = 0 := by
    intro id k
    rw [late_split, List.append_nil, or_comm]
    refine or_congr_right ⟨?_, ?_⟩
    · rintro ⟨next, heq, hk⟩
      cases heq
      exact ⟨rfl, rfl, Nat.le_zero.mp hk⟩
    · rintro ⟨rfl, rfl, rfl⟩
      exact ⟨.existsTenant, rfl, le_rfl⟩
  constructor
  case apart =>
    rw [List.filterMap_append]
    exact (congrArg _ (List.append_nil _)).mpr h.apart
  case shown =>
    intro c hm hg
    rw [hmade] at hm ⊢
    rcases (hgone _ 0).mp hg with hold | ⟨hid, -⟩
    · exact h.shown c hm hold
    · obtain ⟨next, hmem, -⟩ := hm
      have hle : (if origin = .answer then 5 else 3) ≤ next.done := hshown _ hmem hid
      refine ⟨next, hmem, ?_⟩
      split_ifs at hle <;> omega
  case answered =>
    intro c hm hl
    rw [hmade] at hm ⊢
    rcases (hlate _ 0).mp hl with hold | ⟨horigin, hid, -⟩
    · exact h.answered c hm hold
    · obtain ⟨next, hmem, -⟩ := hm
      have hle : (if origin = .answer then 5 else 3) ≤ next.done := hshown _ hmem hid
      rw [if_pos horigin] at hle
      exact ⟨next, hmem, hle⟩
  case drawn =>
    intro id origin' key hmem
    rcases List.mem_append.mp hmem with hold | hthis
    · obtain ⟨c, hid, hkey, hm⟩ := h.drawn id origin' key hold
      exact ⟨c, hid, hkey, (hmade c 0).mpr hm⟩
    · cases List.mem_singleton.mp hthis
  case missing =>
    intro id origin' hmem c hid hm
    rw [hmade] at hm
    rcases List.mem_append.mp hmem with hold | hthis
    · exact (hgone _ 4).mpr (Or.inl (h.missing id origin' hold c hid hm))
    · cases List.mem_singleton.mp hthis
  case holds =>
    refine h.holds.frame (fun c k _ => hmade c k) (fun id k hk => ?_) fun id k hk => ?_
    · rw [hgone, or_iff_left]
      omega
    · rw [hlate, or_iff_left]
      omega

theorem Inv.congr (h : Inv sha256 w) {hs : List Handler}
    (hcreations : hs.filterMap Handler.creation = w.handlers.filterMap Handler.creation)
    (hsame : ∀ x, (∀ l, x ≠ .listing l) → (x ∈ hs ↔ x ∈ w.handlers)) :
    Inv sha256 { w with handlers := hs } := by
  have hmade : ∀ c k, Made hs c k ↔ Made w.handlers c k := fun c k =>
    exists_congr fun next => and_congr_left' (hsame _ fun l heq => by cases heq)
  have hgone : ∀ id k, Gone hs id k ↔ Gone w.handlers id k := fun id k =>
    exists_congr fun origin => exists_congr fun next =>
      and_congr_left' (hsame _ fun l heq => by cases heq)
  have hlate : ∀ id k, Late hs id k ↔ Late w.handlers id k := fun id k =>
    exists_congr fun next => and_congr_left' (hsame _ fun l heq => by cases heq)
  constructor
  case apart =>
    rw [hcreations]
    exact h.apart
  case shown =>
    intro c hm hg
    rw [hmade] at hm ⊢
    rw [hgone] at hg
    exact h.shown c hm hg
  case answered =>
    intro c hm hl
    rw [hmade] at hm ⊢
    rw [hlate] at hl
    exact h.answered c hm hl
  case drawn =>
    intro id origin key hmem
    obtain ⟨c, hid, hkey, hm⟩ :=
      h.drawn id origin key ((hsame _ fun l heq => by cases heq).mp hmem)
    exact ⟨c, hid, hkey, (hmade c 0).mpr hm⟩
  case missing =>
    intro id origin hmem c hid hm
    rw [hmade] at hm
    exact (hgone _ 4).mpr
      (h.missing id origin ((hsame _ fun l heq => by cases heq).mp hmem) c hid hm)
  case holds =>
    exact h.holds.frame (fun c k _ => hmade c k) (fun id k _ => hgone id k) fun id k _ => hlate id k

theorem inv_creating (h : Inv sha256 w) {c₀ : Creation} {next : CreateCommand}
    (hw : w.handlers = l₁ ++ .creating c₀ next :: l₂) :
    Inv sha256
      { store := (next.run sha256 c₀ w.store).1
        handlers := l₁ ++ .creating c₀ (next.run sha256 c₀ w.store).2 :: l₂ } := by
  have hapart := h.apart
  rw [hw, creations_creating] at hapart
  -- no other handler creates the tenant
  have hrest : ∀ k, ¬ Made (l₁ ++ l₂) c₀ k := by
    rintro k ⟨m, hmem, -⟩
    obtain ⟨-, hright, hcross⟩ := List.pairwise_append.mp hapart
    rcases List.mem_append.mp hmem with h₁ | h₂
    · exact (hcross c₀ (List.mem_filterMap.mpr ⟨_, h₁, rfl⟩) c₀ List.mem_cons_self).1 rfl
    · exact ((List.pairwise_cons.mp hright).1 c₀ (List.mem_filterMap.mpr ⟨_, h₂, rfl⟩)).1 rfl
  have hone : ∀ (next' : CreateCommand) c k,
      Made (l₁ ++ .creating c₀ next' :: l₂) c k ↔ Made (l₁ ++ l₂) c k ∨ c = c₀ ∧ k ≤ next'.done := by
    intro next' c k
    rw [made_split, or_comm]
    refine or_congr_right ⟨?_, ?_⟩
    · rintro ⟨m, heq, hk⟩
      cases heq
      exact ⟨rfl, hk⟩
    · rintro ⟨rfl, hk⟩
      exact ⟨next', rfl, hk⟩
  have hdone : ∀ k, Made w.handlers c₀ k ↔ k ≤ next.done := by
    intro k
    rw [hw, hone, or_iff_right (hrest k), and_iff_right rfl]
  have hmade : ∀ c k, Made (l₁ ++ .creating c₀ (next.run sha256 c₀ w.store).2 :: l₂) c k ↔
      Made w.handlers c k ∨ c = c₀ ∧ k ≤ (next.run sha256 c₀ w.store).2.done := by
    intro c k
    rw [hw, hone, hone, or_assoc]
    refine or_congr_right ⟨Or.inr, ?_⟩
    rintro (⟨hc, hk⟩ | hthis)
    · exact ⟨hc, hk.trans (next.done_le_run sha256 c₀ w.store)⟩
    · exact hthis
  have hgone : ∀ id k, Gone (l₁ ++ .creating c₀ (next.run sha256 c₀ w.store).2 :: l₂) id k ↔
      Gone w.handlers id k := by
    intro id k
    rw [hw, gone_split, gone_split]
    refine or_congr_left ⟨?_, ?_⟩
    all_goals
      rintro ⟨origin, m, heq, -⟩
      cases heq
  have hlate : ∀ id k, Late (l₁ ++ .creating c₀ (next.run sha256 c₀ w.store).2 :: l₂) id k ↔
      Late w.handlers id k := by
    intro id k
    rw [hw, late_split, late_split]
    refine or_congr_left ⟨?_, ?_⟩
    all_goals
      rintro ⟨m, heq, -⟩
      cases heq
  have hfirst : ∀ c, Made (l₁ ++ .creating c₀ (next.run sha256 c₀ w.store).2 :: l₂) c 0 →
      Made w.handlers c 0 := by
    intro c hm
    rcases (hmade c 0).mp hm with hold | ⟨rfl, -⟩
    · exact hold
    · exact (hdone 0).mpr (Nat.zero_le _)
  constructor
  case apart =>
    rw [creations_creating]
    exact hapart
  case shown =>
    intro c hm hg
    rw [hgone] at hg
    exact (hmade c 3).mpr (Or.inl (h.shown c (hfirst c hm) hg))
  case answered =>
    intro c hm hl
    rw [hlate] at hl
    exact (hmade c 5).mpr (Or.inl (h.answered c (hfirst c hm) hl))
  case drawn =>
    intro id origin key hmem
    have hold : .deleting id origin (.delApiKey key) ∈ w.handlers := by
      rw [hw]
      rw [List.perm_middle.mem_iff, List.mem_cons] at hmem ⊢
      exact hmem.imp_left fun heq => by cases heq
    obtain ⟨c, hid, hkey, hm⟩ := h.drawn id origin key hold
    exact ⟨c, hid, hkey, (hmade c 0).mpr (Or.inl hm)⟩
  case missing =>
    intro id origin hmem c hid hm
    have hold : .deleting id origin .notFound ∈ w.handlers := by
      rw [hw]
      rw [List.perm_middle.mem_iff, List.mem_cons] at hmem ⊢
      exact hmem.imp_left fun heq => by cases heq
    exact (hgone _ 4).mpr (h.missing id origin hold c hid (hfirst c hm))
  case holds =>
    have hcongr : Holds sha256 (Made (l₁ ++ .creating c₀ (next.run sha256 c₀ w.store).2 :: l₂))
        (Gone w.handlers) (Late w.handlers) (next.run sha256 c₀ w.store).1 :=
      h.holds.create h.requests hdone hmade
    exact hcongr.frame (fun _ _ _ => Iff.rfl) (fun id k _ => hgone id k) fun id k _ => hlate id k

theorem inv_deleting (hsha : ∀ key, sha256 key ≠ "") (h : Inv sha256 w) {id₀ : String}
    {origin : Origin} {next : DeleteCommand} (hw : w.handlers = l₁ ++ .deleting id₀ origin next :: l₂) :
    Inv sha256
      { store := (next.run id₀ w.store).1
        handlers := l₁ ++ .deleting id₀ origin (next.run id₀ w.store).2 :: l₂ } := by
  have hmem₀ : .deleting id₀ origin next ∈ w.handlers := by
    rw [hw]
    exact List.mem_append_right _ List.mem_cons_self
  have hmade : ∀ c k, Made (l₁ ++ .deleting id₀ origin (next.run id₀ w.store).2 :: l₂) c k ↔
      Made w.handlers c k := by
    intro c k
    rw [hw, made_split, made_split]
    refine or_congr_left ⟨?_, ?_⟩
    all_goals
      rintro ⟨m, heq, -⟩
      cases heq
  have hle := next.done_le_run id₀ w.store
  have hgone : ∀ id k, Gone (l₁ ++ .deleting id₀ origin (next.run id₀ w.store).2 :: l₂) id k ↔
      Gone w.handlers id k ∨ id = id₀ ∧ k ≤ (next.run id₀ w.store).2.done := by
    intro id k
    rw [hw, gone_split, gone_split]
    constructor
    · rintro (⟨origin', m, heq, hk⟩ | hrest)
      · cases heq
        exact Or.inr ⟨rfl, hk⟩
      · exact Or.inl (Or.inr hrest)
    · rintro ((⟨origin', m, heq, hk⟩ | hrest) | ⟨rfl, hk⟩)
      · cases heq
        exact Or.inl ⟨origin, _, rfl, hk.trans hle⟩
      · exact Or.inr hrest
      · exact Or.inl ⟨origin, _, rfl, hk⟩
  have hlate : ∀ id k, Late (l₁ ++ .deleting id₀ origin (next.run id₀ w.store).2 :: l₂) id k ↔
      Late w.handlers id k ∨
        origin = .answer ∧ id = id₀ ∧ k ≤ (next.run id₀ w.store).2.done := by
    intro id k
    rw [hw, late_split, late_split]
    constructor
    · rintro (⟨m, heq, hk⟩ | hrest)
      · cases heq
        exact Or.inr ⟨rfl, rfl, hk⟩
      · exact Or.inl (Or.inr hrest)
    · rintro ((⟨m, heq, hk⟩ | hrest) | ⟨rfl, rfl, hk⟩)
      · cases heq
        exact Or.inl ⟨_, rfl, hk.trans hle⟩
      · exact Or.inr hrest
      · exact Or.inl ⟨_, rfl, hk⟩
  have hat : ∀ k ≤ next.done, Gone w.handlers id₀ k ∧ (origin = .answer → Late w.handlers id₀ k) := by
    intro k hk
    refine ⟨⟨origin, next, hmem₀, hk⟩, ?_⟩
    rintro rfl
    exact ⟨next, hmem₀, hk⟩
  constructor
  case apart =>
    have hapart := h.apart
    rw [hw, creations_other rfl] at hapart
    rw [creations_other rfl]
    exact hapart
  case shown =>
    intro c hm hg
    rw [hmade] at hm ⊢
    rcases (hgone _ 0).mp hg with hold | ⟨hid, -⟩
    · exact h.shown c hm hold
    · exact h.shown c hm (hid ▸ (hat 0 (Nat.zero_le _)).1)
  case answered =>
    intro c hm hl
    rw [hmade] at hm ⊢
    rcases (hlate _ 0).mp hl with hold | ⟨horigin, hid, -⟩
    · exact h.answered c hm hold
    · exact h.answered c hm (hid ▸ (hat 0 (Nat.zero_le _)).2 horigin)
  case drawn =>
    intro id origin' key hmem
    simp only [hmade]
    rw [List.perm_middle.mem_iff, List.mem_cons] at hmem
    rcases hmem with heq | hrest
    · -- the digest was read from the tenant
      have hrun := (Handler.deleting.inj heq).2.2.symm
      obtain ⟨data, hfound, hkey⟩ := DeleteCommand.run_eq_delApiKey hrun
      obtain ⟨c, hid, rfl, hm, -⟩ := (h.holds.tenants id₀ data).mp hfound
      exact ⟨c, hid.trans (Handler.deleting.inj heq).1.symm, hkey,
        h.requests.madeOf c 0 1 hm (by decide)⟩
    · refine h.drawn id origin' key ?_
      rw [hw, List.perm_middle.mem_iff]
      exact List.mem_cons_of_mem _ hrest
  case missing =>
    intro id origin' hmem c hid hm
    rw [hmade] at hm
    refine (hgone _ 4).mpr (Or.inl ?_)
    rw [List.perm_middle.mem_iff, List.mem_cons] at hmem
    rcases hmem with heq | hrest
    · obtain ⟨rfl, -, hrun⟩ := Handler.deleting.inj heq
      rcases DeleteCommand.run_eq_notFound hrun.symm with hnone | rfl
      · by_contra hkept
        have hshown := h.shown c hm (hid ▸ (hat 0 (Nat.zero_le _)).1)
        have hthere := (h.holds.tenants _ (c.record sha256)).mpr
          ⟨c, hid, rfl, h.requests.madeOf c 1 3 hshown (by decide), hid ▸ hkept⟩
        rw [hnone] at hthere
        cases hthere
      · exact h.missing _ origin hmem₀ c hid hm
    · refine h.missing id origin' ?_ c hid hm
      rw [hw, List.perm_middle.mem_iff]
      exact List.mem_cons_of_mem _ hrest
  case holds =>
    have hstored : Holds sha256 (Made w.handlers)
        (Gone (l₁ ++ .deleting id₀ origin (next.run id₀ w.store).2 :: l₂))
        (Late (l₁ ++ .deleting id₀ origin (next.run id₀ w.store).2 :: l₂))
        (next.run id₀ w.store).1 :=
      h.holds.delete hsha h.requests hat
        (fun key hnext => h.drawn id₀ origin key (hnext ▸ hmem₀)) hgone hlate
    exact hstored.frame (fun c k _ => hmade c k) (fun _ _ _ => Iff.rfl) fun _ _ _ => Iff.rfl

theorem inv_step (hsha : ∀ key, sha256 key ≠ "") {w' : World} {a : Action} (h : Inv sha256 w)
    (hstep : step sha256 w a = some w') : Inv sha256 w' := by
  cases a with
  | create c =>
    by_cases hnew : ∀ x ∈ w.handlers, x.Apart sha256 c
    · rw [step, if_pos hnew] at hstep
      rw [← Option.some.inj hstep]
      exact inv_create h hnew
    · rw [step, if_neg hnew] at hstep
      cases hstep
  | delete id origin =>
    by_cases hshown : ∀ x ∈ w.handlers, x.Shown id origin
    · rw [step, if_pos hshown] at hstep
      rw [← Option.some.inj hstep]
      exact inv_delete h hshown
    · rw [step, if_neg hshown] at hstep
      cases hstep
  | list =>
    rw [← Option.some.inj hstep]
    refine h.congr ?_ fun x hx => ?_
    · rw [List.filterMap_append]
      exact List.append_nil _
    · rw [List.mem_append, List.mem_singleton, or_iff_left (hx _)]
  | command i =>
    obtain ⟨x, hx, rfl⟩ := Option.map_eq_some_iff.mp hstep
    obtain ⟨hi, hget⟩ := List.getElem?_eq_some_iff.mp hx
    obtain ⟨l₁, l₂, hw, -, hset⟩ := @List.exists_of_set _ i (x.run sha256 w.store).2 w.handlers hi
    rw [hget] at hw
    rw [hset]
    cases x with
    | creating c next => exact inv_creating h hw
    | deleting id origin next => exact inv_deleting hsha h hw
    | listing l =>
      refine h.congr ?_ fun y hy => ?_
      · rw [hw, creations_other rfl, creations_other rfl]
      · have hthis : y ≠ ((Handler.listing l).run sha256 w.store).2 := hy _
        rw [hw, List.perm_middle.mem_iff, List.perm_middle.mem_iff, List.mem_cons, List.mem_cons,
          or_iff_right (hy l), or_iff_right hthis]

theorem inv_run (hsha : ∀ key, sha256 key ≠ "") {as : List Action}
    (hrun : run (step sha256) {} as = some w) : Inv sha256 w := by
  refine run_invariant (fun w a w' h hstep => inv_step hsha h hstep) ?_ hrun
  have hmade : ∀ c k, ¬ Made [] c k := by
    rintro c k ⟨next, hmem, -⟩
    cases hmem
  constructor
  case apart => exact List.Pairwise.nil
  case shown => exact fun c hm => absurd hm (hmade c 0)
  case answered => exact fun c hm => absurd hm (hmade c 0)
  case drawn =>
    intro id origin key hmem
    cases hmem
  case missing =>
    intro id origin hmem
    cases hmem
  case holds =>
    constructor
    case tenants =>
      refine fun id data => iff_of_false (Option.some_ne_none _).symm ?_
      rintro ⟨c, -, -, hm, -⟩
      exact hmade c 1 hm
    case apiKeys =>
      refine fun key id => iff_of_false (Option.some_ne_none _).symm ?_
      rintro ⟨c, -, -, hm, -⟩
      exact hmade c 2 hm
    case ids =>
      refine fun id => iff_of_false List.not_mem_nil ?_
      rintro ⟨c, -, hm, -⟩
      exact hmade c 3 hm
    case maxEps =>
      exact ⟨fun id v hv => absurd hv (Option.some_ne_none v).symm, fun c hm => absurd hm (hmade c 4)⟩
    case maxEventsMonth =>
      exact ⟨fun id v hv => absurd hv (Option.some_ne_none v).symm, fun c hm => absurd hm (hmade c 5)⟩

end Handlers

/-- SHA-256 on the keys of two tenants. -/
def sampleSha256 (key : String) : String :=
  if key = "fm_tenant_k1" then "3407764192c472e2bc83127969893e2bfd5a3f75e59244ab935a933c89da3674"
  else "7424006201098bff664545dc7ef8f7cb6e14050086026b73d150263424cda429"

theorem sampleSha256_ne (key : String) : sampleSha256 key ≠ "" := by
  unfold sampleSha256
  split_ifs <;> decide

end FluxMeter.ControlPlane
