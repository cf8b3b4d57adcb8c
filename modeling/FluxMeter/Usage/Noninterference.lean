import FluxMeter.Keys.Shapes
import FluxMeter.Usage.Footprints

/-! Two runs of projections and windows that differ only in one tenant's steps, seen through the
usage endpoints of another tenant. -/
namespace FluxMeter.Usage
open FluxMeter.Budget FluxMeter.Keys FluxMeter.Model Transition

inductive UsageStep
  | project (event : TokenEvent) (monthlyBefore : ℤ) (clock : String)
  | window (agg : UsageAggregate)
  deriving DecidableEq

namespace UsageStep
variable (P : Projection)

def tenant : UsageStep → Option String
  | project e _ _ => e.tenantId
  | window agg => agg.tenantId

def apply (s : Keyspace) : UsageStep → Keyspace
  | project e monthlyBefore clock => (P.apply s e monthlyBefore clock).1
  | window agg => applyWindow s agg

def guardKey : UsageStep → String
  | project e _ _ => P.projectionKey e.eventId
  | window agg => "applied:" ++ (sinkKeys agg).windowId

/-- The keys without a tenant that the script writes. -/
def sharedWrites : UsageStep → List String
  | project e _ _ => projectionSharedWrites (P.keys e)
  | window agg => windowSharedWrites (sinkKeys agg)

end UsageStep

/-- The keys without a tenant that the endpoint reads. -/
def UsageQuery.sharedReads : UsageQuery → List String
  | .period c p => [rollupMonthKey c p]
  | .day c d => [rollupDayKey c d]
  | .modelPeriod c m p => [modelPeriodKey c m p]
  | .periodCosts p c => [periodCustomersIndex p, rollupMonthKey c p]
  | .dim k v p => dimWrites (dimBase k v p)
  | _ => []

def others (A : String) (steps : List UsageStep) : List UsageStep :=
  steps.filter fun a => !(a.tenant == some A)

/-- The step stays out of the way of an endpoint and of the other steps: it writes none of the
keys without a tenant that the endpoint reads, and no other step has its guard. -/
structure Apart (P : Projection) (q : UsageQuery) (visible : List UsageStep) (a : UsageStep) :
    Prop where
  shared : ∀ key ∈ a.sharedWrites P, key ∉ q.sharedReads
  guard : ∀ b ∈ visible, a.guardKey P ≠ b.guardKey P

instance (P : Projection) (q : UsageQuery) (visible : List UsageStep) (a : UsageStep) :
    Decidable (Apart P q visible a) :=
  decidable_of_iff ((∀ key ∈ a.sharedWrites P, key ∉ q.sharedReads) ∧
    ∀ b ∈ visible, a.guardKey P ≠ b.guardKey P) ⟨fun h => ⟨h.1, h.2⟩, fun h => ⟨h.shared, h.guard⟩⟩

/-! ### Which keys can be equal -/

/-- The keys of the tenant and of the single-tenant mode that the endpoint reads. -/
def UsageQuery.tenantReads (tenantId : Option String) : UsageQuery → List String
  | .global => [Py.inTenant tenantId "global", "global"].flatMap fun ns =>
      globalSuffixes.map (ns ++ ":" ++ ·)
  | .customer c => [Py.customerPrefix tenantId c, "customer:" ++ c].flatMap fun p =>
      (countSuffixes ++ detailSuffixes ++ [":spans"]).map (p ++ ·)
  | .customerModel c m => [Py.customerPrefix tenantId c, "customer:" ++ c].flatMap fun p =>
      (countSuffixes ++ detailSuffixes ++ [":spans"]).map (p ++ ·) ++
        modelSuffixes.map (p ++ ":model:" ++ m ++ ·)
  | .session i => [Py.scopePrefix tenantId "session" i, "session:" ++ i].flatMap fun p =>
      (countSuffixes ++ detailSuffixes ++ [":held_usd", ":max_cost_usd", ":customer_id"]).map
        (p ++ ·)
  | _ => []

/-- A key of the reader's tenant, or one of the single-tenant mode. -/
def ReadKey (B : Option String) (key : String) : Prop :=
  headOf key ∈ [some 'g', some 'c', some 's'] ∨ ∃ b ∈ B, TenantKey b key

theorem ReadKey.append {B : Option String} {key : String} (h : ReadKey B key) (tail : String) :
    ReadKey B (key ++ tail) := by
  rcases h with hhead | ⟨b, hb, hkey⟩
  · left
    rw [headOf_append]
    cases hkey : headOf key with
    | none => rw [hkey] at hhead; simp at hhead
    | some c => rw [hkey] at hhead; exact hhead
  · exact .inr ⟨b, hb, hkey.append tail⟩

private theorem readKey_inTenant (B : Option String) {rest : String}
    (hrest : headOf rest ∈ [some 'g', some 'c', some 's']) : ReadKey B (Py.inTenant B rest) := by
  unfold Py.inTenant
  cases B with
  | none => exact .inl hrest
  | some b =>
    dsimp only
    split_ifs
    · exact .inr ⟨b, rfl, rest, rfl⟩
    · exact .inl hrest

theorem headOf_scope (kind : String) (rest : String)
    (hkind : headOf kind ∈ [some 'g', some 'c', some 's']) :
    headOf (kind ++ rest) ∈ [some 'g', some 'c', some 's'] := by
  have h : ReadKey none (kind ++ rest) := ReadKey.append (.inl hkind) rest
  rcases h with hhead | ⟨b, hb, -⟩
  · exact hhead
  · simp at hb

theorem readKey_choice {B : Option String} {rest p : String}
    (hrest : headOf rest ∈ [some 'g', some 'c', some 's'])
    (hp : p ∈ [Py.inTenant B rest, rest]) : ReadKey B p := by
  simp only [List.mem_cons, List.not_mem_nil, or_false] at hp
  rcases hp with rfl | rfl
  · exact readKey_inTenant B hrest
  · exact .inl hrest

theorem readKey_of_mem {B : Option String} {q : UsageQuery} {key : String}
    (h : key ∈ q.tenantReads B) : ReadKey B key := by
  have hcustomer : ∀ c, headOf ("customer:" ++ c) ∈ [some 'g', some 'c', some 's'] :=
    fun c => headOf_scope "customer:" c (by decide)
  cases q with
  | global =>
    obtain ⟨ns, hns, hmem⟩ := List.mem_flatMap.mp h
    obtain ⟨suffix, -, rfl⟩ := List.mem_map.mp hmem
    exact ((readKey_choice (by decide) hns).append ":").append suffix
  | customer c =>
    obtain ⟨p, hp, hmem⟩ := List.mem_flatMap.mp h
    obtain ⟨suffix, -, rfl⟩ := List.mem_map.mp hmem
    exact (readKey_choice (hcustomer c) hp).append suffix
  | customerModel c m =>
    obtain ⟨p, hp, hmem⟩ := List.mem_flatMap.mp h
    have hbase := readKey_choice (hcustomer c) hp
    rcases List.mem_append.mp hmem with hmem | hmem
    · obtain ⟨suffix, -, rfl⟩ := List.mem_map.mp hmem
      exact hbase.append suffix
    · obtain ⟨suffix, -, rfl⟩ := List.mem_map.mp hmem
      exact ((hbase.append ":model:").append m).append suffix
  | session i =>
    obtain ⟨p, hp, hmem⟩ := List.mem_flatMap.mp h
    obtain ⟨suffix, -, rfl⟩ := List.mem_map.mp hmem
    have hsession : headOf ("session:" ++ i) ∈ [some 'g', some 'c', some 's'] :=
      headOf_scope "session:" i (by decide)
    exact (readKey_choice hsession hp).append suffix
  | period c p => simp [UsageQuery.tenantReads] at h
  | day c d => simp [UsageQuery.tenantReads] at h
  | modelPeriod c m p => simp [UsageQuery.tenantReads] at h
  | periodCosts p c => simp [UsageQuery.tenantReads] at h
  | dim k v p => simp [UsageQuery.tenantReads] at h

/-- How the keys of a package end; no counter ends so. -/
def packageEnds : List (List Char) := [endOf "tokens_remaining", endOf ":debt"]

theorem endOf_suffix {p suffix : String} {suffixes : List String} (hmem : suffix ∈ suffixes)
    (hall : ∀ x ∈ suffixes, 2 ≤ x.toList.length ∧ endOf x ∉ packageEnds) :
    endOf (p ++ suffix) ∉ packageEnds := by
  rw [endOf_append p (hall suffix hmem).1]
  exact (hall suffix hmem).2

theorem endOf_of_mem {B : Option String} {q : UsageQuery} {key : String}
    (h : key ∈ q.tenantReads B) : endOf key ∉ packageEnds := by
  cases q with
  | global =>
    obtain ⟨ns, -, hmem⟩ := List.mem_flatMap.mp h
    obtain ⟨suffix, hsuffix, rfl⟩ := List.mem_map.mp hmem
    exact endOf_suffix hsuffix (by decide)
  | customer c =>
    obtain ⟨p, -, hmem⟩ := List.mem_flatMap.mp h
    obtain ⟨suffix, hsuffix, rfl⟩ := List.mem_map.mp hmem
    exact endOf_suffix hsuffix (by decide)
  | customerModel c m =>
    obtain ⟨p, -, hmem⟩ := List.mem_flatMap.mp h
    rcases List.mem_append.mp hmem with hmem | hmem
    · obtain ⟨suffix, hsuffix, rfl⟩ := List.mem_map.mp hmem
      exact endOf_suffix hsuffix (by decide)
    · obtain ⟨suffix, hsuffix, rfl⟩ := List.mem_map.mp hmem
      exact endOf_suffix hsuffix (by decide)
  | session i =>
    obtain ⟨p, -, hmem⟩ := List.mem_flatMap.mp h
    obtain ⟨suffix, hsuffix, rfl⟩ := List.mem_map.mp hmem
    exact endOf_suffix hsuffix (by decide)
  | period c p => simp [UsageQuery.tenantReads] at h
  | day c d => simp [UsageQuery.tenantReads] at h
  | modelPeriod c m p => simp [UsageQuery.tenantReads] at h
  | periodCosts p c => simp [UsageQuery.tenantReads] at h
  | dim k v p => simp [UsageQuery.tenantReads] at h

theorem headOf_sharedReads {q : UsageQuery} {key : String} (h : key ∈ q.sharedReads) :
    headOf key ∈ [some 'r', some 'i', some 'd'] := by
  have hr : headOf "rollup:" = some 'r' := rfl
  have hi : headOf "idx:period:" = some 'i' := rfl
  have hd : headOf "dim:" = some 'd' := rfl
  cases q with
  | period c p | day c d | modelPeriod c m p | periodCosts p c =>
    simp only [UsageQuery.sharedReads, List.mem_cons, List.not_mem_nil, or_false] at h
    rcases h with rfl | rfl <;>
      simp [rollupMonthKey, rollupDayKey, modelPeriodKey, periodCustomersIndex, hr, hi]
  | dim k v p =>
    simp only [UsageQuery.sharedReads, dimWrites, List.mem_cons, List.not_mem_nil, or_false] at h
    cases p <;> rcases h with rfl | rfl <;> simp [dimBase, hd]
  | global | customer c | customerModel c m | session i => simp [UsageQuery.sharedReads] at h

/-! ### What one step writes -/

def heartbeatKey : String := "flink:heartbeat:last_processed_at"

/-- The keys under the tenant of the step that the script writes. -/
def UsageStep.tenantWrites (P : Projection) : UsageStep → List String
  | .project e _ _ => projectionTenantWrites (P.keys e) ++
      (P.keys e).session.toList.map (· ++ ":customer_id")
  | .window agg => windowTenantWrites (sinkKeys agg)

/-- The endpoint finds the same under the key in both stores. -/
structure SeenAt (key : String) (s s' : Keyspace) : Prop where
  usage : SameAt key s.usage s'.usage
  texts : s.texts key = s'.texts key
  ranked : s.ranked key = s'.ranked key

theorem seenAt_equivalence (key : String) : Equivalence (SeenAt key) where
  refl _ := ⟨(sameAt_equivalence key).refl _, rfl, rfl⟩
  symm h := ⟨(sameAt_equivalence key).symm h.usage, h.texts.symm, h.ranked.symm⟩
  trans h h' := ⟨(sameAt_equivalence key).trans h.usage h'.usage, h.texts.trans h'.texts,
    h.ranked.trans h'.ranked⟩

section Step
variable {P : Projection} {A : String} {a : UsageStep} {key : String}

theorem tenantKey_of_mem (hA : hasTenant (some A) = true) (ha : a.tenant = some A)
    (hkey : key ∈ a.tenantWrites P) : TenantKey A key := by
  have hin := tenantKey_inTenant hA
  cases a with
  | project e monthlyBefore clock =>
    have htenant : e.tenantId = some A := ha
    have hsession : ∀ p ∈ (P.keys e).session.toList, TenantKey A p := by
      intro p hp
      simp only [Projection.keys, Option.mem_toList, Option.map_eq_some_iff] at hp
      obtain ⟨id, -, rfl⟩ := hp
      rw [htenant]
      exact hin _
    have hpackage : TenantKey A (P.keys e).package := by
      show TenantKey A (packageKey e.tenantId _)
      rw [htenant]
      exact hin _
    simp only [UsageStep.tenantWrites, projectionTenantWrites, List.mem_append, List.mem_flatMap,
      List.mem_cons, List.not_mem_nil, or_false] at hkey
    rcases hkey with (⟨p, hp, hmem⟩ | rfl | rfl) | hmem
    · obtain ⟨suffix, -, rfl⟩ := List.mem_map.mp hmem
      exact (hsession p hp).append suffix
    · exact hpackage
    · exact hpackage.append ":debt"
    · obtain ⟨p, hp, rfl⟩ := List.mem_map.mp hmem
      exact (hsession p hp).append ":customer_id"
  | window agg =>
    have htenant : agg.tenantId = some A := ha
    have hcustomer : TenantKey A (sinkKeys agg).customer := by
      show TenantKey A (customerPrefix agg.tenantId _)
      rw [htenant]
      exact hin _
    have hmodel : TenantKey A (sinkKeys agg).model := (hcustomer.append ":model:").append _
    simp only [UsageStep.tenantWrites, windowTenantWrites, List.mem_append, List.mem_map,
      List.mem_singleton] at hkey
    rcases hkey with (((⟨suffix, -, rfl⟩ | ⟨suffix, -, rfl⟩) | ⟨suffix, -, rfl⟩) | ⟨suffix, -, rfl⟩) |
      rfl
    · exact hcustomer.append suffix
    · exact hmodel.append suffix
    · exact hcustomer.append suffix
    · show TenantKey A (globalKey agg.tenantId suffix)
      rw [htenant]
      exact hin _
    · show TenantKey A (periodVolumeKey agg.tenantId _ _ _)
      rw [htenant]
      unfold periodVolumeKey customerPrefix
      exact (((((hin _).append _).append _).append _).append _).append _

theorem headOf_sharedWrites (hkey : key ∈ a.sharedWrites P) :
    headOf key ∈ [some 'r', some 'i', some 'd', some 'a'] := by
  have hr : headOf "rollup:" = some 'r' := rfl
  have hi : headOf "idx:period:" = some 'i' := rfl
  have hd : headOf "dim:" = some 'd' := rfl
  have ha : headOf "apikey:" = some 'a' := rfl
  cases a with
  | project e monthlyBefore clock =>
    simp only [UsageStep.sharedWrites, projectionSharedWrites, Projection.keys, Projection.dims,
      List.mem_cons, List.mem_append, Option.mem_toList, Option.map_eq_some_iff,
      List.mem_flatMap] at hkey
    rcases hkey with rfl | (⟨id, -, rfl⟩ | ⟨id, -, rfl⟩) | ⟨base, ⟨entry, -, hbase⟩, hkey⟩
    · simp [hr]
    · simp [ha]
    · simp [ha]
    · simp only [List.not_mem_nil, or_false] at hbase
      simp only [dimWrites, List.mem_cons, List.not_mem_nil, or_false] at hkey
      rcases hbase with rfl | rfl <;> rcases hkey with rfl | rfl <;> simp [hd]
  | window agg =>
    simp only [UsageStep.sharedWrites, windowSharedWrites, sinkKeys, List.mem_cons,
      List.not_mem_nil, or_false] at hkey
    rcases hkey with rfl | rfl | rfl
    · simp [hr]
    · simp [hr]
    · simp [hi]

theorem projectTexts_frame (texts : String → Option String) (k : ProjectionKeys)
    (args : ProjectionArgs) (hsession : key ∉ k.session.toList.map (· ++ ":customer_id"))
    (hbeat : key ≠ heartbeatKey) : projectTexts texts k args key = texts key := by
  unfold projectTexts
  refine (Function.update_of_ne hbeat _ _).trans ?_
  cases hs : k.session with
  | none => rfl
  | some p =>
    rw [hs] at hsession
    exact Function.update_of_ne (by simpa using hsession) _ _

/-- A script touches no key but those it writes. -/
theorem apply_frame (htenant : key ∉ a.tenantWrites P) (hshared : key ∉ a.sharedWrites P)
    (hbeat : key ≠ heartbeatKey) (s : Keyspace) : SeenAt key (a.apply P s) s := by
  cases a with
  | project e monthlyBefore clock =>
    show SeenAt key (projectionScript s _ _).1 s
    obtain ⟨husage, htext⟩ := not_or.mp fun h => htenant (List.mem_append.mpr h)
    unfold projectionScript
    split_ifs with hdone
    · exact (seenAt_equivalence key).refl s
    · refine ⟨?_, projectTexts_frame _ _ _ htext hbeat, rfl⟩
      apply (footprint_projectUsage _ _).frame
      exact fun h => (List.mem_append.mp h).elim husage hshared
  | window agg =>
    refine ⟨?_, rfl, rfl⟩
    show SameAt key (sinkScript s.toRedis _ _).1.usage s.usage
    rw [(sinkScript_guarded _ _ _).1]
    split_ifs
    · exact (sameAt_equivalence key).refl _
    · apply (footprint_applyWindow _ _).frame
      exact fun h => (List.mem_append.mp h).elim htenant hshared

end Step

/-! ### Unwinding -/

def UsageStep.passed (P : Projection) (s : Keyspace) : UsageStep → Bool
  | .project e _ _ => s.projected (P.projectionKey e.eventId)
  | .window agg => s.applied (sinkKeys agg).windowId

/-- What the endpoint reads and the guards of the visible steps agree. -/
structure Indistinct (P : Projection) (B : Option String) (q : UsageQuery)
    (visible : List UsageStep) (s s' : Keyspace) : Prop where
  seen : ∀ key ∈ q.sharedReads ++ q.tenantReads B, SeenAt key s s'
  guards : ∀ b ∈ visible, b.passed P s = b.passed P s'

section Unwinding
variable {P : Projection} {A : String} {B : Option String} {q : UsageQuery}
  {visible : List UsageStep} {a : UsageStep}

theorem indistinct_equivalence (P : Projection) (B : Option String) (q : UsageQuery)
    (visible : List UsageStep) : Equivalence (Indistinct P B q visible) where
  refl _ := ⟨fun key _ => (seenAt_equivalence key).refl _, fun _ _ => rfl⟩
  symm h := ⟨fun key hkey => (seenAt_equivalence key).symm (h.seen key hkey),
    fun b hb => (h.guards b hb).symm⟩
  trans h h' := ⟨fun key hkey => (seenAt_equivalence key).trans (h.seen key hkey) (h'.seen key hkey),
    fun b hb => (h.guards b hb).trans (h'.guards b hb)⟩

private theorem headOf_reads {key : String} (hkey : key ∈ q.sharedReads ++ q.tenantReads B) :
    key ≠ heartbeatKey ∧ (headOf key = some 't' → ∃ b ∈ B, TenantKey b key) ∧
      (headOf key ∈ [some 'r', some 'i', some 'd', some 'a'] → key ∈ q.sharedReads) := by
  have hbeat : headOf heartbeatKey = some 'f' := rfl
  rcases List.mem_append.mp hkey with hshared | htenant
  · have hhead := headOf_sharedReads hshared
    simp only [List.mem_cons, List.not_mem_nil, or_false] at hhead
    refine ⟨?_, ?_, fun _ => hshared⟩
    · rintro rfl
      rw [hbeat] at hhead
      simp at hhead
    · intro ht
      rw [ht] at hhead
      simp at hhead
  · rcases readKey_of_mem htenant with hhead | ⟨b, hb, hown⟩
    · simp only [List.mem_cons, List.not_mem_nil, or_false] at hhead
      refine ⟨?_, ?_, ?_⟩
      · rintro rfl
        rw [hbeat] at hhead
        simp at hhead
      · intro ht
        rw [ht] at hhead
        simp at hhead
      · intro hs
        rcases hhead with hhead | hhead | hhead <;> rw [hhead] at hs <;> simp at hs
    · refine ⟨?_, fun _ => ⟨b, hb, hown⟩, ?_⟩
      · rintro rfl
        have hhead := hown.headOf
        rw [hbeat] at hhead
        simp at hhead
      · intro hs
        rw [hown.headOf] at hs
        simp at hs

theorem hidden_step (hA : hasTenant (some A) = true) (ha : a.tenant = some A)
    (hB : B ≠ some A) (htenants : ∀ b ∈ B, Unextended A b) (hapart : Apart P q visible a)
    (s : Keyspace) : Indistinct P B q visible (a.apply P s) s where
  seen key hkey := by
    obtain ⟨hbeat, htenant, hshared⟩ := headOf_reads hkey
    apply apply_frame _ _ hbeat
    · intro hmem
      have hown := tenantKey_of_mem hA ha hmem
      obtain ⟨b, hb, rest, hrest⟩ := htenant hown.headOf
      obtain ⟨rest', hrest'⟩ := hown
      have hsame := tenant_eq_of_key (htenants b hb) (hrest'.symm.trans hrest)
      exact hB (hsame ▸ hb)
    · intro hmem
      exact hapart.shared key hmem (hshared (headOf_sharedWrites hmem))
  guards b hb := by
    have hguard := hapart.guard b hb
    cases a with
    | project e monthlyBefore clock =>
      cases b with
      | project e' monthlyBefore' clock' =>
        show (projectionScript s _ _).1.projected _ = s.projected _
        unfold projectionScript
        split_ifs with hdone
        · rfl
        · exact Function.update_of_ne (fun h => hguard h.symm) _ _
      | window agg =>
        show (projectionScript s _ _).1.applied _ = s.applied _
        unfold projectionScript
        split_ifs with hdone
        · rfl
        · show (attachToWindow s.toRedis _ _).applied _ = s.applied _
          unfold attachToWindow
          cases (P.keys e).window <;> rfl
    | window agg =>
      cases b with
      | project e' monthlyBefore' clock' => rfl
      | window agg' =>
        show (sinkScript s.toRedis _ _).1.applied _ = s.applied _
        rw [(sinkScript_guarded _ _ _).2]
        split_ifs with hdone
        · rfl
        · refine Function.update_of_ne (fun h => hguard ?_) _ _
          exact congrArg ("applied:" ++ ·) h.symm

theorem reads_not_package {e : TokenEvent} {key : String}
    (hkey : key ∈ q.sharedReads ++ q.tenantReads B) : key ∉ packageKeys (P.keys e) := by
  obtain ⟨⟨p, hp⟩, hhead⟩ := packageKey_shape e.tenantId (TokenEvent.orNull e.customerId)
  intro hmem
  have hmem' : key = packageKey e.tenantId (TokenEvent.orNull e.customerId) ∨
      key = packageKey e.tenantId (TokenEvent.orNull e.customerId) ++ ":debt" := by
    simpa [packageKeys, Projection.keys] using hmem
  rcases List.mem_append.mp hkey with hshared | htenant
  · have hread := headOf_sharedReads hshared
    simp only [List.mem_cons, List.not_mem_nil, or_false] at hhead hread
    rcases hmem' with rfl | rfl
    · rcases hhead with h | h <;> rw [h] at hread <;> simp at hread
    · rw [headOf_append] at hread
      rcases hhead with h | h <;> rw [h] at hread <;> simp at hread
  · apply endOf_of_mem htenant
    rcases hmem' with rfl | rfl
    · rw [hp, endOf_append p (by decide)]
      decide
    · rw [endOf_append _ (by decide)]
      decide

private theorem projectTexts_congr {texts texts' : String → Option String} (k : ProjectionKeys)
    (args : ProjectionArgs) {key : String} (h : texts key = texts' key) :
    projectTexts texts k args key = projectTexts texts' k args key := by
  have hupdate : ∀ (f f' : String → Option String) (j : String) (v : Option String),
      f key = f' key → Function.update f j v key = Function.update f' j v key := by
    intro f f' j v hf
    by_cases hj : key = j
    · rw [hj, Function.update_self, Function.update_self]
    · rw [Function.update_of_ne hj, Function.update_of_ne hj, hf]
  unfold projectTexts
  apply hupdate
  cases k.session with
  | none => exact h
  | some p => exact hupdate _ _ _ _ h

theorem attachToWindow_applied (r : Redis) (k : ProjectionKeys) (args : ProjectionArgs) :
    (attachToWindow r k args).applied = r.applied := by
  unfold attachToWindow
  cases k.window <;> rfl

theorem visible_step (hb : a ∈ visible) {s s' : Keyspace} (h : Indistinct P B q visible s s') :
    Indistinct P B q visible (a.apply P s) (a.apply P s') := by
  have hpassed := h.guards a hb
  have hupdate : ∀ (f f' : String → Bool) (j k : String), f k = f' k →
      Function.update f j true k = Function.update f' j true k := by
    intro f f' j k hf
    by_cases hk : k = j
    · rw [hk, Function.update_self, Function.update_self]
    · rw [Function.update_of_ne hk, Function.update_of_ne hk, hf]
  cases a with
  | project e monthlyBefore clock =>
    have hdone : s.projected (P.keys e).projection = s'.projected (P.keys e).projection := hpassed
    show Indistinct P B q visible (projectionScript s _ _).1 (projectionScript s' _ _).1
    unfold projectionScript
    rw [hdone]
    split_ifs with hskip
    · exact h
    · refine ⟨fun key hkey => ⟨?_, projectTexts_congr _ _ (h.seen key hkey).texts,
        (h.seen key hkey).ranked⟩, ?_⟩
      · exact (footprint_projectUsage _ _).congr key (reads_not_package hkey) _ _
          (h.seen key hkey).usage
      · intro b hb
        have hguard := h.guards b hb
        cases b with
        | project e' monthlyBefore' clock' => exact hupdate _ _ _ _ hguard
        | window agg =>
          show (attachToWindow s.toRedis _ _).applied _ = (attachToWindow s'.toRedis _ _).applied _
          rw [attachToWindow_applied, attachToWindow_applied]
          exact hguard
  | window agg =>
    have hdone : s.applied (sinkKeys agg).windowId = s'.applied (sinkKeys agg).windowId := hpassed
    refine ⟨fun key hkey => ⟨?_, (h.seen key hkey).texts, (h.seen key hkey).ranked⟩, ?_⟩
    · show SameAt key (sinkScript s.toRedis _ _).1.usage (sinkScript s'.toRedis _ _).1.usage
      rw [(sinkScript_guarded _ _ _).1, (sinkScript_guarded _ _ _).1, hdone]
      split_ifs
      · exact (h.seen key hkey).usage
      · exact (footprint_applyWindow _ _).congr key List.not_mem_nil _ _ (h.seen key hkey).usage
    · intro b hb
      have hguard := h.guards b hb
      cases b with
      | project e monthlyBefore clock => exact hguard
      | window agg' =>
        show (sinkScript s.toRedis _ _).1.applied _ = (sinkScript s'.toRedis _ _).1.applied _
        rw [(sinkScript_guarded _ _ _).2, (sinkScript_guarded _ _ _).2, hdone]
        split_ifs
        · exact hguard
        · exact hupdate _ _ _ _ hguard

end Unwinding

/-! ### The endpoints -/

section Answers
variable {s s' : Keyspace} {B : Option String}

theorem prefixForRead_mem (t : Option String) (preferred legacy : String)
    (written : String → Bool) :
    prefixForRead t preferred legacy written ∈ [preferred, legacy] := by
  unfold prefixForRead
  split_ifs <;> simp

theorem prefixForRead_congr {t : Option String} {preferred legacy : String}
    {written written' : String → Bool} (h : ∀ p ∈ [preferred, legacy], written p = written' p) :
    prefixForRead t preferred legacy written = prefixForRead t preferred legacy written' := by
  unfold prefixForRead
  rw [h preferred (by simp), h legacy (by simp)]

theorem fieldsAt_congr {p : String}
    (h : ∀ suffix ∈ countSuffixes ++ detailSuffixes, SeenAt (p ++ suffix) s s') :
    fieldsAt s p = fieldsAt s' p := by
  unfold fieldsAt
  rw [(h ":total_tokens" (by decide)).usage.ints, (h ":input_tokens" (by decide)).usage.ints,
    (h ":output_tokens" (by decide)).usage.ints, (h ":cache_read_tokens" (by decide)).usage.ints,
    (h ":reasoning_tokens" (by decide)).usage.ints, (h ":event_count" (by decide)).usage.ints,
    (h ":cost_usd" (by decide)).usage.floats]

theorem readUsageBucket_congr {key : String} (h : SeenAt key s s') :
    readUsageBucket s key = readUsageBucket s' key := by
  unfold readUsageBucket
  rw [h.usage.hashInts, h.usage.hashFloats]

theorem customerPrefixForRead_congr {c : String}
    (h : ∀ p ∈ [Py.customerPrefix B c, "customer:" ++ c],
      ∀ suffix ∈ countSuffixes ++ detailSuffixes ++ [":spans"], SeenAt (p ++ suffix) s s') :
    customerPrefixForRead s B c = customerPrefixForRead s' B c := by
  apply prefixForRead_congr
  intro p hp
  unfold customerWritten
  rw [(h p hp ":total_tokens" (by decide)).usage.ints, (h p hp ":cost_usd" (by decide)).usage.floats,
    (h p hp ":spans" (by decide)).ranked]

private theorem getGlobal_congr
    (h : ∀ ns ∈ [Py.inTenant B "global", "global"],
      ∀ suffix ∈ globalSuffixes, SeenAt (ns ++ ":" ++ suffix) s s') :
    getGlobal s B = getGlobal s' B := by
  have happend : ∀ ns suffix : String, ns ++ (":" ++ suffix) = ns ++ ":" ++ suffix :=
    fun ns suffix => (String.append_assoc).symm
  have hns : globalNsForRead s B = globalNsForRead s' B := by
    apply prefixForRead_congr
    intro ns hns
    have hevents : s.usage.ints (ns ++ ":total_events") = s'.usage.ints (ns ++ ":total_events") := by
      have hsame := (h ns hns "total_events" (by decide)).usage.ints
      rw [← happend] at hsame
      exact hsame
    have hcost : s.usage.floats (ns ++ ":total_cost_usd") =
        s'.usage.floats (ns ++ ":total_cost_usd") := by
      have hsame := (h ns hns "total_cost_usd" (by decide)).usage.floats
      rw [← happend] at hsame
      exact hsame
    unfold globalWritten
    rw [hevents, hcost]
  have hmem : globalNsForRead s' B ∈ [Py.inTenant B "global", "global"] :=
    prefixForRead_mem _ _ _ _
  have hint : ∀ suffix ∈ globalSuffixes, s.usage.ints (globalNsForRead s' B ++ (":" ++ suffix)) =
      s'.usage.ints (globalNsForRead s' B ++ (":" ++ suffix)) := by
    intro suffix hsuffix
    rw [happend]
    exact (h _ hmem suffix hsuffix).usage.ints
  have hfloat : s.usage.floats (globalNsForRead s' B ++ (":" ++ "total_cost_usd")) =
      s'.usage.floats (globalNsForRead s' B ++ (":" ++ "total_cost_usd")) := by
    rw [happend]
    exact (h _ hmem "total_cost_usd" (by decide)).usage.floats
  have hevents := hint "total_events" (by decide)
  have htotal := hint "total_tokens" (by decide)
  have hinput := hint "input_tokens" (by decide)
  have houtput := hint "output_tokens" (by decide)
  have hend := hint "last_window_end" (by decide)
  unfold getGlobal
  rw [hns]
  dsimp only
  congr 1
  · exact congrArg integer hevents
  · exact congrArg integer htotal
  · exact congrArg integer hinput
  · exact congrArg integer houtput
  · exact congrArg number hfloat

private theorem answer_congr {dims : List String} {q : UsageQuery}
    (h : ∀ key ∈ q.sharedReads ++ q.tenantReads B, SeenAt key s s') :
    q.answer dims B s = q.answer dims B s' := by
  have hshared : ∀ key ∈ q.sharedReads, SeenAt key s s' :=
    fun key hkey => h key (List.mem_append_left _ hkey)
  have htenant : ∀ key ∈ q.tenantReads B, SeenAt key s s' :=
    fun key hkey => h key (List.mem_append_right _ hkey)
  cases q with
  | global =>
    refine congrArg UsageAnswer.global (getGlobal_congr fun ns hns suffix hsuffix => ?_)
    exact htenant _ (List.mem_flatMap.mpr ⟨ns, hns, List.mem_map_of_mem hsuffix⟩)
  | customer c =>
    have hat : ∀ p ∈ [Py.customerPrefix B c, "customer:" ++ c],
        ∀ suffix ∈ countSuffixes ++ detailSuffixes ++ [":spans"], SeenAt (p ++ suffix) s s' :=
      fun p hp suffix hsuffix =>
        htenant _ (List.mem_flatMap.mpr ⟨p, hp, List.mem_map_of_mem hsuffix⟩)
    have hmem : customerPrefixForRead s' B c ∈ [Py.customerPrefix B c, "customer:" ++ c] :=
      prefixForRead_mem _ _ _ _
    show UsageAnswer.fields (getCustomer s B c) = UsageAnswer.fields (getCustomer s' B c)
    unfold getCustomer
    rw [customerPrefixForRead_congr hat]
    dsimp only
    rw [(hat _ hmem ":total_tokens" (by decide)).usage.ints,
      fieldsAt_congr fun suffix hsuffix => hat _ hmem suffix (List.mem_append_left _ hsuffix)]
  | customerModel c m =>
    have hat : ∀ p ∈ [Py.customerPrefix B c, "customer:" ++ c],
        ∀ suffix ∈ countSuffixes ++ detailSuffixes ++ [":spans"], SeenAt (p ++ suffix) s s' :=
      fun p hp suffix hsuffix => htenant _ (List.mem_flatMap.mpr
        ⟨p, hp, List.mem_append_left _ (List.mem_map_of_mem hsuffix)⟩)
    have hmodel : ∀ p ∈ [Py.customerPrefix B c, "customer:" ++ c],
        ∀ suffix ∈ modelSuffixes, SeenAt (p ++ ":model:" ++ m ++ suffix) s s' :=
      fun p hp suffix hsuffix => htenant _ (List.mem_flatMap.mpr
        ⟨p, hp, List.mem_append_right _ (List.mem_map_of_mem hsuffix)⟩)
    have hmem : customerPrefixForRead s' B c ∈ [Py.customerPrefix B c, "customer:" ++ c] :=
      prefixForRead_mem _ _ _ _
    show UsageAnswer.model (getCustomerModel s B c m) = UsageAnswer.model (getCustomerModel s' B c m)
    unfold getCustomerModel
    rw [customerPrefixForRead_congr hat]
    dsimp only
    rw [(hmodel _ hmem ":total_tokens" (by decide)).usage.ints,
      (hmodel _ hmem ":input_tokens" (by decide)).usage.ints,
      (hmodel _ hmem ":output_tokens" (by decide)).usage.ints,
      (hmodel _ hmem ":cost_usd" (by decide)).usage.floats]
  | period c p =>
    exact congrArg UsageAnswer.fields (readUsageBucket_congr (hshared _ List.mem_cons_self))
  | day c d =>
    exact congrArg UsageAnswer.fields (readUsageBucket_congr (hshared _ List.mem_cons_self))
  | modelPeriod c m p =>
    exact congrArg UsageAnswer.fields (readUsageBucket_congr (hshared _ List.mem_cons_self))
  | periodCosts p c =>
    have hindex := hshared (periodCustomersIndex p) List.mem_cons_self
    have hbucket := hshared (rollupMonthKey c p) (List.mem_cons_of_mem _ List.mem_cons_self)
    refine congrArg UsageAnswer.cost ?_
    unfold listCustomerPeriodCosts
    rw [hindex.usage.sets, readUsageBucket_congr hbucket]
  | session i =>
    have hat : ∀ p ∈ [Py.scopePrefix B "session" i, "session:" ++ i],
        ∀ suffix ∈ countSuffixes ++ detailSuffixes ++ [":held_usd", ":max_cost_usd", ":customer_id"],
          SeenAt (p ++ suffix) s s' :=
      fun p hp suffix hsuffix =>
        htenant _ (List.mem_flatMap.mpr ⟨p, hp, List.mem_map_of_mem hsuffix⟩)
    have hbase : sessionPrefixForRead s B i = sessionPrefixForRead s' B i := by
      apply prefixForRead_congr
      intro p hp
      unfold scopeWritten
      rw [(hat p hp ":cost_usd" (by decide)).usage.floats,
        (hat p hp ":held_usd" (by decide)).usage.floats,
        (hat p hp ":max_cost_usd" (by decide)).usage.floats,
        (hat p hp ":event_count" (by decide)).usage.ints]
    have hmem : sessionPrefixForRead s' B i ∈ [Py.scopePrefix B "session" i, "session:" ++ i] :=
      prefixForRead_mem _ _ _ _
    refine congrArg UsageAnswer.session ?_
    unfold readSession
    rw [hbase]
    dsimp only
    rw [(hat _ hmem ":cost_usd" (by decide)).usage.floats,
      (hat _ hmem ":event_count" (by decide)).usage.ints,
      (hat _ hmem ":customer_id" (by decide)).texts,
      fieldsAt_congr fun suffix hsuffix => hat _ hmem suffix (List.mem_append_left _ hsuffix)]
  | dim k v p =>
    have hcost := hshared (dimBase k v p ++ ":cost_usd") List.mem_cons_self
    have hevents := hshared (dimBase k v p ++ ":event_count")
      (List.mem_cons_of_mem _ List.mem_cons_self)
    have hdim : readDimUsage s k v p = readDimUsage s' k v p := by
      unfold readDimUsage
      dsimp only
      rw [hcost.usage.floats, hevents.usage.ints]
    show UsageAnswer.dim (if k ∈ dims then _ else none) = UsageAnswer.dim (if k ∈ dims then _ else none)
    rw [hdim]

end Answers

/-- What another tenant's endpoint answers does not depend on the steps of tenant `A`, in two
runs where each of them keeps apart. -/
theorem usage_noninterference (P : Projection) (dims : List String) {A : String}
    {B : Option String} (q : UsageQuery) (s : Keyspace) {run₁ run₂ : List UsageStep}
    (hA : hasTenant (some A) = true) (hB : B ≠ some A)
    (hsame : others A run₁ = others A run₂) (htenants : ∀ b ∈ B, Unextended A b)
    (hapart : ∀ a ∈ run₁ ++ run₂, a.tenant = some A → Apart P q (others A run₁) a) :
    q.answer dims B (run₁.foldl (UsageStep.apply P) s) =
      q.answer dims B (run₂.foldl (UsageStep.apply P) s) := by
  have hunwound : Indistinct P B q (others A run₁) (run₁.foldl (UsageStep.apply P) s)
      (run₂.foldl (UsageStep.apply P) s) := by
    apply unwinding (UsageStep.apply P) (fun a => a.tenant == some A)
      (indistinct_equivalence P B q _) hsame
    · intro a ha hhidden t
      have htenant : a.tenant = some A := by simpa using hhidden
      exact hidden_step hA htenant hB htenants (hapart a ha htenant) t
    · intro a ha hvisible t t' h
      have hmem : a ∈ others A run₁ := by
        rcases List.mem_append.mp ha with ha | ha
        · exact List.mem_filter.mpr ⟨ha, by simpa using hvisible⟩
        · rw [hsame]
          exact List.mem_filter.mpr ⟨ha, by simpa using hvisible⟩
      exact visible_step hmem h
  exact answer_congr hunwound.seen

/-- One flat-priced catalog, one dimension, and SHA-256 on the ids `acme-1` and `acme-2`. -/
def sampleProjection : Projection where
  catalog :=
    { models := .empty
      defaults := .flat 1 3 (1 / 10)
      prefixModels := []
      cacheReadMultiplier := 1 / 2 }
  sha256 text :=
    if text = "acme-1" then "7974d1de1641df0234e124a5d0f4acfacfc40c99ea69f0295f943074816d1091"
    else "89683d3644595c8bdbd401e8dc978888cda6f2a5b35edb9ce2dbce87d3f6d239"
  allowedDimensions := ["feature"]
  windowMillis := 10000

/-- A window of the customer `c1` under the given tenant. -/
def windowOfC1 (tenant : String) : UsageAggregate :=
  { customerId := some "c1"
    tenantId := some tenant
    modelId := some "gpt-4o"
    windowStart := 0
    windowEnd := 10000
    inputTokens := 7
    totalTokens := 7
    eventCount := 1
    costMicro := 7 }

/-- An event under the given tenant with the dimension value `chat`. -/
def eventOfC1 (tenant : String) : TokenEvent :=
  { eventId := some (tenant ++ "-1")
    tenantId := some tenant
    customerId := some "c1"
    modelId := some "gpt-4o"
    inputTokens := 7
    timestamp := 1000
    metadata := some [("feature", "chat")] }

theorem usage_noninterference_lifetime :
    (UsageQuery.customer "c1").answer ["feature"] (some "globex")
        ([UsageStep.window (windowOfC1 "acme"), .window (windowOfC1 "globex"),
          .project (eventOfC1 "acme") 0 "5000"].foldl (UsageStep.apply sampleProjection) {}) =
      (UsageQuery.customer "c1").answer ["feature"] (some "globex")
        ([UsageStep.window (windowOfC1 "globex")].foldl (UsageStep.apply sampleProjection) {}) :=
  usage_noninterference (A := "acme") sampleProjection ["feature"] (.customer "c1") {} (by decide)
    (by decide) (by decide +kernel) (by decide) (by decide +kernel)

/-- The month of a customer and a dimension are shared by the tenants. -/
theorem not_usage_noninterference :
    others "acme" [.window (windowOfC1 "acme"), .project (eventOfC1 "acme") 0 "5000"] =
        others "acme" [] ∧
      (UsageQuery.period "c1" "1970-01").answer ["feature"] (some "globex")
          ([UsageStep.window (windowOfC1 "acme"), .project (eventOfC1 "acme") 0 "5000"].foldl
            (UsageStep.apply sampleProjection) {}) ≠
        (UsageQuery.period "c1" "1970-01").answer ["feature"] (some "globex") {} ∧
      (UsageQuery.dim "feature" "chat" none).answer ["feature"] (some "globex")
          ([UsageStep.window (windowOfC1 "acme"), .project (eventOfC1 "acme") 0 "5000"].foldl
            (UsageStep.apply sampleProjection) {}) ≠
        (UsageQuery.dim "feature" "chat" none).answer ["feature"] (some "globex") {} := by
  decide +kernel

end FluxMeter.Usage
