import FluxMeter.Billing.BillingExport
import Mathlib.Data.List.Induction
import Mathlib.Algebra.Order.Ring.Int

/-! When an export delivers each unit of usage once. As the platforms share one watermark, their
books agree with it only as long as every cycle is all or nothing: either the watermark moves and
every linked platform takes the delta once, or it stays and none of them takes anything. -/
namespace FluxMeter.Billing

/-- The Stripe events that a cycle creates. -/
def stripeCreated (cfg : ExportConfig) (c : Cycle) (usage : Counters) : ℕ :=
  if cfg.linked .stripe && 0 < usage.eventCount then (stripeRetry c.stripe 0 3).1 else 0

/-- Metronome is sent something new and accepts it. -/
def metronomeTakes (cfg : ExportConfig) (s : Books) (c : Cycle) (usage : Counters) : Bool :=
  (0 < usage.eventCount || 0 < usage.inputTokens) &&
    accepts (idempotencyKey cfg c.now) s.metronomeIds c.metronome

/-- Orb accepts the event of one kind of token. -/
def orbTakes (cfg : ExportConfig) (s : Books) (c : Cycle) (suffix : String) : Bool :=
  accepts (idempotencyKey cfg c.now ++ suffix) s.orbKeys c.orb

/-- A platform reports: its request returns, or there is nothing that it would be sent. -/
def reports (cfg : ExportConfig) (c : Cycle) (usage : Counters) (p : Platform) : Bool :=
  cfg.linked p && match p with
    | .stripe => 0 < usage.eventCount && (stripeRetry c.stripe 0 3).2
    | .metronome => (usage.eventCount ≤ 0 && usage.inputTokens ≤ 0) || c.metronome = .done
    | .orb => (usage.inputTokens ≤ 0 && usage.outputTokens ≤ 0) || c.orb = .done

def moves (cfg : ExportConfig) (c : Cycle) (usage : Counters) : Bool :=
  reports cfg c usage .stripe || reports cfg c usage .metronome || reports cfg c usage .orb

/-- A cycle with a delta is all or nothing. -/
structure AllOrNothing (cfg : ExportConfig) (s : Books) (c : Cycle) (usage : Counters) : Prop where
  stripe : cfg.linked .stripe → usage.eventCount = 0 ∨
    stripeCreated cfg c usage = if moves cfg c usage then 1 else 0
  metronome : cfg.linked .metronome → metronomeTakes cfg s c usage = moves cfg c usage
  orbInput : cfg.linked .orb → usage.inputTokens = 0 ∨
    orbTakes cfg s c "-input" = moves cfg c usage
  orbOutput : cfg.linked .orb → usage.outputTokens = 0 ∨
    orbTakes cfg s c "-output" = moves cfg c usage

/-- The books of every linked platform agree with the watermark. -/
structure Synced (cfg : ExportConfig) (s : Books) : Prop where
  stripe : cfg.linked .stripe → s.stripe = s.lastReported.eventCount
  metronome : cfg.linked .metronome → s.metronome = s.lastReported
  orb : cfg.linked .orb → s.orbInput = s.lastReported.inputTokens ∧
    s.orbOutput = s.lastReported.outputTokens

/-- What a platform has accepted is the lifetime usage. -/
def Delivered (s : Books) (counters : Counters) : Platform → Prop
  | .stripe => s.stripe = counters.eventCount
  | .metronome => s.metronome = counters
  | .orb => s.orbInput = counters.inputTokens ∧ s.orbOutput = counters.outputTokens

/-! ### One cycle -/

section Cycle
variable (cfg : ExportConfig) (s : Books) (c : Cycle) (usage : Counters)

theorem exportStripe_eq : exportStripe cfg c usage s =
    ({ s with stripe := s.stripe + stripeCreated cfg c usage * usage.eventCount },
      reports cfg c usage .stripe) := by
  unfold exportStripe stripeCreated reports
  by_cases hsend : (cfg.linked .stripe && decide (0 < usage.eventCount)) = true
  · rw [if_pos hsend, if_pos hsend]
    rw [Bool.and_eq_true] at hsend
    simp [hsend.1, hsend.2]
  · rw [if_neg hsend, if_neg hsend]
    have hnot : (cfg.linked .stripe && (decide (0 < usage.eventCount) &&
        (stripeRetry c.stripe 0 3).2)) = false := by
      rw [← Bool.and_assoc, Bool.eq_false_iff.mpr hsend]
      rfl
    simp [hnot]

theorem exportMetronome_eq : exportMetronome cfg c usage s =
    (if cfg.linked .metronome && metronomeTakes cfg s c usage then
        { s with
          metronome := s.metronome.add usage
          metronomeIds := idempotencyKey cfg c.now :: s.metronomeIds }
      else s, reports cfg c usage .metronome) := by
  unfold exportMetronome metronomeTakes reports
  dsimp only
  cases hlinked : cfg.linked .metronome with
  | false => simp
  | true =>
    by_cases hskip : usage.eventCount ≤ 0 ∧ usage.inputTokens ≤ 0
    · have hevents : ¬ 0 < usage.eventCount := not_lt.mpr hskip.1
      have hinput : ¬ 0 < usage.inputTokens := not_lt.mpr hskip.2
      simp [hskip, hevents, hinput]
    · have hsend : 0 < usage.eventCount ∨ 0 < usage.inputTokens := by omega
      have hsome : (decide (0 < usage.eventCount) || decide (0 < usage.inputTokens)) = true := by
        simpa using hsend
      have hnone : (decide (usage.eventCount ≤ 0) && decide (usage.inputTokens ≤ 0)) = false := by
        simpa using hskip
      rw [hsome, hnone]
      simp [hskip]

private theorem suffix_ne (key : String) : key ++ "-output" ≠ key ++ "-input" := by
  intro h
  have hlists := congrArg String.toList h
  rw [String.toList_append, String.toList_append] at hlists
  exact absurd (List.append_cancel_left hlists) (by decide)

private theorem accepts_cons_of_ne {key other : String} (known : List String) (reply : Reply)
    (h : key ≠ other) : accepts key (other :: known) reply = accepts key known reply := by
  simp [accepts, List.mem_cons, h]

theorem orbEvent_fst (key : String) (reply : Reply) (tokens total : ℤ) (keys : List String) :
    (orbEvent key reply tokens total keys).1 =
      total + if 0 < tokens && accepts key keys reply then tokens else 0 := by
  unfold orbEvent
  split_ifs with h
  · rfl
  · exact (Int.add_zero total).symm

private theorem accepts_orbEvent {key other : String} (reply : Reply) (tokens total : ℤ)
    (keys : List String) (h : key ≠ other) :
    accepts key (orbEvent other reply tokens total keys).2 reply = accepts key keys reply := by
  unfold orbEvent
  split_ifs with hsent
  · exact accepts_cons_of_ne keys reply h
  · rfl

/-- The event for the input tokens does not hide the one for the output tokens, which has a key of
its own. -/
theorem exportOrb_eq : ∃ keys, exportOrb cfg c usage s =
    (if cfg.linked .orb then
        { s with
          orbInput := s.orbInput +
            if 0 < usage.inputTokens && orbTakes cfg s c "-input" then usage.inputTokens else 0
          orbOutput := s.orbOutput +
            if 0 < usage.outputTokens && orbTakes cfg s c "-output" then usage.outputTokens else 0
          orbKeys := keys }
      else s, reports cfg c usage .orb) := by
  unfold exportOrb orbTakes reports
  dsimp only
  cases hlinked : cfg.linked .orb with
  | false => exact ⟨[], by simp⟩
  | true =>
    by_cases hskip : usage.inputTokens ≤ 0 ∧ usage.outputTokens ≤ 0
    · have hinput : ¬ 0 < usage.inputTokens := not_lt.mpr hskip.1
      have houtput : ¬ 0 < usage.outputTokens := not_lt.mpr hskip.2
      exact ⟨s.orbKeys, by simp [hskip, hinput, houtput]⟩
    · have hnone : (decide (usage.inputTokens ≤ 0) && decide (usage.outputTokens ≤ 0)) = false := by
        simpa using hskip
      rw [hnone]
      let key := idempotencyKey cfg c.now
      let keys₁ := (orbEvent (key ++ "-input") c.orb usage.inputTokens s.orbInput s.orbKeys).2
      refine ⟨(orbEvent (key ++ "-output") c.orb usage.outputTokens s.orbOutput keys₁).2, ?_⟩
      rw [if_neg (by decide), if_neg hskip, if_pos rfl, orbEvent_fst, orbEvent_fst,
        accepts_orbEvent _ _ _ _ (suffix_ne _)]
      rfl

/-- The books that the three parts leave; all three are sent what the watermark is short of. -/
theorem exportTargets_eq : ∃ ids keys, exportTargets cfg c usage s =
    ({ lastReported := s.lastReported
       stripe := s.stripe + stripeCreated cfg c usage * usage.eventCount
       metronome := if cfg.linked .metronome && metronomeTakes cfg s c usage then
         s.metronome.add usage else s.metronome
       metronomeIds := ids
       orbInput := s.orbInput +
         if cfg.linked .orb && (0 < usage.inputTokens && orbTakes cfg s c "-input") then
           usage.inputTokens else 0
       orbOutput := s.orbOutput +
         if cfg.linked .orb && (0 < usage.outputTokens && orbTakes cfg s c "-output") then
           usage.outputTokens else 0
       orbKeys := keys }, reports cfg c usage) := by
  have hreports : (fun p => match p with
      | Platform.stripe => reports cfg c usage .stripe
      | .metronome => reports cfg c usage .metronome
      | .orb => reports cfg c usage .orb) = reports cfg c usage := by
    funext p
    cases p <;> rfl
  let s₁ := { s with stripe := s.stripe + stripeCreated cfg c usage * usage.eventCount }
  have htakes : metronomeTakes cfg s₁ c usage = metronomeTakes cfg s c usage := rfl
  unfold exportTargets
  rw [exportStripe_eq]
  dsimp only
  rw [exportMetronome_eq, htakes]
  dsimp only
  cases hmetronome : (cfg.linked .metronome && metronomeTakes cfg s c usage) with
  | false =>
    obtain ⟨keys, horb⟩ := exportOrb_eq cfg s₁ c usage
    rw [if_neg Bool.false_ne_true, horb]
    refine ⟨s.metronomeIds, if cfg.linked .orb then keys else s.orbKeys, Prod.ext ?_ hreports⟩
    cases horblinked : cfg.linked .orb <;> simp [orbTakes, s₁]
  | true =>
    obtain ⟨keys, horb⟩ := exportOrb_eq cfg
      { s₁ with
        metronome := s.metronome.add usage
        metronomeIds := idempotencyKey cfg c.now :: s.metronomeIds } c usage
    rw [if_pos rfl, horb]
    refine ⟨idempotencyKey cfg c.now :: s.metronomeIds,
      if cfg.linked .orb then keys else s.orbKeys, Prod.ext ?_ hreports⟩
    cases horblinked : cfg.linked .orb <;> simp [orbTakes, s₁]

/-- The watermark moves to the counters of a cycle that moves it. -/
theorem exportCustomer_eq (hdelta : hasExportableDelta (newUsage s c.counters)) :
    exportCustomer cfg s c =
      ({ (exportTargets cfg c (newUsage s c.counters) s).1 with
          lastReported := if moves cfg c (newUsage s c.counters) then c.counters
            else s.lastReported }, reports cfg c (newUsage s c.counters)) := by
  obtain ⟨ids, keys, htargets⟩ := exportTargets_eq cfg s c (newUsage s c.counters)
  unfold exportCustomer moves
  dsimp only
  rw [hdelta, htargets]
  dsimp only
  rw [if_neg (by decide)]
  split_ifs <;> rfl

theorem exportCustomer_of_no_delta (hnone : hasExportableDelta (newUsage s c.counters) = false) :
    exportCustomer cfg s c = (s, fun _ => false) := by
  unfold exportCustomer
  dsimp only
  rw [hnone]
  rfl

end Cycle

/-! ### The watermark and the books -/

section Step
variable {cfg : ExportConfig} {s : Books} {c : Cycle}

theorem newUsage_add (h : s.lastReported.AtMost c.counters) :
    s.lastReported.add (newUsage s c.counters) = c.counters := by
  obtain ⟨hevents, hinput, houtput⟩ := h
  have hsum : ∀ a b : ℤ, a ≤ b → a + max 0 (b - a) = b := fun a b hab => by omega
  unfold newUsage Counters.add
  rw [hsum _ _ hevents, hsum _ _ hinput, hsum _ _ houtput]

theorem Counters.add_ne_self {d : Counters} (l : Counters) (h : hasExportableDelta d) :
    l.add d ≠ l := by
  intro heq
  unfold Counters.add at heq
  unfold hasExportableDelta at h
  have hevents := congrArg Counters.eventCount heq
  have hinput := congrArg Counters.inputTokens heq
  have houtput := congrArg Counters.outputTokens heq
  simp only [Bool.or_eq_true, decide_eq_true_eq] at h hevents hinput houtput
  omega

/-- What a platform was sent agrees with a watermark that moved or stayed iff the platform took the
delta when the watermark moved, and only then. -/
theorem taken_eq_iff {d : ℤ} (l : ℤ) (takes moved : Bool) (hd : 0 ≤ d) :
    (l + if 0 < d && takes then d else 0) = (if moved then l + d else l) ↔
      d = 0 ∨ takes = moved := by
  rcases hd.eq_or_lt with rfl | hpos
  · simp
  · cases takes <;> cases moved <;> simp [hpos, hpos.ne']

private theorem created_eq_iff {d : ℤ} (l : ℤ) (n : ℕ) (moved : Bool) :
    l + n * d = (if moved then l + d else l) ↔ d = 0 ∨ n = if moved then 1 else 0 := by
  have hgoal : l + n * d = (if moved then l + d else l) ↔
      (n : ℤ) * d = ((if moved then 1 else 0 : ℕ) : ℤ) * d := by
    cases moved <;> simp
  rw [hgoal, mul_eq_mul_right_iff, Nat.cast_inj, or_comm]

/-- From books in agreement, a cycle with a delta leaves books in agreement iff it is all or
nothing. -/
theorem synced_step_iff (hsynced : Synced cfg s) (hle : s.lastReported.AtMost c.counters)
    (hdelta : hasExportableDelta (newUsage s c.counters)) :
    Synced cfg (exportCustomer cfg s c).1 ↔ AllOrNothing cfg s c (newUsage s c.counters) := by
  have hsum := newUsage_add hle
  have hinput : 0 ≤ (newUsage s c.counters).inputTokens := le_max_left 0 _
  have houtput : 0 ≤ (newUsage s c.counters).outputTokens := le_max_left 0 _
  obtain ⟨ids, keys, htargets⟩ := exportTargets_eq cfg s c (newUsage s c.counters)
  rw [exportCustomer_eq cfg s c hdelta, htargets]
  generalize newUsage s c.counters = d at *
  have hwatermark : ∀ f : Counters → ℤ,
      f (if moves cfg c d then c.counters else s.lastReported) =
        if moves cfg c d then f c.counters else f s.lastReported := fun f =>
    apply_ite f _ _ _
  have hstripe : cfg.linked .stripe → (s.stripe + stripeCreated cfg c d * d.eventCount =
      (if moves cfg c d then c.counters else s.lastReported).eventCount ↔
      d.eventCount = 0 ∨ stripeCreated cfg c d = if moves cfg c d then 1 else 0) := by
    intro hlinked
    rw [hwatermark Counters.eventCount, ← hsum, hsynced.stripe hlinked]
    exact created_eq_iff _ _ _
  have hmetronome : cfg.linked .metronome →
      ((if cfg.linked .metronome && metronomeTakes cfg s c d then s.metronome.add d
        else s.metronome) = (if moves cfg c d then c.counters else s.lastReported) ↔
      metronomeTakes cfg s c d = moves cfg c d) := by
    intro hlinked
    rw [hlinked, Bool.true_and, ← hsum, hsynced.metronome hlinked]
    have hne := Counters.add_ne_self s.lastReported hdelta
    cases metronomeTakes cfg s c d <;> cases moves cfg c d <;> simp [hne, hne.symm]
  have hin : cfg.linked .orb → (s.orbInput +
      (if cfg.linked .orb && (0 < d.inputTokens && orbTakes cfg s c "-input") then d.inputTokens
        else 0) = (if moves cfg c d then c.counters else s.lastReported).inputTokens ↔
      d.inputTokens = 0 ∨ orbTakes cfg s c "-input" = moves cfg c d) := by
    intro hlinked
    rw [hwatermark Counters.inputTokens, ← hsum, (hsynced.orb hlinked).1, hlinked, Bool.true_and]
    exact taken_eq_iff _ _ _ hinput
  have hout : cfg.linked .orb → (s.orbOutput +
      (if cfg.linked .orb && (0 < d.outputTokens && orbTakes cfg s c "-output") then
        d.outputTokens else 0) =
        (if moves cfg c d then c.counters else s.lastReported).outputTokens ↔
      d.outputTokens = 0 ∨ orbTakes cfg s c "-output" = moves cfg c d) := by
    intro hlinked
    rw [hwatermark Counters.outputTokens, ← hsum, (hsynced.orb hlinked).2, hlinked, Bool.true_and]
    exact taken_eq_iff _ _ _ houtput
  constructor
  · intro h
    exact {
      stripe := fun hl => (hstripe hl).mp (h.stripe hl)
      metronome := fun hl => (hmetronome hl).mp (h.metronome hl)
      orbInput := fun hl => (hin hl).mp (h.orb hl).1
      orbOutput := fun hl => (hout hl).mp (h.orb hl).2 }
  · intro h
    exact {
      stripe := fun hl => (hstripe hl).mpr (h.stripe hl)
      metronome := fun hl => (hmetronome hl).mpr (h.metronome hl)
      orb := fun hl => ⟨(hin hl).mpr (h.orbInput hl), (hout hl).mpr (h.orbOutput hl)⟩ }

theorem moves_of_reports {p : Platform} {usage : Counters} (h : reports cfg c usage p = true) :
    moves cfg c usage = true := by
  unfold moves
  cases p <;> simp [h]

private theorem linked_of_reports {p : Platform} {usage : Counters}
    (h : reports cfg c usage p = true) :
    cfg.linked p = true :=
  (Bool.and_eq_true_iff.mp h).1

theorem lastReported_exportCustomer (cfg : ExportConfig) (s : Books) (c : Cycle) :
    (exportCustomer cfg s c).1.lastReported = s.lastReported ∨
      (exportCustomer cfg s c).1.lastReported = c.counters := by
  cases hdelta : hasExportableDelta (newUsage s c.counters) with
  | false =>
    rw [exportCustomer_of_no_delta cfg s c hdelta]
    exact Or.inl rfl
  | true =>
    rw [exportCustomer_eq cfg s c hdelta]
    cases moves cfg c (newUsage s c.counters)
    · exact Or.inl rfl
    · exact Or.inr rfl

theorem delivered_of_reported {p : Platform} (hsynced : Synced cfg (exportCustomer cfg s c).1)
    (hreported : (exportCustomer cfg s c).2 p = true) :
    Delivered (exportCustomer cfg s c).1 c.counters p := by
  cases hdelta : hasExportableDelta (newUsage s c.counters) with
  | false =>
    rw [exportCustomer_of_no_delta cfg s c hdelta] at hreported
    cases hreported
  | true =>
    have heq := exportCustomer_eq cfg s c hdelta
    have hreports : reports cfg c (newUsage s c.counters) p = true := by
      rwa [heq] at hreported
    have hlast : (exportCustomer cfg s c).1.lastReported = c.counters := by
      rw [heq, moves_of_reports hreports]
      rfl
    have hlinked := linked_of_reports hreports
    cases p with
    | stripe => exact (hsynced.stripe hlinked).trans (by rw [hlast])
    | metronome => exact (hsynced.metronome hlinked).trans hlast
    | orb =>
      obtain ⟨hinput, houtput⟩ := hsynced.orb hlinked
      exact ⟨hinput.trans (by rw [hlast]), houtput.trans (by rw [hlast])⟩

end Step

/-! ### A run of cycles -/

def Growing (cycles : List Cycle) : Prop :=
  (({} : Counters) :: cycles.map Cycle.counters).Pairwise Counters.AtMost

/-- After every cycle of the run, each platform that reported in it has accepted the lifetime usage
of that cycle. -/
def DeliversOnce (cfg : ExportConfig) (cycles : List Cycle) : Prop :=
  ∀ done c rest, cycles = done ++ c :: rest → ∀ p,
    (exportCustomer cfg (exportAll cfg {} done) c).2 p = true →
      Delivered (exportAll cfg {} (done ++ [c])) c.counters p

/-- Every cycle of the run that has a delta is all or nothing. -/
def EachAllOrNothing (cfg : ExportConfig) (cycles : List Cycle) : Prop :=
  ∀ done c rest, cycles = done ++ c :: rest →
    let s := exportAll cfg {} done
    hasExportableDelta (newUsage s c.counters) → AllOrNothing cfg s c (newUsage s c.counters)

section Run
variable {cfg : ExportConfig}

theorem exportAll_concat (cfg : ExportConfig) (s : Books) (cycles : List Cycle) (c : Cycle) :
    exportAll cfg s (cycles ++ [c]) = (exportCustomer cfg (exportAll cfg s cycles) c).1 :=
  List.foldl_concat _ s c cycles

private theorem lastReported_mem (cfg : ExportConfig) (cycles : List Cycle) :
    (exportAll cfg {} cycles).lastReported ∈ ({} : Counters) :: cycles.map Cycle.counters := by
  induction cycles using List.reverseRecOn with
  | nil => exact List.mem_cons_self
  | append_singleton cycles c ih =>
    rw [exportAll_concat, List.map_append, ← List.cons_append]
    rcases lastReported_exportCustomer cfg (exportAll cfg {} cycles) c with h | h
    · rw [h]
      exact List.mem_append_left _ ih
    · rw [h]
      exact List.mem_append_right _ (List.mem_singleton_self _)

private theorem lastReported_atMost {cycles done rest : List Cycle} {c : Cycle}
    (hgrow : Growing cycles)
    (hsplit : cycles = done ++ c :: rest) :
    (exportAll cfg {} done).lastReported.AtMost c.counters := by
  have hpairs : ((({} : Counters) :: done.map Cycle.counters) ++
      (c :: rest).map Cycle.counters).Pairwise Counters.AtMost := by
    have h := hgrow
    unfold Growing at h
    rwa [hsplit, List.map_append, ← List.cons_append] at h
  exact (List.pairwise_append.mp hpairs).2.2 _ (lastReported_mem cfg done) _ List.mem_cons_self

theorem synced_concat_iff {cycles done rest : List Cycle} {c : Cycle} (hgrow : Growing cycles)
    (hsplit : cycles = done ++ c :: rest) (hsynced : Synced cfg (exportAll cfg {} done)) :
    Synced cfg (exportAll cfg {} (done ++ [c])) ↔
      (hasExportableDelta (newUsage (exportAll cfg {} done) c.counters) →
        AllOrNothing cfg (exportAll cfg {} done) c
          (newUsage (exportAll cfg {} done) c.counters)) := by
  rw [exportAll_concat]
  cases hdelta : hasExportableDelta (newUsage (exportAll cfg {} done) c.counters) with
  | false =>
    rw [exportCustomer_of_no_delta cfg _ c hdelta]
    exact iff_of_true hsynced fun h => absurd h Bool.false_ne_true
  | true =>
    rw [synced_step_iff hsynced (lastReported_atMost hgrow hsplit) hdelta]
    exact ⟨fun h _ => h, fun h => h rfl⟩

private theorem synced_run_iff {cycles : List Cycle} (hgrow : Growing cycles) :
    (∀ done rest, cycles = done ++ rest → Synced cfg (exportAll cfg {} done)) ↔
      EachAllOrNothing cfg cycles := by
  constructor
  · intro h done c rest hsplit
    refine (synced_concat_iff hgrow hsplit (h done (c :: rest) hsplit)).mp ?_
    exact h (done ++ [c]) rest (by rw [hsplit, List.append_assoc]; rfl)
  · intro h done
    induction done using List.reverseRecOn with
    | nil => exact fun _ _ => ⟨fun _ => rfl, fun _ => rfl, fun _ => ⟨rfl, rfl⟩⟩
    | append_singleton done c ih =>
      intro rest hsplit
      have hcycle : cycles = done ++ c :: rest := by
        rw [hsplit, List.append_assoc]
        rfl
      exact (synced_concat_iff hgrow hcycle (ih (c :: rest) hcycle)).mpr (h done c rest hcycle)

/-- In every run whose cycles are all or nothing, a platform that reports has accepted exactly the
lifetime usage. -/
theorem deliversOnce {cycles : List Cycle} (hgrow : Growing cycles)
    (heach : EachAllOrNothing cfg cycles) : DeliversOnce cfg cycles := by
  intro done c rest hsplit p hreported
  have hsynced := (synced_run_iff hgrow).mpr heach (done ++ [c]) rest
    (by rw [hsplit, List.append_assoc]; rfl)
  rw [exportAll_concat] at hsynced ⊢
  exact delivered_of_reported hsynced hreported

/-- A customer of all three platforms. -/
private def everywhere : ExportConfig := { customerId := "acme", linked := fun _ => true }

/-- Two hours of usage, with every request answered. -/
private def twoHours : List Cycle :=
  [{ now := 0, counters := ⟨10, 100, 50⟩ }, { now := 3600, counters := ⟨15, 160, 70⟩ }]

private theorem growing_twoHours : Growing twoHours := by
  unfold Growing Counters.AtMost
  decide

private theorem eachAllOrNothing_twoHours : EachAllOrNothing everywhere twoHours := by
  intro done c rest hsplit s _
  rcases done with _ | ⟨first, _ | ⟨second, done⟩⟩
  · obtain ⟨rfl, -⟩ := List.cons.inj hsplit
    exact ⟨by decide +kernel, by decide +kernel, by decide +kernel, by decide +kernel⟩
  · obtain ⟨rfl, htail⟩ := List.cons.inj hsplit
    obtain ⟨rfl, -⟩ := List.cons.inj htail
    exact ⟨by decide +kernel, by decide +kernel, by decide +kernel, by decide +kernel⟩
  · have hlength := congrArg List.length hsplit
    simp [twoHours] at hlength

theorem deliversOnce_twoHours : DeliversOnce everywhere twoHours ∧
    (exportAll everywhere {} twoHours).stripe = 15 :=
  ⟨deliversOnce growing_twoHours eachAllOrNothing_twoHours, by decide +kernel⟩

/-- Stripe takes the first hour while Metronome fails: the watermark moves for both. -/
private def metronomeDown : List Cycle :=
  [{ now := 0, counters := ⟨10, 100, 50⟩, metronome := .failed },
    { now := 3600, counters := ⟨15, 160, 70⟩ }]

/-- The next hour Metronome succeeds with five of the fifteen events. -/
theorem metronome_misses_first_hour : Growing metronomeDown ∧
    ¬ DeliversOnce { customerId := "acme", linked := fun p => p ≠ .orb } metronomeDown := by
  refine ⟨by unfold Growing Counters.AtMost; decide, fun h => ?_⟩
  have hmetronome := h [metronomeDown.head (by decide)] (metronomeDown.getLast (by decide)) [] rfl
    .metronome (by decide +kernel)
  revert hmetronome
  unfold Delivered
  decide +kernel

end Run

end FluxMeter.Billing
