import FluxMeter.Job.MonthlyVolume
import FluxMeter.Usage.BillingMonotone
import FluxMeter.Usage.Packages
import Mathlib.Data.Int.ModEq

/-! `TokenEvent.getTotalTokens` adds six `int` counts as an `int`. The monthly meter, the aggregate of
a window and the package of the customer all take the total from it. -/
namespace FluxMeter.Usage
open FluxMeter.Budget FluxMeter.Custody FluxMeter.Job FluxMeter.Keys FluxMeter.Model
open FluxMeter.Pricing FluxMeter.Wire

def categories (agg : UsageAggregate) : TokenCounts :=
  ⟨agg.inputTokens, agg.outputTokens, agg.cacheReadTokens, agg.cacheWriteTokens,
    agg.reasoningTokens, agg.embeddingTokens⟩

/-- The total of each event is the sum of its counts, and all that is metered moves by this sum: as
`long` arithmetic, and for an aggregate of fewer than 2^32 events as a number. -/
structure TotalsAdd (es : List TokenEvent) : Prop where
  total : ∀ e ∈ es, e.getTotalTokens = e.counts.total
  meter : ∀ e ∈ es, ∀ m : MonthlyVolumeMeter,
    (m.take e).monthlyTokens = wrap64 (m.tokensBefore e.timestamp + e.counts.total)
  package : ∀ e ∈ es, ∀ (P : Projection) (s : Keyspace) (before : ℤ) (clock : String),
    s.projected (P.projectionKey e.eventId) = false →
    packageCells (P.apply s e before clock).1.usage (P.keys e).package =
      drawCells (packageCells s.usage (P.keys e).package) e.counts.total
  event : ∀ e ∈ es, ∀ (price : UsageAggregate.Pricing) (acc : UsageAggregate) (before : ℤ),
    (∀ id ∈ e.eventId, id ∉ acc.seenEventIds) →
    (acc.addEvent price e before).totalTokens = wrap64 (acc.totalTokens + e.counts.total)
  window : ∀ ms ⊆ es, ∀ (price : UsageAggregate.Pricing) (before : TokenEvent → ℤ)
    (w : TumblingWindows) (e : TokenEvent),
    (fire price before w ms e).totalTokens =
        wrap64 (categories (fire price before w ms e)).total ∧
      ((windowEvents w ms e).length < 2 ^ 32 →
        (fire price before w ms e).totalTokens = (categories (fire price before w ms e)).total)

theorem isLong_sum {f : TokenEvent → ℤ} {es : List TokenEvent}
    (h : ∀ e ∈ es, |f e| ≤ (2 ^ 31 : ℕ)) (hlength : es.length < 2 ^ 32) :
    isLong (es.map f).sum := by
  have hsum : ∀ l : List TokenEvent, (∀ e ∈ l, |f e| ≤ (2 ^ 31 : ℕ)) →
      |(l.map f).sum| ≤ l.length * (2 ^ 31 : ℕ) := by
    intro l hl
    induction l with
    | nil => simp
    | cons e l ih =>
      obtain ⟨he, hrest⟩ := List.forall_mem_cons.mp hl
      have htail := ih hrest
      rw [abs_le] at he htail ⊢
      rw [List.map_cons, List.sum_cons, List.length_cons]
      push_cast at he htail ⊢
      constructor <;> linarith [he.1, he.2, htail.1, htail.2]
  have hbound := abs_le.mp (hsum es h)
  unfold isLong
  omega

section Window
variable {price : UsageAggregate.Pricing} {before : TokenEvent → ℤ} {w : TumblingWindows}
  {ms : List TokenEvent} {e : TokenEvent}

/-- The category counters of a window hold the sums of the counts. -/
theorem categories_fire (price : UsageAggregate.Pricing) (before : TokenEvent → ℤ)
    (w : TumblingWindows) (ms : List TokenEvent) (e : TokenEvent) :
    categories (fire price before w ms e) =
      let sum := fun f : TokenEvent → ℤ => wrap64 ((windowEvents w ms e).map f).sum
      ⟨sum TokenEvent.inputTokens, sum TokenEvent.outputTokens, sum TokenEvent.cacheReadTokens,
        sum TokenEvent.cacheWriteTokens, sum TokenEvent.reasoningTokens,
        sum TokenEvent.embeddingTokens⟩ := by
  have hinput : Counter price before UsageAggregate.inputTokens TokenEvent.inputTokens :=
    ⟨fun _ _ _ => rfl, fun _ _ => rfl, fun _ _ _ _ _ _ => rfl, rfl⟩
  have houtput : Counter price before UsageAggregate.outputTokens TokenEvent.outputTokens :=
    ⟨fun _ _ _ => rfl, fun _ _ => rfl, fun _ _ _ _ _ _ => rfl, rfl⟩
  have hread : Counter price before UsageAggregate.cacheReadTokens TokenEvent.cacheReadTokens :=
    ⟨fun _ _ _ => rfl, fun _ _ => rfl, fun _ _ _ _ _ _ => rfl, rfl⟩
  have hwrite : Counter price before UsageAggregate.cacheWriteTokens TokenEvent.cacheWriteTokens :=
    ⟨fun _ _ _ => rfl, fun _ _ => rfl, fun _ _ _ _ _ _ => rfl, rfl⟩
  have hreasoning : Counter price before UsageAggregate.reasoningTokens
      TokenEvent.reasoningTokens :=
    ⟨fun _ _ _ => rfl, fun _ _ => rfl, fun _ _ _ _ _ _ => rfl, rfl⟩
  have hembedding : Counter price before UsageAggregate.embeddingTokens
      TokenEvent.embeddingTokens :=
    ⟨fun _ _ _ => rfl, fun _ _ => rfl, fun _ _ _ _ _ _ => rfl, rfl⟩
  unfold categories
  rw [hinput.fire, houtput.fire, hread.fire, hwrite.fire, hreasoning.fire, hembedding.fire]

theorem sum_counts (l : List TokenEvent) : (l.map fun x => x.counts.total).sum =
    (l.map TokenEvent.inputTokens).sum + (l.map TokenEvent.outputTokens).sum +
      (l.map TokenEvent.cacheReadTokens).sum + (l.map TokenEvent.cacheWriteTokens).sum +
      (l.map TokenEvent.reasoningTokens).sum + (l.map TokenEvent.embeddingTokens).sum := by
  simp only [← List.sum_map_add]
  rfl

theorem wrap64_modEq (x : ℤ) : Int.ModEq (2 ^ 64) (wrap64 x) x := by
  unfold wrap64 Int.ModEq
  omega

private theorem wrap64_eq_of_modEq {x y : ℤ} (h : Int.ModEq (2 ^ 64) x y) : wrap64 x = wrap64 y := by
  unfold wrap64
  rw [(h.add_right (2 ^ 63)).eq]

theorem fire_totalTokens (htotal : ∀ x ∈ ms, x.getTotalTokens = x.counts.total) :
    (fire price before w ms e).totalTokens =
      wrap64 ((windowEvents w ms e).map fun x => x.counts.total).sum := by
  rw [(fire_sums price before w ms e).total]
  congr 2
  apply List.map_congr_left
  exact fun x hx => htotal x (mem_of_windowEvents hx)

theorem fire_categories (htotal : ∀ x ∈ ms, x.getTotalTokens = x.counts.total) :
    (fire price before w ms e).totalTokens =
      wrap64 (categories (fire price before w ms e)).total := by
  rw [fire_totalTokens htotal, sum_counts, categories_fire]
  unfold TokenCounts.total
  dsimp only
  apply wrap64_eq_of_modEq
  exact ((((((wrap64_modEq _).add (wrap64_modEq _)).add (wrap64_modEq _)).add
    (wrap64_modEq _)).add (wrap64_modEq _)).add (wrap64_modEq _)).symm

theorem fire_categories_exact (htotal : ∀ x ∈ ms, isInt x.counts.total)
    (hint : ∀ x ∈ ms, IntCounts x.counts) (hlength : (windowEvents w ms e).length < 2 ^ 32) :
    (fire price before w ms e).totalTokens = (categories (fire price before w ms e)).total := by
  have hwrap : ∀ f : TokenEvent → ℤ, (∀ x ∈ ms, |f x| ≤ (2 ^ 31 : ℕ)) →
      wrap64 ((windowEvents w ms e).map f).sum = ((windowEvents w ms e).map f).sum :=
    fun f hf => (wrap64_eq_self_iff _).mpr
      (isLong_sum (fun x hx => hf x (mem_of_windowEvents hx)) hlength)
  have habs : ∀ x ∈ ms, |x.counts.total| ≤ (2 ^ 31 : ℕ) := by
    intro x hx
    obtain ⟨hlow, hhigh⟩ := htotal x hx
    rw [abs_le]
    push_cast
    constructor <;> linarith
  rw [fire_totalTokens fun x hx => (getTotalTokens_iff x).mpr (htotal x hx), hwrap _ habs,
    sum_counts, categories_fire]
  unfold TokenCounts.total
  dsimp only
  rw [hwrap TokenEvent.inputTokens fun x hx => (hint x hx).input,
    hwrap TokenEvent.outputTokens fun x hx => (hint x hx).output,
    hwrap TokenEvent.cacheReadTokens fun x hx => (hint x hx).cacheRead,
    hwrap TokenEvent.cacheWriteTokens fun x hx => (hint x hx).cacheWrite,
    hwrap TokenEvent.reasoningTokens fun x hx => (hint x hx).reasoning,
    hwrap TokenEvent.embeddingTokens fun x hx => (hint x hx).embedding]

end Window

private theorem event_totalTokens (e : TokenEvent) (price : UsageAggregate.Pricing)
    (acc : UsageAggregate)
    (before : ℤ) (hnew : ∀ id ∈ e.eventId, id ∉ acc.seenEventIds) :
    (acc.addEvent price e before).totalTokens = wrap64 (acc.totalTokens + e.getTotalTokens) := by
  unfold UsageAggregate.addEvent
  split
  · rename_i id hid
    rw [if_neg (hnew id hid)]
    rfl
  · rfl

private theorem package_totalTokens (P : Projection) (s : Keyspace) (e : TokenEvent) (before : ℤ)
    (clock : String) (hfresh : s.projected (P.projectionKey e.eventId) = false) :
    packageCells (P.apply s e before clock).1.usage (P.keys e).package =
      drawCells (packageCells s.usage (P.keys e).package) e.getTotalTokens := by
  have hend : endOf (P.keys e).package = endOf ":tokens_remaining" := packageKey_end _ _
  have hcells := @PackageStep.cells_run P (fun _ => before) s _ hend (.sink (.event e clock))
  have hdraws : PackageStep.draws P s (P.keys e).package (.sink (.event e clock)) = some e :=
    if_pos ⟨rfl, hfresh⟩
  rw [hdraws] at hcells
  exact hcells

/-- The totals of the admitted events add up exactly where the six counts of each event that the job
can read sum to an `int`. -/
theorem token_totals_iff (py : Python) (T : JsonText) (D : Databind) (clock : ℤ)
    (admissions : List Admission) :
    TotalsAdd (decodedEvents py T D clock admissions) ↔
      ∀ a ∈ admissions, a.Readable py T → isInt a.event.counts.total := by
  constructor
  · intro h a ha hreadable
    obtain ⟨e, hdecoded⟩ := Admission.decoded_of_readable D clock hreadable
    rw [← (Admission.decoded_iff e hdecoded).2, ← getTotalTokens_iff]
    exact h.total e (List.mem_filterMap.mpr ⟨a, ha, hdecoded⟩)
  · intro h
    have hadmitted : ∀ e ∈ decodedEvents py T D clock admissions,
        isInt e.counts.total ∧ IntCounts e.counts := by
      intro e he
      obtain ⟨a, ha, hdecoded⟩ := List.mem_filterMap.mp he
      obtain ⟨hreadable, hcounts⟩ := Admission.decoded_iff e hdecoded
      rw [hcounts]
      exact ⟨h a ha hreadable, hreadable.intCounts⟩
    have htotal : ∀ e ∈ decodedEvents py T D clock admissions,
        e.getTotalTokens = e.counts.total :=
      fun e he => (getTotalTokens_iff e).mpr (hadmitted e he).1
    constructor
    case total => exact htotal
    case meter =>
      intro e he m
      rw [← htotal e he]
      rfl
    case package =>
      intro e he P s before now hfresh
      rw [package_totalTokens P s e before now hfresh, htotal e he]
    case event =>
      intro e he price acc before hnew
      rw [event_totalTokens e price acc before hnew, htotal e he]
    case window =>
      intro ms hms price before w e
      exact ⟨fire_categories fun x hx => htotal x (hms hx),
        fire_categories_exact (fun x hx => (hadmitted x (hms hx)).1)
          fun x hx => (hadmitted x (hms hx)).2⟩

/-- An admission of a full `int` of input tokens and one output token. -/
def fullInput : Admission :=
  let a := Admission.inputOnly (2 ^ 31 - 1)
  { a with event := { a.event with outputTokens := 1 } }

/-- The total of an admitted event of 2^31 tokens is -2^31, and its package gains as many tokens. -/
theorem not_totals_add :
    ∃ e, decodedEvents .ofEventId .tree .fieldwise 0 [fullInput] = [e] ∧
      e.counts.total = 2 ^ 31 ∧ e.getTotalTokens = -(2 ^ 31) ∧
      packageCells (flatProjection.apply prepaid e 0 "1000").1.usage
        (packageKey (some "t") "acme") = (some (20 + 2 ^ 31), none) ∧
      ¬ TotalsAdd (decodedEvents .ofEventId .tree .fieldwise 0 [fullInput]) := by
  have hdecoded : decodedEvents .ofEventId .tree .fieldwise 0 [fullInput] =
      [{ usedTokens (2 ^ 31 - 1) with outputTokens := 1 }] := by decide +kernel
  refine ⟨_, hdecoded, by decide, by decide, by decide +kernel, fun h => ?_⟩
  rw [hdecoded] at h
  have htotal := h.total _ List.mem_cons_self
  revert htotal
  decide

end FluxMeter.Usage
