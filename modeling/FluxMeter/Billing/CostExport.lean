import FluxMeter.Billing.BillingExport
import FluxMeter.Pricing.PricingLoader
import Mathlib.Algebra.Order.Ring.Abs
import Mathlib.Tactic.Linarith
import Mathlib.Tactic.Ring

/-! `billing_export.py` in cost mode with Stripe as the only target. A cycle reports the growth of
the lifetime cost since the watermark, rounded to cents, and moves the watermark to the exact cost:
the fraction of a cent that it rounds off is not carried to the next cycle. -/
namespace FluxMeter.Billing
open FluxMeter.Pricing.Loader (pyRound)

/-- The watermark `last_reported_cost_usd` and the cents that Stripe's meter has accepted. -/
structure CostBooks where
  lastReportedCostUsd : ℚ := 0
  stripe : ℤ := 0
  deriving DecidableEq

/-- A cycle: the lifetime cost that it reads and what the attempts to report do. -/
structure CostCycle where
  totalCostUsd : ℚ
  stripe : ℕ → StripeAttempt := fun _ => .done

/-- `new_cost_usd` of `collect_customer_usage`. -/
def newCostUsd (watermark cost : ℚ) : ℚ := max 0 (cost - watermark)

/-- `export_value` in cost mode. -/
def exportValue (newCost : ℚ) : ℤ := pyRound (newCost * 100)

/-- `export_customer_to_targets` in cost mode: the books, and whether something was reported. -/
def exportCost (s : CostBooks) (c : CostCycle) : CostBooks × Bool :=
  let newCost := newCostUsd s.lastReportedCostUsd c.totalCostUsd
  if newCost ≤ 0 then (s, false)
  else
    let value := exportValue newCost
    if 0 < value then
      let (created, returns) := stripeRetry c.stripe 0 3
      let sent := { s with stripe := s.stripe + created * value }
      -- `mark_customer_reported`
      (if returns then { sent with lastReportedCostUsd := c.totalCostUsd } else sent, returns)
    else (s, false)

/-- The report of the cycle returns, and Stripe has accepted it once. -/
def CostCycle.Succeeds (c : CostCycle) : Prop := stripeRetry c.stripe 0 3 = (1, true)

instance (c : CostCycle) : Decidable c.Succeeds := inferInstanceAs (Decidable (_ = _))

/-- After each cycle in which something was reported, the cents reported ever are at most half a
cent from the lifetime cost. -/
def NoDrift (s : CostBooks) : List CostCycle → Prop
  | [] => True
  | c :: cycles =>
    let (s', reported) := exportCost s c
    (reported = true → |(s'.stripe : ℚ) - 100 * c.totalCostUsd| ≤ 1 / 2) ∧ NoDrift s' cycles

/-! ### The fractions that are rounded off -/

/-- The fraction of a cent by which an amount differs from its rounding. -/
def centsFraction (usd : ℚ) : ℚ := usd * 100 - pyRound (usd * 100)

/-- The growths of a sequence of lifetime costs that reach a cent: each since the cost at the one
before. -/
def growths : ℚ → List ℚ → List ℚ
  | _, [] => []
  | watermark, cost :: costs =>
    if 0 < exportValue (newCostUsd watermark cost) then
      newCostUsd watermark cost :: growths cost costs
    else growths watermark costs

private theorem pyRound_error (x : ℚ) : |(pyRound x : ℚ) - x| ≤ 1 / 2 := by
  have hlo := Int.floor_le x
  have hhi := Int.lt_floor_add_one x
  have hlo' := Int.floor_le (x + 1 / 2)
  have hhi' := Int.lt_floor_add_one (x + 1 / 2)
  unfold pyRound Binary64.nearestEven
  split_ifs with hhalf
  · have hparity : ⌊x⌋ % 2 = 0 ∨ ⌊x⌋ % 2 = 1 := Int.emod_two_eq_zero_or_one _
    rcases hparity with heven | hodd
    · rw [heven, add_zero, abs_le]
      constructor <;> linarith
    · rw [hodd, abs_le]
      push_cast
      constructor <;> linarith
  · rw [abs_le]
    constructor <;> linarith

theorem centsFraction_le (usd : ℚ) : |centsFraction usd| ≤ 1 / 2 := by
  unfold centsFraction
  rw [abs_sub_comm]
  exact pyRound_error (usd * 100)

private theorem exportValue_zero : exportValue 0 = 0 := by decide +kernel

private theorem newCostUsd_nonneg (watermark cost : ℚ) :
    0 ≤ newCostUsd watermark cost := le_max_left _ _

/-- A growth that is reported is the difference of the costs. -/
theorem newCostUsd_of_reported {watermark cost : ℚ}
    (h : 0 < exportValue (newCostUsd watermark cost)) :
    0 < newCostUsd watermark cost ∧ newCostUsd watermark cost = cost - watermark := by
  have hpos : 0 < newCostUsd watermark cost := by
    refine lt_of_le_of_ne (newCostUsd_nonneg watermark cost) fun hzero => ?_
    rw [← hzero, exportValue_zero] at h
    exact absurd h (lt_irrefl 0)
  refine ⟨hpos, ?_⟩
  unfold newCostUsd at hpos ⊢
  rcases lt_max_iff.mp hpos with hnever | hgrowth
  · exact absurd hnever (lt_irrefl 0)
  · exact max_eq_right hgrowth.le

/-! ### One cycle -/

/-- What the roundings so far have left out of the reports. -/
def CostBooks.carry (s : CostBooks) : ℚ := 100 * s.lastReportedCostUsd - s.stripe

theorem carry_start : ({} : CostBooks).carry = 0 := by decide +kernel

section Cycle
variable {s : CostBooks} {c : CostCycle}

theorem exportCost_silent
    (h : ¬ 0 < exportValue (newCostUsd s.lastReportedCostUsd c.totalCostUsd)) :
    exportCost s c = (s, false) := by
  unfold exportCost
  dsimp only
  rw [if_neg h, ite_self]

theorem exportCost_reports (hsucceeds : c.Succeeds)
    (h : 0 < exportValue (newCostUsd s.lastReportedCostUsd c.totalCostUsd)) :
    exportCost s c =
      ({ lastReportedCostUsd := c.totalCostUsd
         stripe := s.stripe + exportValue (newCostUsd s.lastReportedCostUsd c.totalCostUsd) },
        true) := by
  obtain ⟨hpos, -⟩ := newCostUsd_of_reported h
  unfold CostCycle.Succeeds at hsucceeds
  unfold exportCost
  dsimp only
  rw [if_neg (not_le.mpr hpos), if_pos h, hsucceeds]
  dsimp only
  rw [if_pos rfl, Nat.cast_one, one_mul]

/-- A cycle that reports adds the fraction of its growth to the carry. -/
theorem carry_exportCost (hsucceeds : c.Succeeds)
    (h : 0 < exportValue (newCostUsd s.lastReportedCostUsd c.totalCostUsd)) :
    (exportCost s c).1.carry =
      s.carry + centsFraction (newCostUsd s.lastReportedCostUsd c.totalCostUsd) := by
  obtain ⟨-, hgrowth⟩ := newCostUsd_of_reported h
  rw [exportCost_reports hsucceeds h]
  unfold CostBooks.carry centsFraction exportValue
  rw [hgrowth]
  push_cast
  ring

end Cycle

/-! ### A run -/

/-- The carry after every number of reports is at most half a cent. -/
def Balanced (carry : ℚ) (growths : List ℚ) : Prop :=
  ∀ first, first <+: growths → first ≠ [] → |carry + (first.map centsFraction).sum| ≤ 1 / 2

private theorem balanced_nil (carry : ℚ) : Balanced carry [] := by
  intro first hfirst hne
  exact absurd (List.prefix_nil.mp hfirst) hne

private theorem balanced_cons (carry growth : ℚ) (growths : List ℚ) :
    Balanced carry (growth :: growths) ↔
      |carry + centsFraction growth| ≤ 1 / 2 ∧
        Balanced (carry + centsFraction growth) growths := by
  constructor
  · intro h
    refine ⟨?_, fun first hfirst _ => ?_⟩
    · have hone := h [growth] (List.prefix_append [growth] growths) (List.cons_ne_nil _ _)
      rwa [List.map_singleton, List.sum_singleton] at hone
    · have hmore := h (growth :: first) ((List.prefix_cons_inj growth).mpr hfirst)
        (List.cons_ne_nil _ _)
      rwa [List.map_cons, List.sum_cons, ← add_assoc] at hmore
  · rintro ⟨hone, hmore⟩ first hfirst hne
    obtain ⟨g, rest, rfl⟩ := List.exists_cons_of_ne_nil hne
    obtain ⟨rfl, hrest⟩ := List.cons_prefix_cons.mp hfirst
    rw [List.map_cons, List.sum_cons, ← add_assoc]
    by_cases hnil : rest = []
    · rw [hnil, List.map_nil, List.sum_nil, add_zero]
      exact hone
    · exact hmore rest hrest hnil

theorem noDrift_iff (s : CostBooks) {cycles : List CostCycle}
    (hsucceeds : ∀ c ∈ cycles, c.Succeeds) :
    NoDrift s cycles ↔
      Balanced s.carry (growths s.lastReportedCostUsd (cycles.map CostCycle.totalCostUsd)) := by
  induction cycles generalizing s with
  | nil => exact iff_of_true trivial (balanced_nil s.carry)
  | cons c cycles ih =>
    obtain ⟨hc, hrest⟩ := List.forall_mem_cons.mp hsucceeds
    rw [List.map_cons, growths]
    unfold NoDrift
    by_cases h : 0 < exportValue (newCostUsd s.lastReportedCostUsd c.totalCostUsd)
    · have hcarry := carry_exportCost hc h
      rw [if_pos h, balanced_cons, ← hcarry, exportCost_reports hc h]
      dsimp only
      rw [ih _ hrest]
      unfold CostBooks.carry
      dsimp only
      rw [abs_sub_comm]
      exact and_congr_left fun _ => forall_prop_of_true rfl
    · rw [if_neg h, exportCost_silent h]
      dsimp only
      rw [ih s hrest]
      exact and_iff_right fun hreported => absurd hreported Bool.false_ne_true

def exportCostAll (s : CostBooks) (cycles : List CostCycle) : CostBooks :=
  cycles.foldl (fun s c => (exportCost s c).1) s

private theorem carry_exportCostAll (s : CostBooks) {cycles : List CostCycle}
    (hsucceeds : ∀ c ∈ cycles, c.Succeeds) :
    (exportCostAll s cycles).carry = s.carry +
      ((growths s.lastReportedCostUsd (cycles.map CostCycle.totalCostUsd)).map
        centsFraction).sum := by
  induction cycles generalizing s with
  | nil => exact (add_zero s.carry).symm
  | cons c cycles ih =>
    obtain ⟨hc, hrest⟩ := List.forall_mem_cons.mp hsucceeds
    have hstep : exportCostAll s (c :: cycles) = exportCostAll (exportCost s c).1 cycles := rfl
    rw [hstep, ih _ hrest, List.map_cons, growths]
    by_cases h : 0 < exportValue (newCostUsd s.lastReportedCostUsd c.totalCostUsd)
    · rw [if_pos h, carry_exportCost hc h, exportCost_reports hc h, List.map_cons, List.sum_cons,
        add_assoc]
    · rw [if_neg h, exportCost_silent h]

private theorem abs_sum_fractions_le (growths : List ℚ) :
    |(growths.map centsFraction).sum| ≤ growths.length / 2 := by
  induction growths with
  | nil => norm_num
  | cons g growths ih =>
    have hone := centsFraction_le g
    have htriangle := abs_add_le (centsFraction g) (growths.map centsFraction).sum
    rw [List.map_cons, List.sum_cons, List.length_cons]
    push_cast
    linarith

/-- In general the books drift by at most half a cent for each report. -/
theorem drift_le {cycles : List CostCycle} (hsucceeds : ∀ c ∈ cycles, c.Succeeds) :
    |100 * (exportCostAll {} cycles).lastReportedCostUsd - (exportCostAll {} cycles).stripe| ≤
      (growths 0 (cycles.map CostCycle.totalCostUsd)).length / 2 := by
  have hrun := carry_exportCostAll {} hsucceeds
  rw [carry_start, zero_add] at hrun
  unfold CostBooks.carry at hrun
  rw [hrun]
  exact abs_sum_fractions_le _

/-- From the first export on, cost mode does not drift iff the fractions of a cent that are rounded
off the reported growths never add up to more than half a cent. -/
theorem cost_export_noDrift_iff {cycles : List CostCycle} (hsucceeds : ∀ c ∈ cycles, c.Succeeds) :
    NoDrift {} cycles ↔
      ∀ first, first <+: growths 0 (cycles.map CostCycle.totalCostUsd) →
        |(first.map centsFraction).sum| ≤ 1 / 2 := by
  rw [noDrift_iff {} hsucceeds, carry_start]
  unfold Balanced
  constructor
  · intro h first hfirst
    by_cases hnil : first = []
    · rw [hnil, List.map_nil, List.sum_nil, abs_zero]
      norm_num
    · have hsum := h first hfirst hnil
      rwa [zero_add] at hsum
  · intro h first hfirst _
    rw [zero_add]
    exact h first hfirst

/-- The cost grows by six tenths of a cent and then by fourteen. -/
theorem cost_export_noDrift_twoCents :
    NoDrift {} [{ totalCostUsd := 6 / 1000 }, { totalCostUsd := 20 / 1000 }] := by
  have hgrowths : growths 0 [6 / 1000, 20 / 1000] = [6 / 1000, 14 / 1000] := by decide +kernel
  refine (cost_export_noDrift_iff (by decide)).mpr ?_
  intro first hfirst
  rw [List.map_cons, List.map_cons, List.map_nil, hgrowths] at hfirst
  rcases List.prefix_cons_iff.mp hfirst with rfl | ⟨rest, rfl, hrest⟩
  · decide +kernel
  · rcases List.prefix_cons_iff.mp hrest with rfl | ⟨last, rfl, hlast⟩
    · decide +kernel
    · rw [List.prefix_nil.mp hlast]
      decide +kernel

/-- After two growths of six tenths of a cent two cents are reported for one and a fifth. -/
theorem cost_export_drifts :
    let cycles : List CostCycle := [{ totalCostUsd := 6 / 1000 }, { totalCostUsd := 12 / 1000 }]
    (exportCostAll {} cycles).stripe = 2 ∧
      100 * (exportCostAll {} cycles).lastReportedCostUsd = 12 / 10 ∧ ¬ NoDrift {} cycles := by
  refine ⟨by decide +kernel, by decide +kernel, fun h => ?_⟩
  have hgrowths : growths 0 [6 / 1000, 12 / 1000] = [6 / 1000, 6 / 1000] := by decide +kernel
  have hbalanced := (noDrift_iff {} (by decide)).mp h
  rw [carry_start] at hbalanced
  have hboth := hbalanced [6 / 1000, 6 / 1000] (by rw [← hgrowths]; exact List.prefix_rfl)
    (List.cons_ne_nil _ _)
  revert hboth
  decide +kernel

end FluxMeter.Billing
