import FluxMeter.Intelligence.MonthFigures
import Mathlib.Algebra.BigOperators.Ring.List
import Mathlib.Tactic.FieldSimp

/-! What a root cause report says changed, after a run of the sinks: its contributors have the amounts
that were written for them, none with a greater change is left out, and the customers account for the
whole change. -/
namespace FluxMeter.Intelligence
open FluxMeter.Api.IntelAlerts FluxMeter.Budget FluxMeter.Keys FluxMeter.Model FluxMeter.Usage
  FluxMeter.Usage.PeriodReader Collections Collections.Glob

/-! ### The contributors of two tables -/

section Build
variable {walk : List String → List String} {current baseline : Table String ℚ} {totalDelta : ℚ}
  {dimension : String}

theorem mem_unionKeys (hwalk : ∀ l, (walk l).Perm l) {key : String} :
    key ∈ unionKeys walk current baseline ↔ current.get key ≠ none ∨ baseline.get key ≠ none := by
  unfold unionKeys
  rw [(hwalk _).mem_iff, List.mem_union_iff, Table.mem_keys, Table.mem_keys]

private theorem nodup_unionKeys (hwalk : ∀ l, (walk l).Perm l) :
    (unionKeys walk current baseline).Nodup :=
  (hwalk _).nodup_iff.mpr (List.Nodup.union _ baseline.nodup)

theorem mem_buildContributors (hwalk : ∀ l, (walk l).Perm l) {c : Contributor} :
    c ∈ buildContributors walk dimension current baseline totalDelta ↔
      ∃ key, (current.get key ≠ none ∨ baseline.get key ≠ none) ∧
        c = contributorOf dimension totalDelta key (current.get key) (baseline.get key) := by
  unfold buildContributors
  rw [List.mem_map]
  constructor
  · rintro ⟨key, hkey, rfl⟩
    exact ⟨key, (mem_unionKeys hwalk).mp hkey, rfl⟩
  · rintro ⟨key, hkey, rfl⟩
    exact ⟨key, (mem_unionKeys hwalk).mpr hkey, rfl⟩

private theorem sum_deltas (hwalk : ∀ l, (walk l).Perm l) :
    ((buildContributors walk dimension current baseline totalDelta).map Contributor.deltaUsd).sum =
      total current - total baseline := by
  have hnodup := @nodup_unionKeys walk current baseline hwalk
  have hcurrent := current.sum_getD hnodup fun key h => (mem_unionKeys hwalk).mpr (Or.inl h)
  have hbaseline := baseline.sum_getD hnodup fun key h => (mem_unionKeys hwalk).mpr (Or.inr h)
  unfold buildContributors total
  rw [← hcurrent, ← hbaseline, List.map_map]
  refine eq_sub_of_add_eq (List.sum_map_add.symm.trans ?_)
  exact congrArg List.sum (List.map_congr_left fun key _ => sub_add_cancel _ _)

theorem sum_shares (hwalk : ∀ l, (walk l).Perm l)
    (htotal : totalDelta = total current - total baseline) (hne : totalDelta ≠ 0) :
    ((buildContributors walk dimension current baseline totalDelta).map
      Contributor.shareOfTotalDeltaPct).sum = 100 := by
  have hshare : ∀ c ∈ buildContributors walk dimension current baseline totalDelta,
      c.shareOfTotalDeltaPct = c.deltaUsd * (100 / totalDelta) := by
    intro c hc
    obtain ⟨key, -, rfl⟩ := (mem_buildContributors hwalk).mp hc
    unfold contributorOf shareOfTotal
    dsimp only
    rw [if_pos hne, div_mul_eq_mul_div, mul_div_assoc]
  rw [List.map_congr_left hshare, List.sum_map_mul_right, sum_deltas hwalk, ← htotal]
  field_simp

end Build

/-! ### Where a contributor comes from -/

inductive Source
  | model
  | customer
  | dim (dimKey : String)
  deriving DecidableEq

namespace Source

def label : Source → String
  | .model => "model"
  | .customer => "customer"
  | .dim dimKey => dimKey

def all (allowedDims : List String) : List Source :=
  .model :: .customer :: allowedDims.map .dim

def costs (r : Reads) (customerId : Option String) (period : String) : Source → Table String ℚ
  | .model => r.modelCosts customerId period
  | .customer => r.scopedCosts customerId period
  | .dim dimKey => r.dimCosts dimKey period

/-- What the sinks wrote for a key of the source in a month. -/
def written (P : Projection) (before : TokenEvent → ℤ) (s : Keyspace) (steps : List SinkStep)
    (scope : Option String) (p key : String) : Source → Option ℚ
  | .model => tally none ((modelEvents P before s steps scope key p).map (eventCost P before))
  | .customer =>
    if ∀ c ∈ scope, key = c then tally none (customerCharges P before s steps key p) else none
  | .dim dimKey => (tally none (dimCharges P before s steps dimKey key p)).filter (0 < ·)

def patterns (customerId : Option String) (p : String) : Source → List String
  | .model => [modelPattern customerId p]
  | .customer => [customerPattern p]
  | .dim dimKey => [dimPattern dimKey p]

end Source

theorem allContributors_eq (r : Reads) (allowedDims : List String) (customerId : Option String)
    (period baselinePeriod : String) (totalDelta : ℚ) :
    allContributors r allowedDims customerId period baselinePeriod totalDelta =
      (Source.all allowedDims).flatMap fun src => buildContributors r.walk src.label
        (src.costs r customerId period) (src.costs r customerId baselinePeriod) totalDelta := by
  unfold allContributors Source.all
  rw [List.flatMap_cons, List.flatMap_cons, List.flatMap_map, List.append_assoc]
  rfl

section Run
variable {P : Projection} {before : TokenEvent → ℤ} {s : Keyspace} {steps : List SinkStep}

/-- Each source reads what was written for its keys. -/
theorem costs_run (hs : Untouched s) (hfired : ∀ a ∈ steps, a.Fired)
    (hplain : ∀ a ∈ steps, a.Plain P) {r : Reads} (hr : r.s = runSinks P before s steps)
    {customerId : Option String} (hscope : ∀ c ∈ restriction customerId, Literal c ∧ NoColon c)
    {allowedDims : List String} (hdims : ∀ k ∈ allowedDims, Literal k ∧ NoColon k) {src : Source}
    (hsrc : src ∈ Source.all allowedDims) {t : ℤ}
    (hscan : r.Complete (src.patterns customerId (monthUtc t))) (key : String) :
    (src.costs r customerId (monthUtc t)).get key =
      src.written P before s steps (restriction customerId) (monthUtc t) key := by
  have hreads := period_reads_written P before hs hfired hplain t
  cases src with
  | model =>
    obtain ⟨hscans, hnodup⟩ := hscan _ List.mem_cons_self
    show (listModelPeriodCosts r.s _).get key = _
    rw [hr] at hscans ⊢
    exact hreads.models customerId _ hscope hscans hnodup key
  | customer => exact scopedCosts_run hs hfired hplain hr hscan customerId key
  | dim dimKey =>
    have hmem : dimKey ∈ allowedDims := by
      unfold Source.all at hsrc
      simpa using hsrc
    obtain ⟨hliteral, hcolon⟩ := hdims dimKey hmem
    obtain ⟨hscans, -⟩ := hscan _ List.mem_cons_self
    show (listDimPeriodCosts r.s _).get key = _
    rw [hr] at hscans ⊢
    exact hreads.dims dimKey _ hliteral hcolon hscans key

/-- The contributor of a key with what was written for it in the two months. -/
def contributorFor (P : Projection) (before : TokenEvent → ℤ) (s : Keyspace) (steps : List SinkStep)
    (scope : Option String) (p baseline : String) (totalDelta : ℚ) (src : Source) (key : String) :
    Contributor :=
  contributorOf src.label totalDelta key (src.written P before s steps scope p key)
    (src.written P before s steps scope baseline key)

/-- Something was written for a key in one of two months. -/
def Billed (P : Projection) (before : TokenEvent → ℤ) (s : Keyspace) (steps : List SinkStep)
    (scope : Option String) (p baseline : String) (src : Source) (key : String) : Prop :=
  src.written P before s steps scope p key ≠ none ∨
    src.written P before s steps scope baseline key ≠ none

/-- A report of the change from one month to another says what the sinks wrote in them. -/
structure Explains (P : Projection) (before : TokenEvent → ℤ) (s : Keyspace)
    (steps : List SinkStep) (scope : Option String) (allowedDims : List String)
    (p baseline : String) (report : RootCauseReport) : Prop where
  delta : report.deltaUsd =
    charged P before s steps scope p - charged P before s steps scope baseline
  atMost : report.contributors.length ≤ 10
  ordered : report.contributors.Pairwise fun c c' => |c'.deltaUsd| ≤ |c.deltaUsd|
  written : ∀ c ∈ report.contributors, ∃ src ∈ Source.all allowedDims, ∃ key,
    Billed P before s steps scope p baseline src key ∧
      c = contributorFor P before s steps scope p baseline report.deltaUsd src key
  greatest : ∀ src ∈ Source.all allowedDims, ∀ key,
    Billed P before s steps scope p baseline src key →
    contributorFor P before s steps scope p baseline report.deltaUsd src key ∈
        report.contributors ∨
      report.contributors.length = 10 ∧ ∀ c ∈ report.contributors,
        |(contributorFor P before s steps scope p baseline report.deltaUsd src key).deltaUsd| ≤
          |c.deltaUsd|
  shares : report.deltaUsd ≠ 0 → report.contributors.length < 10 → "customer" ∉ allowedDims →
    ((report.contributors.filter fun c => c.dimension = "customer").map
      Contributor.shareOfTotalDeltaPct).sum = 100

theorem mem_allContributors {r : Reads} (hwalk : ∀ l, (r.walk l).Perm l) {allowedDims : List String}
    {customerId : Option String} {p baseline : String} {totalDelta : ℚ}
    (hcosts : ∀ src ∈ Source.all allowedDims, ∀ key,
      (src.costs r customerId p).get key =
          src.written P before s steps (restriction customerId) p key ∧
        (src.costs r customerId baseline).get key =
          src.written P before s steps (restriction customerId) baseline key) {c : Contributor} :
    c ∈ allContributors r allowedDims customerId p baseline totalDelta ↔
      ∃ src ∈ Source.all allowedDims, ∃ key,
        Billed P before s steps (restriction customerId) p baseline src key ∧
          c = contributorFor P before s steps (restriction customerId) p baseline totalDelta src
            key := by
  rw [allContributors_eq, List.mem_flatMap]
  refine exists_congr fun src => and_congr_right fun hsrc => ?_
  rw [mem_buildContributors hwalk]
  refine exists_congr fun key => ?_
  unfold Billed contributorFor
  rw [(hcosts src hsrc key).1, (hcosts src hsrc key).2]

private theorem filter_customers (r : Reads) (allowedDims : List String) (customerId : Option String)
    (p baseline : String) (totalDelta : ℚ) (hwalk : ∀ l, (r.walk l).Perm l)
    (hnot : "customer" ∉ allowedDims) :
    (allContributors r allowedDims customerId p baseline totalDelta).filter
        (fun c => c.dimension = "customer") =
      buildContributors r.walk "customer" (r.scopedCosts customerId p)
        (r.scopedCosts customerId baseline) totalDelta := by
  have hlabel : ∀ dimension (current baseline : Table String ℚ),
      ∀ c ∈ buildContributors r.walk dimension current baseline totalDelta,
        c.dimension = dimension := by
    intro dimension current baseline c hc
    obtain ⟨key, -, rfl⟩ := (mem_buildContributors hwalk).mp hc
    rfl
  have hother : ∀ (l : List Contributor), (∀ c ∈ l, c.dimension ≠ "customer") →
      l.filter (fun c => c.dimension = "customer") = [] := by
    intro l hl
    exact List.filter_eq_nil_iff.mpr fun c hc h => hl c hc (of_decide_eq_true h)
  have hmodel := hother (buildContributors r.walk "model" (r.modelCosts customerId p)
    (r.modelCosts customerId baseline) totalDelta) fun c hc => by
      rw [hlabel _ _ _ c hc]
      decide
  have hdims := hother (allowedDims.flatMap fun dimKey => buildContributors r.walk dimKey
    (r.dimCosts dimKey p) (r.dimCosts dimKey baseline) totalDelta) fun c hc => by
      obtain ⟨dimKey, hdim, hc⟩ := List.mem_flatMap.mp hc
      rw [hlabel _ _ _ c hc]
      exact fun h => hnot (h ▸ hdim)
  unfold allContributors
  rw [List.filter_append, List.filter_append, hmodel, hdims, List.nil_append, List.append_nil,
    List.filter_eq_self]
  exact fun c hc => decide_eq_true (hlabel _ _ _ c hc)

end Run

end FluxMeter.Intelligence
