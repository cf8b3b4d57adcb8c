import FluxMeter.Budget.BudgetEnforcerSink
import FluxMeter.Collections.Glob
import FluxMeter.Keys.ColonParts
import Mathlib.Tactic.Linarith

/-! `jobs/reconcile_balances.py`: every balance that the scan finds is compared with what the other
counters of the budget say, and for which stores the report is right. -/
namespace FluxMeter.Job.ReconcileBalances
open FluxMeter.Budget FluxMeter.Keys Collections.Glob

/-- An entry of `drifts`. -/
structure Drift where
  customerId : String
  balanceUsd : ℚ
  expectedUsd : ℚ
  driftUsd : ℚ
  debtUsd : ℚ
  deriving DecidableEq

structure Report where
  timestamp : ℤ
  customersScanned : ℕ
  driftCount : ℕ
  drifts : List Drift
  deriving DecidableEq

def balanceKey (k : BudgetKey) : String := k.render ++ ":balance_usd"

/-- The pattern of `scan_iter`. -/
def balancePattern : String := "budget:" ++ "*" ++ ":balance_usd"

def expected (row : BudgetRow) : ℚ :=
  number row.initialBalanceUsd + number row.totalTopupUsd - number row.totalDeductedUsd

/-- One turn of the loop: all but the balance is read under the customer that the key names. -/
def audit (r : Redis) (k : BudgetKey) : Option Drift :=
  let parts := colonParts (balanceKey k)
  if parts.length < 3 then none
  else
    let customerId := parts.getD 1 ""
    let row := r.budgets ⟨none, customerId⟩
    let balance := number (r.budgets k).balanceUsd
    some ⟨customerId, balance, expected row, balance - expected row, number row.debtUsd⟩

/-- The list `drifts` of the loop over the keys that were found. -/
def driftsOf (driftThreshold : ℚ) (r : Redis) (found : List BudgetKey) : List Drift :=
  (found.filterMap (audit r)).filter fun d => driftThreshold < |d.driftUsd|

/-- `reconcile_all`; the text under `reconciliation:last` is the report. -/
def reconcileAll (driftThreshold : ℚ) (r : Redis) (found : List BudgetKey) (now : ℤ) :
    Redis × Report :=
  let drifts := driftsOf driftThreshold r found
  (if drifts.isEmpty then r
    else { r with usage := r.usage.incrBy "metrics:reconciliation_drift" 1 },
    ⟨now, (found.filterMap (audit r)).length, drifts.length, drifts.take 100⟩)

/-- What the scan returns: the keys of balances that match, in any order and perhaps twice. -/
def Scanned (r : Redis) (found : List BudgetKey) : Prop :=
  ∀ k, k ∈ found ↔
    (r.budgets k).balanceUsd.isSome ∧ globMatch balancePattern (balanceKey k) = true

def moveBalance (r : Redis) (k : BudgetKey) (q : ℚ) : Redis :=
  r.setBudget k { r.budgets k with balanceUsd := incrByFloat (r.budgets k).balanceUsd q }

/-- No drift is reported; where a balance is changed by more than the threshold, its customer is. -/
structure Sound (driftThreshold : ℚ) (r : Redis) : Prop where
  quiet : ∀ found now, Scanned r found → (reconcileAll driftThreshold r found now).2.drifts = []
  tells : ∀ k q found now, (r.budgets k).balanceUsd.isSome → driftThreshold < |q| →
    Scanned (moveBalance r k q) found →
    k.customer ∈ (reconcileAll driftThreshold (moveBalance r k q) found now).2.drifts.map
      Drift.customerId

/-- A budget without a tenant, and without a colon in the customer. -/
structure PlainKey (k : BudgetKey) : Prop where
  tenant : k.tenant = none
  customer : NoColon k.customer

theorem PlainKey.eq {j k : BudgetKey} (hj : PlainKey j) (hk : PlainKey k)
    (h : j.customer = k.customer) : j = k := by
  obtain ⟨tenant, customer⟩ := j
  obtain ⟨tenant', customer'⟩ := k
  obtain rfl := hj.tenant
  obtain rfl := hk.tenant
  obtain rfl : customer = customer' := h
  rfl

instance (k : BudgetKey) : Decidable (PlainKey k) :=
  decidable_of_iff (k.tenant = none ∧ NoColon k.customer)
    ⟨fun ⟨h₁, h₂⟩ => ⟨h₁, h₂⟩, fun h => ⟨h.tenant, h.customer⟩⟩

/-- Every balance is under a plain key and is what the other counters say. -/
def Balanced (r : Redis) : Prop :=
  ∀ k p, (r.budgets k).balanceUsd = some p → PlainKey k ∧ p = expected (r.budgets k)

/-! ### The keys -/

section Keys
variable {k : BudgetKey}

theorem matches_iff : globMatch balancePattern (balanceKey k) = true ↔ k.tenant = none := by
  unfold balancePattern
  rw [globMatch_star (by decide) (by decide)]
  unfold balanceKey BudgetKey.render
  cases htenant : k.tenant with
  | none => exact ⟨fun _ => rfl, fun _ => ⟨k.customer, rfl⟩⟩
  | some t =>
    constructor
    · rintro ⟨x, hkey⟩
      -- the two keys start with different letters
      have hheads := congrArg (fun key : String => key.toList.head?) hkey
      simp [String.toList_append] at hheads
    · exact fun h => nomatch h

private theorem colonParts_plain (h : PlainKey k) :
    colonParts (balanceKey k) = ["budget", k.customer, "balance_usd"] := by
  have hkey : balanceKey k = "budget" ++ ":" ++ (k.customer ++ ":" ++ "balance_usd") := by
    unfold balanceKey BudgetKey.render
    rw [h.tenant]
    apply String.ext
    simp [String.toList_append]
  rw [hkey, colonParts_append (by decide), colonParts_append h.customer, colonParts_last (by decide)]

theorem audit_plain (r : Redis) (h : PlainKey k) :
    audit r k = some ⟨k.customer, number (r.budgets k).balanceUsd, expected (r.budgets k),
      number (r.budgets k).balanceUsd - expected (r.budgets k), number (r.budgets k).debtUsd⟩ := by
  have hkey : (⟨none, k.customer⟩ : BudgetKey) = k := by rw [← h.tenant]
  unfold audit
  rw [colonParts_plain h]
  simp [hkey]

theorem noColon_of_audit {r : Redis} {d : Drift} (h : audit r k = some d) : NoColon d.customerId := by
  unfold audit at h
  dsimp only at h
  split_ifs at h with hshort
  rw [← Option.some.inj h]
  dsimp only
  have hsecond : 1 < (colonParts (balanceKey k)).length := by omega
  rw [List.getD_eq_getElem?_getD, List.getElem?_eq_getElem hsecond, Option.getD_some]
  exact noColon_of_mem_colonParts (List.getElem_mem hsecond)

theorem audit_congr {r r' : Redis} (hk : (r'.budgets k).balanceUsd = (r.budgets k).balanceUsd)
    (hrows : ∀ d, audit r k = some d → r'.budgets ⟨none, d.customerId⟩ = r.budgets ⟨none, d.customerId⟩) :
    audit r' k = audit r k := by
  unfold audit at hrows ⊢
  dsimp only at hrows ⊢
  split_ifs with hshort
  · rfl
  · rw [if_neg hshort] at hrows
    rw [hk, hrows _ rfl]

end Keys

/-! ### The report -/

section Report
variable {driftThreshold : ℚ} {r : Redis} {found : List BudgetKey} {now : ℤ}

theorem mem_driftsOf {d : Drift} : d ∈ driftsOf driftThreshold r found ↔
    (∃ k ∈ found, audit r k = some d) ∧ driftThreshold < |d.driftUsd| := by
  unfold driftsOf
  rw [List.mem_filter, List.mem_filterMap, decide_eq_true_iff]

theorem drifts_nil_iff :
    (reconcileAll driftThreshold r found now).2.drifts = [] ↔
      ∀ k ∈ found, ∀ d, audit r k = some d → |d.driftUsd| ≤ driftThreshold := by
  have htake : (driftsOf driftThreshold r found).take 100 = [] ↔
      driftsOf driftThreshold r found = [] := by simp
  refine htake.trans (List.eq_nil_iff_forall_not_mem.trans ?_)
  constructor
  · intro h k hk d hd
    exact not_lt.mp fun hlt => h d (mem_driftsOf.mpr ⟨⟨k, hk, hd⟩, hlt⟩)
  · intro h d hd
    obtain ⟨⟨k, hk, haudit⟩, hlt⟩ := mem_driftsOf.mp hd
    exact absurd (h k hk d haudit) (not_le.mpr hlt)

theorem reported_of_only {c : String} (hne : driftsOf driftThreshold r found ≠ [])
    (honly : ∀ d ∈ driftsOf driftThreshold r found, d.customerId = c) :
    c ∈ (reconcileAll driftThreshold r found now).2.drifts.map Drift.customerId := by
  obtain ⟨d, rest, hlist⟩ := List.exists_cons_of_ne_nil hne
  have hfirst : d ∈ (driftsOf driftThreshold r found).take 100 := by
    rw [hlist, List.take_succ_cons]
    exact List.mem_cons_self
  exact List.mem_map.mpr ⟨d, hfirst, honly d (List.mem_of_mem_take hfirst)⟩

theorem drift_of_reported {c : String}
    (h : c ∈ (reconcileAll driftThreshold r found now).2.drifts.map Drift.customerId) :
    ∃ k ∈ found, ∃ d, audit r k = some d ∧ d.customerId = c ∧ driftThreshold < |d.driftUsd| := by
  obtain ⟨d, hd, hc⟩ := List.mem_map.mp h
  obtain ⟨⟨k, hk, haudit⟩, hlt⟩ := mem_driftsOf.mp (List.mem_of_mem_take hd)
  exact ⟨k, hk, d, haudit, hc, hlt⟩

theorem scanned_moveBalance {k : BudgetKey} (hk : (r.budgets k).balanceUsd.isSome) (q : ℚ) :
    Scanned (moveBalance r k q) found ↔ Scanned r found := by
  have hsame : ∀ j, ((moveBalance r k q).budgets j).balanceUsd.isSome =
      (r.budgets j).balanceUsd.isSome := by
    intro j
    unfold moveBalance
    by_cases hj : j = k
    · rw [hj, Redis.setBudget_self, hk]
      rfl
    · rw [Redis.setBudget_ne _ _ hj]
  unfold Scanned
  simp only [hsame]

end Report

/-! ### When the report is right -/

section Sound
variable {driftThreshold : ℚ} {r : Redis} {k : BudgetKey} {q : ℚ}

private theorem moveBalance_self : (moveBalance r k q).budgets k =
    { r.budgets k with balanceUsd := some (number (r.budgets k).balanceUsd + q) } := by
  unfold moveBalance
  rw [Redis.setBudget_self]
  rfl

theorem moveBalance_ne {j : BudgetKey} (hj : j ≠ k) :
    (moveBalance r k q).budgets j = r.budgets j :=
  Redis.setBudget_ne _ _ hj

/-- What the audit of a moved balance shows, under a plain key. -/
theorem audit_moved (h : PlainKey k) {d : Drift} (hd : audit (moveBalance r k q) k = some d) :
    d.customerId = k.customer ∧
      d.driftUsd = number (r.budgets k).balanceUsd - expected (r.budgets k) + q := by
  rw [audit_plain _ h, moveBalance_self] at hd
  rw [← Option.some.inj hd]
  exact ⟨rfl, add_sub_right_comm _ _ _⟩

theorem drift_zero (h : Balanced r) (hk : (r.budgets k).balanceUsd.isSome) {d : Drift}
    (hd : audit r k = some d) : d.customerId = k.customer ∧ d.driftUsd = 0 := by
  obtain ⟨p, hp⟩ := Option.isSome_iff_exists.mp hk
  obtain ⟨hplain, hexact⟩ := h k p hp
  rw [audit_plain r hplain] at hd
  obtain rfl := Option.some.inj hd
  refine ⟨rfl, ?_⟩
  dsimp only
  rw [hp, number_some, ← hexact, sub_self]

private theorem audit_other (h : Balanced r) (hk : (r.budgets k).balanceUsd.isSome) {j : BudgetKey}
    (hj : (r.budgets j).balanceUsd.isSome) (hne : j ≠ k) :
    audit (moveBalance r k q) j = audit r j := by
  have hbalance : ((moveBalance r k q).budgets j).balanceUsd = (r.budgets j).balanceUsd := by
    rw [moveBalance_ne hne]
  refine audit_congr hbalance fun d hd => moveBalance_ne ?_
  obtain ⟨p, hp⟩ := Option.isSome_iff_exists.mp hj
  rintro rfl
  have hcustomer := (drift_zero h hj hd).1
  apply hne
  rw [hcustomer, ← (h j p hp).1.tenant]

theorem sound_of_balanced (hthreshold : 0 ≤ driftThreshold) (h : Balanced r) :
    Sound driftThreshold r := by
  constructor
  case quiet =>
    intro found now hscan
    refine drifts_nil_iff.mpr fun j hj d hd => ?_
    rw [(drift_zero h ((hscan j).mp hj).1 hd).2, abs_zero]
    exact hthreshold
  case tells =>
    intro k q found now hk hq hscan
    obtain ⟨p, hp⟩ := Option.isSome_iff_exists.mp hk
    obtain ⟨hplain, hexact⟩ := h k p hp
    rw [scanned_moveBalance hk] at hscan
    apply reported_of_only
    · -- the moved balance is found, and its drift is what it was moved by
      have hfound : k ∈ found := (hscan k).mpr ⟨hk, matches_iff.mpr hplain.tenant⟩
      obtain ⟨d, hd⟩ : ∃ d, audit (moveBalance r k q) k = some d := ⟨_, audit_plain _ hplain⟩
      have hdrift := (audit_moved hplain hd).2
      rw [hp, number_some, ← hexact, sub_self, zero_add] at hdrift
      exact List.ne_nil_of_mem (mem_driftsOf.mpr ⟨⟨k, hfound, hd⟩, hdrift ▸ hq⟩)
    · -- no other budget drifts
      intro d hd
      obtain ⟨⟨j, hj, haudit⟩, hlt⟩ := mem_driftsOf.mp hd
      have hbalance := ((hscan j).mp hj).1
      by_cases hjk : j = k
      · subst hjk
        exact (audit_moved hplain haudit).1
      · rw [audit_other h hk hbalance hjk] at haudit
        rw [(drift_zero h hbalance haudit).2, abs_zero] at hlt
        exact absurd hthreshold (not_le.mpr hlt)

theorem exists_scanned {ks : List BudgetKey} (hks : ∀ k, (r.budgets k).balanceUsd.isSome → k ∈ ks) :
    ∃ found, Scanned r found := by
  refine ⟨ks.filter fun k => (r.budgets k).balanceUsd.isSome &&
    globMatch balancePattern (balanceKey k), fun k => ?_⟩
  rw [List.mem_filter, Bool.and_eq_true]
  exact ⟨fun h => h.2, fun h => ⟨hks k h.1, h⟩⟩

/-- A balance that is not found is reported by nobody, and one of a customer with a colon under
another name. -/
theorem Sound.plain (hsound : Sound driftThreshold r) {found : List BudgetKey}
    (hscan : Scanned r found) (hk : (r.budgets k).balanceUsd.isSome) : PlainKey k := by
  have hlarge : driftThreshold < |(|driftThreshold| + 1)| := by
    rw [abs_of_nonneg (by positivity)]
    linarith [le_abs_self driftThreshold]
  have hreported := hsound.tells k _ found 0 hk hlarge ((scanned_moveBalance hk _).mpr hscan)
  obtain ⟨j, hj, d, hd, hcustomer, hlt⟩ := drift_of_reported hreported
  obtain ⟨hbalance, hmatch⟩ := (hscan j).mp hj
  refine ⟨?_, hcustomer ▸ noColon_of_audit hd⟩
  by_contra htenant
  have hne : j ≠ k := by
    rintro rfl
    exact htenant (matches_iff.mp hmatch)
  -- the entry was there before the balance of the tenant was moved
  have hsame : audit (moveBalance r k (|driftThreshold| + 1)) j = audit r j := by
    have hrow : ((moveBalance r k (|driftThreshold| + 1)).budgets j).balanceUsd =
        (r.budgets j).balanceUsd := by
      rw [moveBalance_ne hne]
    refine audit_congr hrow fun d' _ => moveBalance_ne ?_
    rintro rfl
    exact htenant rfl
  rw [hsame] at hd
  exact absurd (drifts_nil_iff.mp (hsound.quiet found 0 hscan) j hj d hd) (not_le.mpr hlt)

private theorem exists_hidden_move {drift : ℚ} (hle : |drift| ≤ driftThreshold) (hne : drift ≠ 0) :
    ∃ q, driftThreshold < |q| ∧ |drift + q| ≤ driftThreshold := by
  obtain ⟨hlow, hhigh⟩ := abs_le.mp hle
  rcases lt_or_gt_of_ne hne with hneg | hpos
  · refine ⟨driftThreshold - drift / 2, ?_, ?_⟩
    · rw [abs_of_pos (by linarith)]
      linarith
    · rw [abs_le]
      constructor <;> linarith
  · refine ⟨-(driftThreshold + drift / 2), ?_, ?_⟩
    · rw [abs_neg, abs_of_pos (by linarith)]
      linarith
    · rw [abs_le]
      constructor <;> linarith

private theorem balanced_of_sound (hsound : Sound driftThreshold r) {found : List BudgetKey}
    (hscan : Scanned r found) : Balanced r := by
  intro k p hp
  have hk : (r.budgets k).balanceUsd.isSome := by
    rw [hp]
    rfl
  have hplain := hsound.plain hscan hk
  refine ⟨hplain, ?_⟩
  have hfound : k ∈ found := (hscan k).mpr ⟨hk, matches_iff.mpr hplain.tenant⟩
  have hle : |p - expected (r.budgets k)| ≤ driftThreshold := by
    have hquiet := drifts_nil_iff.mp (hsound.quiet found 0 hscan) k hfound _ (audit_plain r hplain)
    rwa [hp, number_some] at hquiet
  by_contra hne
  obtain ⟨q, hq, hhidden⟩ := exists_hidden_move hle (sub_ne_zero.mpr hne)
  have hreported := hsound.tells k q found 0 hk hq ((scanned_moveBalance hk q).mpr hscan)
  obtain ⟨j, hj, d, hd, hcustomer, hlt⟩ := drift_of_reported hreported
  obtain ⟨hbalance, hmatch⟩ := (hscan j).mp hj
  -- only the budget of the customer itself is reported under his name
  have hjplain := hsound.plain hscan hbalance
  have hname : d.customerId = j.customer := by
    rw [audit_plain _ hjplain] at hd
    rw [← Option.some.inj hd]
  have hjk : j = k := hjplain.eq hplain (hname.symm.trans hcustomer)
  subst hjk
  rw [(audit_moved hplain hd).2, hp, number_some] at hlt
  exact absurd hhidden (not_le.mpr hlt)

/-- With finitely many balances, the reports are right exactly when the balances are. -/
theorem sound_iff (hthreshold : 0 ≤ driftThreshold) {ks : List BudgetKey}
    (hks : ∀ k, (r.budgets k).balanceUsd.isSome → k ∈ ks) :
    Sound driftThreshold r ↔ Balanced r := by
  obtain ⟨found, hscan⟩ := exists_scanned hks
  exact ⟨fun h => balanced_of_sound h hscan, sound_of_balanced hthreshold⟩

end Sound

end FluxMeter.Job.ReconcileBalances
