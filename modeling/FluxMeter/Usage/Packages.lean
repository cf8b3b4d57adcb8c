import FluxMeter.Job.Deserializer
import FluxMeter.Usage.SinkRuns

/-! Prepaid packages. `Budget.set_package` grants tokens under one key; the projection of an event draws
on them and keeps what they do not cover as a debt under a second key, which no grant touches. -/
namespace FluxMeter.Usage
open FluxMeter.Budget FluxMeter.Job FluxMeter.Keys FluxMeter.Model Collections

private theorem wrap32_eq_self_iff (x : ℤ) : wrap32 x = x ↔ isInt x := by
  unfold wrap32 isInt
  omega

theorem getTotalTokens_iff (e : TokenEvent) :
    e.getTotalTokens = e.counts.total ↔ isInt e.counts.total := wrap32_eq_self_iff _

/-- `Budget.set_package`; `none` is `InvalidBudget`. -/
def setPackage (s : Keyspace) (tenantId : Option String) (customerId : String) (tokens : ℤ) :
    Option Keyspace :=
  if tokens < 0 then none
  else some { s with
    usage := s.usage.setInt (Py.packageKey (stripTenant tenantId) customerId) tokens }

inductive PackageStep
  | setPackage (tenantId : Option String) (customerId : String) (tokens : ℤ)
  | sink (a : SinkStep)

/-- The store after a step; a call that raises writes nothing. -/
def PackageStep.run (P : Projection) (before : TokenEvent → ℤ) (s : Keyspace) :
    PackageStep → Keyspace
  | .setPackage tenantId customerId tokens => (Usage.setPackage s tenantId customerId tokens).getD s
  | .sink a => a.run P before s

def runPackages (P : Projection) (before : TokenEvent → ℤ) (s : Keyspace)
    (steps : List PackageStep) : Keyspace :=
  steps.foldl (PackageStep.run P before) s

/-! ### The two cells of a package -/

section Cells
variable (s : Keyspace) (key : String)

def tokensRemaining : ℤ := integer (s.usage.ints key)

def packageDebt : ℤ := integer (s.usage.ints (key ++ ":debt"))

/-- What is under the two keys. -/
def packageCells (u : UsageStore) (key : String) : Option ℤ × Option ℤ :=
  (u.ints key, u.ints (key ++ ":debt"))

/-- A draw of `n` tokens on the two cells. -/
def drawCells : Option ℤ × Option ℤ → ℤ → Option ℤ × Option ℤ
  | (none, debt), _ => (none, debt)
  | (some left, debt), n => (some (withdraw (left, debt) n).1, (withdraw (left, debt) n).2)

/-- Nothing was taken that was not there, and no debt is negative. -/
structure Solvent : Prop where
  remaining : 0 ≤ tokensRemaining s key
  debt : 0 ≤ packageDebt s key

end Cells

section Draws
variable {u : UsageStore} {key : String}

theorem packageCells_draw (u : UsageStore) (key : String) (a : ProjectionArgs) :
    packageCells (drawPackage u a key) key = drawCells (packageCells u key) a.totalTokens := by
  rw [Write.drawPackage_eq]
  unfold packageCells drawn
  dsimp only
  cases hleft : u.ints key with
  | none =>
    dsimp only
    rw [hleft]
    rfl
  | some left =>
    dsimp only
    rw [placed_key, placed_debt]
    rfl

theorem packageCells_draw_of_ne {k : String} (hk : endOf k = endOf ":tokens_remaining")
    (hkey : endOf key = endOf ":tokens_remaining") (hne : k ≠ key) (a : ProjectionArgs) :
    packageCells (drawPackage u a k) key = packageCells u key := by
  have hend : ∀ {i j : String}, endOf i = endOf ":tokens_remaining" → i ≠ j ++ ":debt" := by
    rintro i j hi rfl
    rw [endOf_append j (by decide)] at hi
    exact absurd hi (by decide)
  have hframe := (local_drawn k a.totalTokens).frame u.ints
  rw [Write.drawPackage_eq]
  unfold packageCells
  dsimp only
  rw [hframe key, hframe (key ++ ":debt")]
  · rintro (h | h)
    · exact hend hk h.symm
    · exact hne ((String.append_left_inj ":debt").mp h).symm
  · rintro (h | h)
    · exact hne h.symm
    · exact hend hkey h

private theorem packageCells_run {hidden : String → Prop} {w : Write} (hw : w.Tame hidden)
    (hseen : ∀ k, Write.PackageCell k → ¬ hidden k) (hdraw : ∀ k a, w ≠ .draw k a)
    (hkey : endOf key = endOf ":tokens_remaining") :
    packageCells (w.run u) key = packageCells u key := by
  have hcells : ∀ {k}, ¬ Write.PackageCell k → key ≠ k ∧ key ++ ":debt" ≠ k := by
    intro k hk
    refine ⟨?_, ?_⟩
    · rintro rfl
      exact hk (Or.inl hkey)
    · rintro rfl
      exact hk (Or.inr (endOf_append key (by decide)))
  cases w with
  | incrBy k n =>
    obtain ⟨hne, hdebt⟩ := hcells hw
    unfold packageCells
    rw [Write.run_eq]
    simp only [Write.onInts]
    rw [adjust_of_ne _ _ hne, adjust_of_ne _ _ hdebt]
  | setInt k n =>
    obtain ⟨hne, hdebt⟩ := hcells fun hcell => hseen k hcell hw
    unfold packageCells
    rw [Write.run_eq]
    simp only [Write.onInts]
    rw [Function.update_of_ne hne, Function.update_of_ne hdebt]
  | draw k a => exact absurd rfl (hdraw k a)
  | _ => rfl

theorem packageCells_foldl {hidden : String → Prop} {ws : List Write}
    (hws : ∀ w ∈ ws, w.Tame hidden) (hseen : ∀ k, Write.PackageCell k → ¬ hidden k)
    (hdraw : ∀ w ∈ ws, ∀ k a, w ≠ .draw k a) (hkey : endOf key = endOf ":tokens_remaining") :
    packageCells (ws.foldl Write.run u) key = packageCells u key := by
  apply List.foldlRecOn (motive := fun u' => packageCells u' key = packageCells u key)
  · rfl
  · intro u' hu' w hw
    exact (packageCells_run (hws w hw) hseen (hdraw w hw) hkey).trans hu'

theorem packageCells_window (agg : UsageAggregate) (hkey : endOf key = endOf ":tokens_remaining") :
    packageCells ((windowWrites (sinkKeys agg) (sinkArgs agg)).foldl Write.run u) key =
      packageCells u key := by
  refine packageCells_foldl (tame_window agg) (fun _ => not_lastWindowEnd) ?_ hkey
  rintro w hw k a rfl
  simp [windowWrites, restWrites, rollupWrites, Write.mem_positive] at hw

theorem packageCells_event (k : ProjectionKeys) (a : ProjectionArgs)
    (hk : endOf k.package = endOf ":tokens_remaining")
    (hkey : endOf key = endOf ":tokens_remaining") :
    packageCells ((projectionWrites k a).foldl Write.run u) key =
      if k.package = key then drawCells (packageCells u key) a.totalTokens
      else packageCells u key := by
  have hbefore : packageCells ((k.session.toList.flatMap (sessionWrites a) ++
      modelRollupWrites a k.modelRollup).foldl Write.run u) key = packageCells u key := by
    refine packageCells_foldl (tame_before_draw k a) (fun _ _ h => h) ?_ hkey
    rintro w hw j b rfl
    simp [sessionWrites, modelRollupWrites, Write.mem_positive] at hw
  unfold projectionWrites
  rw [List.append_assoc, List.foldl_append,
    packageCells_foldl (tame_after_draw k a) (fun _ _ h => h) ?_ hkey, List.foldl_append]
  · show packageCells (drawPackage _ a k.package) key = _
    split_ifs with hsame
    · rw [hsame, packageCells_draw, hbefore]
    · rw [packageCells_draw_of_ne hk hkey hsame, hbefore]
  · rintro w hw j b rfl
    simp [dimTotalsWrites] at hw

end Draws

/-! ### Steps -/

theorem packageKey_end (t : Option String) (c : String) :
    endOf (packageKey t c) = endOf ":tokens_remaining" := by
  obtain ⟨⟨p, hp⟩, -⟩ := packageKey_shape t c
  rw [hp, endOf_append p (by decide)]

theorem pyPackageKey_end (t : Option String) (c : String) :
    endOf (Py.packageKey t c) = endOf ":tokens_remaining" := by
  unfold Py.packageKey Py.inTenant
  cases t with
  | none => exact endOf_append _ (by decide)
  | some t =>
    dsimp only
    split_ifs
    · rw [← String.append_assoc]
      exact endOf_append _ (by decide)
    · exact endOf_append _ (by decide)

namespace PackageStep
variable (P : Projection) (before : TokenEvent → ℤ)

/-- The event of the step, where it is projected on the package: it has the key, and its guard is not
set. -/
def draws (s : Keyspace) (key : String) : PackageStep → Option TokenEvent
  | .sink (.event e _) =>
    if (P.keys e).package = key ∧ s.projected (P.projectionKey e.eventId) = false then some e else none
  | _ => none

def grant : PackageStep → Option (String × ℤ)
  | .setPackage tenantId customerId tokens =>
    if tokens < 0 then none else some (Py.packageKey (stripTenant tenantId) customerId, tokens)
  | .sink _ => none

variable {P before} {s : Keyspace} {key : String}

theorem cells_run (hkey : endOf key = endOf ":tokens_remaining") (step : PackageStep) :
    packageCells (step.run P before s).usage key =
      match step.grant, step.draws P s key with
      | some (k, tokens), _ =>
        if k = key then (some tokens, (packageCells s.usage key).2) else packageCells s.usage key
      | none, some e => drawCells (packageCells s.usage key) e.getTotalTokens
      | none, none => packageCells s.usage key := by
  cases step with
  | setPackage tenantId customerId tokens =>
    unfold grant run Usage.setPackage
    dsimp only
    by_cases hneg : tokens < 0
    · rw [if_pos hneg, if_pos hneg]
      rfl
    · rw [if_neg hneg, if_neg hneg]
      have hdebt : key ++ ":debt" ≠ Py.packageKey (stripTenant tenantId) customerId := by
        intro h
        have hend := pyPackageKey_end (stripTenant tenantId) customerId
        rw [← h, endOf_append key (by decide)] at hend
        exact absurd hend (by decide)
      show packageCells (s.usage.setInt _ tokens) key = _
      unfold packageCells UsageStore.setInt
      dsimp only
      rw [Function.update_of_ne hdebt]
      split_ifs with hsame
      · rw [hsame, Function.update_self]
      · rw [Function.update_of_ne (Ne.symm hsame)]
  | sink a =>
    show packageCells (a.run P before s).usage key = _
    rw [SinkStep.usage_run]
    cases a with
    | window agg =>
      show packageCells (if _ then _ else _) key = packageCells s.usage key
      split_ifs
      · rfl
      · exact packageCells_window agg hkey
    | event e clock =>
      unfold grant draws SinkStep.skipped SinkStep.writes
      dsimp only
      by_cases hdone : s.projected (P.projectionKey e.eventId) = true
      · rw [if_pos hdone, if_neg fun h => absurd (hdone.symm.trans h.2) (by decide)]
      · rw [if_neg hdone, packageCells_event _ _ (packageKey_end _ _) hkey]
        by_cases hsame : (P.keys e).package = key
        · rw [if_pos hsame, if_pos ⟨hsame, Bool.eq_false_iff.mpr hdone⟩]
          rfl
        · rw [if_neg hsame, if_neg fun h => hsame h.1]

/-- The tokens of a draw that the package does not cover. -/
def uncovered (total : TokenEvent → ℤ) (P : Projection) (s : Keyspace) (key : String)
    (step : PackageStep) : ℤ :=
  match s.usage.ints key, step.draws P s key with
  | some left, some e => max 0 (total e - left)
  | _, _ => 0

/-- The counts of the step's event sum to an `int`. -/
def TotalFits : PackageStep → Prop
  | .sink (.event e _) => isInt e.counts.total
  | _ => True

instance : DecidablePred TotalFits
  | .sink (.event e _) => inferInstanceAs (Decidable (isInt e.counts.total))
  | .sink (.window _) | .setPackage .. => isTrue trivial

variable {total : TokenEvent → ℤ}

theorem uncovered_nonneg (step : PackageStep) : 0 ≤ step.uncovered total P s key := by
  unfold uncovered
  split
  · exact le_max_left _ _
  · exact le_refl 0

theorem draws_eq_none_of_grant {step : PackageStep} {g : String × ℤ} (h : step.grant = some g) :
    step.draws P s key = none := by
  cases step with
  | setPackage => rfl
  | sink => cases h

theorem uncovered_of_draws {step : PackageStep} (h : step.draws P s key = none) :
    step.uncovered total P s key = 0 := by
  unfold uncovered
  rw [h]
  cases s.usage.ints key <;> rfl

theorem uncovered_total {step : PackageStep} (h : step.TotalFits) :
    step.uncovered TokenEvent.getTotalTokens P s key =
      step.uncovered (fun e => e.counts.total) P s key := by
  cases hdraws : step.draws P s key with
  | none => rw [uncovered_of_draws hdraws, uncovered_of_draws hdraws]
  | some e =>
    have hfits : isInt e.counts.total := by
      unfold draws at hdraws
      split at hdraws
      · split_ifs at hdraws
        exact Option.some.inj hdraws ▸ h
      · cases hdraws
    unfold uncovered
    rw [hdraws]
    cases s.usage.ints key with
    | none => rfl
    | some left => exact congrArg (fun n => max 0 (n - left)) ((getTotalTokens_iff e).mpr hfits)

private theorem nonneg_of_grant {step : PackageStep} {g : String × ℤ} (h : step.grant = some g) :
    0 ≤ g.2 := by
  cases step with
  | setPackage tenantId customerId tokens =>
    have hgrant : (if tokens < 0 then none else some (_, tokens)) = some g := h
    split_ifs at hgrant with hneg
    obtain rfl := Option.some.inj hgrant
    exact not_lt.mp hneg
  | sink => cases h

theorem debt_run (hkey : endOf key = endOf ":tokens_remaining") (step : PackageStep) :
    packageDebt (step.run P before s) key =
      packageDebt s key + step.uncovered TokenEvent.getTotalTokens P s key := by
  have hcells := @cells_run P before s key hkey step
  have hdebt := congrArg (fun cells : Option ℤ × Option ℤ => integer cells.2) hcells
  refine Eq.trans hdebt ?_
  cases hgrant : step.grant with
  | some g =>
    have hdraws : step.draws P s key = none := draws_eq_none_of_grant hgrant
    rw [hdraws, uncovered_of_draws hdraws, add_zero]
    dsimp only
    split_ifs <;> rfl
  | none =>
    cases hdraws : step.draws P s key with
    | none =>
      rw [uncovered_of_draws hdraws, add_zero]
      rfl
    | some e =>
      unfold uncovered packageCells
      rw [hdraws]
      cases hleft : s.usage.ints key with
      | none => exact (add_zero _).symm
      | some left => exact withdraw_debt (left, s.usage.ints (key ++ ":debt")) e.getTotalTokens

theorem solvent_run (hkey : endOf key = endOf ":tokens_remaining") (hs : Solvent s key)
    (step : PackageStep) : Solvent (step.run P before s) key := by
  constructor
  case remaining =>
    have hcells := @cells_run P before s key hkey step
    have hleft := congrArg (fun cells : Option ℤ × Option ℤ => integer cells.1) hcells
    have hbefore : 0 ≤ integer (packageCells s.usage key).1 := hs.remaining
    refine le_of_le_of_eq ?_ hleft.symm
    cases hgrant : step.grant with
    | some g =>
      dsimp only
      split_ifs
      · exact nonneg_of_grant hgrant
      · exact hbefore
    | none =>
      cases hdraws : step.draws P s key with
      | none => exact hbefore
      | some e =>
        dsimp only
        cases hpackage : packageCells s.usage key with
        | mk left debt =>
          cases left with
          | none => exact le_refl 0
          | some left => exact withdraw_nonneg _ _
  case debt =>
    rw [debt_run hkey]
    exact add_nonneg hs.debt (uncovered_nonneg step)

theorem balance_run (hkey : endOf key = endOf ":tokens_remaining")
    (hthere : s.usage.ints key ≠ none) {step : PackageStep}
    (hgrant : ∀ g, step.grant ≠ some (key, g)) :
    (step.run P before s).usage.ints key ≠ none ∧
      tokensRemaining (step.run P before s) key - packageDebt (step.run P before s) key =
        tokensRemaining s key - packageDebt s key -
          ((step.draws P s key).map TokenEvent.getTotalTokens).getD 0 := by
  obtain ⟨left, hleft⟩ := Option.ne_none_iff_exists'.mp hthere
  have hcells := @cells_run P before s key hkey step
  have hsame : step.draws P s key = none →
      packageCells (step.run P before s).usage key = packageCells s.usage key := by
    intro hdraws
    rw [hcells, hdraws]
    cases hstep : step.grant with
    | none => rfl
    | some g =>
      dsimp only
      rw [if_neg fun h => hgrant g.2 (by rw [hstep, ← h])]
  cases hdraws : step.draws P s key with
  | none =>
    obtain ⟨hremaining, hdebt⟩ := Prod.mk.inj (hsame hdraws)
    unfold tokensRemaining packageDebt
    rw [hremaining, hdebt]
    exact ⟨hthere, (sub_zero _).symm⟩
  | some e =>
    have hnone : step.grant = none := by
      cases hstep : step.grant with
      | none => rfl
      | some g =>
        rw [draws_eq_none_of_grant hstep] at hdraws
        cases hdraws
    rw [hnone, hdraws] at hcells
    have hdrawn : packageCells (step.run P before s).usage key =
        (some (withdraw (left, s.usage.ints (key ++ ":debt")) e.getTotalTokens).1,
          (withdraw (left, s.usage.ints (key ++ ":debt")) e.getTotalTokens).2) := by
      rw [hcells]
      unfold packageCells
      rw [hleft]
      rfl
    obtain ⟨hremaining, hdebt⟩ := Prod.mk.inj hdrawn
    unfold tokensRemaining packageDebt
    rw [hremaining, hdebt, hleft]
    refine ⟨Option.some_ne_none _, ?_⟩
    exact withdraw_balance (left, s.usage.ints (key ++ ":debt")) e.getTotalTokens

theorem projected_run (step : PackageStep) : (step.run P before s).projected =
    match step with
    | .sink (.event e _) => Function.update s.projected (P.projectionKey e.eventId) true
    | _ => s.projected := by
  cases step with
  | setPackage tenantId customerId tokens =>
    unfold run Usage.setPackage
    dsimp only
    split_ifs <;> rfl
  | sink a =>
    cases a with
    | window agg => rfl
    | event e clock =>
      show (projectionScript s (P.keys e) (P.args e (before e) clock)).1.projected = _
      unfold projectionScript
      have hguard : (P.keys e).projection = P.projectionKey e.eventId := rfl
      rw [hguard]
      split_ifs with hdone
      · exact (Function.update_eq_self_iff.mpr hdone.symm).symm
      · rfl

end PackageStep

/-! ### Runs -/

/-- The events of the steps that are no replays: neither of an event whose guard is set at the start,
nor of an earlier one. -/
def freshEvents (P : Projection) : (String → Bool) → List PackageStep → List TokenEvent
  | _, [] => []
  | seen, .sink (.event e _) :: steps =>
    if seen (P.projectionKey e.eventId) then freshEvents P seen steps
    else e :: freshEvents P (Function.update seen (P.projectionKey e.eventId) true) steps
  | seen, _ :: steps => freshEvents P seen steps

section Runs
variable {P : Projection} {before : TokenEvent → ℤ} {s : Keyspace} {key : String}

private theorem not_seen_of_fresh {seen : String → Bool} {steps : List PackageStep} {e : TokenEvent}
    (he : e ∈ freshEvents P seen steps) : seen (P.projectionKey e.eventId) = false := by
  fun_induction freshEvents P seen steps with
  | case1 => cases he
  | case2 seen e' clock steps hseen ih => exact ih he
  | case3 seen e' clock steps hseen ih =>
    rcases List.mem_cons.mp he with rfl | he
    · exact Bool.eq_false_iff.mpr hseen
    · have hrest := ih he
      by_cases hsame : P.projectionKey e.eventId = P.projectionKey e'.eventId
      · rw [hsame, Function.update_self] at hrest
        cases hrest
      · rwa [Function.update_of_ne hsame] at hrest
  | case4 seen step steps hstep ih => exact ih he

/-- No two of the events have one id. -/
theorem freshEvents_nodup (seen : String → Bool) (steps : List PackageStep) :
    ((freshEvents P seen steps).map fun e => P.projectionKey e.eventId).Nodup := by
  fun_induction freshEvents P seen steps with
  | case1 => exact List.nodup_nil
  | case2 seen e clock steps hseen ih => exact ih
  | case3 seen e clock steps hseen ih =>
    rw [List.map_cons, List.nodup_cons]
    refine ⟨?_, ih⟩
    intro hmem
    obtain ⟨e', he', hsame⟩ := List.mem_map.mp hmem
    have hnot := not_seen_of_fresh he'
    rw [hsame, Function.update_self] at hnot
    cases hnot
  | case4 seen step steps hstep ih => exact ih

theorem runPackages_append (steps steps' : List PackageStep) :
    runPackages P before s (steps ++ steps') =
      runPackages P before (runPackages P before s steps) steps' := List.foldl_append

theorem solvent_runPackages (hkey : endOf key = endOf ":tokens_remaining") (hs : Solvent s key)
    (steps : List PackageStep) : Solvent (runPackages P before s steps) key := by
  apply List.foldlRecOn (motive := fun s' => Solvent s' key)
  · exact hs
  · intro s' hs' step _
    exact PackageStep.solvent_run hkey hs' step

def drawnTokens (total : TokenEvent → ℤ) (P : Projection) (key : String)
    (events : List TokenEvent) : ℤ :=
  ((events.filter fun e => (P.keys e).package = key).map total).sum

private theorem drawnTokens_cons (total : TokenEvent → ℤ) (e : TokenEvent)
    (events : List TokenEvent) :
    drawnTokens total P key (e :: events) =
      (if (P.keys e).package = key then total e else 0) + drawnTokens total P key events := by
  unfold drawnTokens
  by_cases hsame : (P.keys e).package = key
  · rw [List.filter_cons_of_pos (by simpa using hsame), if_pos hsame]
    rfl
  · rw [List.filter_cons_of_neg (by simpa using hsame), if_neg hsame, zero_add]

theorem balance_runPackages (hkey : endOf key = endOf ":tokens_remaining") {steps : List PackageStep}
    (hgrant : ∀ step ∈ steps, ∀ g, step.grant ≠ some (key, g)) (hthere : s.usage.ints key ≠ none) :
    tokensRemaining (runPackages P before s steps) key -
        packageDebt (runPackages P before s steps) key =
      tokensRemaining s key - packageDebt s key -
        drawnTokens TokenEvent.getTotalTokens P key (freshEvents P s.projected steps) := by
  induction steps generalizing s with
  | nil => exact (sub_zero _).symm
  | cons step steps ih =>
    obtain ⟨hstep, hsteps⟩ := List.forall_mem_cons.mp hgrant
    obtain ⟨hthere', hbalance⟩ :=
      @PackageStep.balance_run P before s key hkey hthere step hstep
    have hrest := ih hsteps hthere'
    have hdrawn : drawnTokens TokenEvent.getTotalTokens P key
          (freshEvents P s.projected (step :: steps)) =
        ((step.draws P s key).map TokenEvent.getTotalTokens).getD 0 +
          drawnTokens TokenEvent.getTotalTokens P key
            (freshEvents P (step.run P before s).projected steps) := by
      rw [PackageStep.projected_run]
      cases step with
      | setPackage tenantId customerId tokens => exact (zero_add _).symm
      | sink a =>
        cases a with
        | window agg => exact (zero_add _).symm
        | event e clock =>
          rw [freshEvents]
          unfold PackageStep.draws
          dsimp only
          by_cases hdone : s.projected (P.projectionKey e.eventId) = true
          · rw [if_pos hdone, if_neg fun h => absurd (hdone.symm.trans h.2) (by decide),
              Function.update_eq_self_iff.mpr hdone.symm]
            exact (zero_add _).symm
          · rw [if_neg hdone, drawnTokens_cons]
            by_cases hsame : (P.keys e).package = key
            · rw [if_pos hsame, if_pos ⟨hsame, Bool.eq_false_iff.mpr hdone⟩]
              rfl
            · rw [if_neg hsame, if_neg fun h => hsame h.1]
              rfl
    have hhead : runPackages P before s (step :: steps) =
        runPackages P before (step.run P before s) steps := rfl
    rw [hhead, hrest, hbalance, hdrawn, sub_sub]

private theorem fits_of_fresh {seen : String → Bool} {steps : List PackageStep}
    (h : ∀ step ∈ steps, step.TotalFits) {e : TokenEvent} (he : e ∈ freshEvents P seen steps) :
    isInt e.counts.total := by
  fun_induction freshEvents P seen steps with
  | case1 => cases he
  | case2 seen e' clock steps hseen ih => exact ih (List.forall_mem_cons.mp h).2 he
  | case3 seen e' clock steps hseen ih =>
    obtain ⟨hfits, hrest⟩ := List.forall_mem_cons.mp h
    rcases List.mem_cons.mp he with rfl | he
    · exact hfits
    · exact ih hrest he
  | case4 seen step steps hstep ih => exact ih (List.forall_mem_cons.mp h).2 he

private theorem drawnTokens_total {events : List TokenEvent}
    (h : ∀ e ∈ events, isInt e.counts.total) :
    drawnTokens TokenEvent.getTotalTokens P key events =
      drawnTokens (fun e => e.counts.total) P key events := by
  unfold drawnTokens
  congr 1
  apply List.map_congr_left
  exact fun e he => (getTotalTokens_iff e).mpr (h e (List.mem_filter.mp he).1)

/-- The account of a package in a run in which no total of an event wraps. Its tokens and its debt are
not negative, the next step adds to the debt what the tokens do not cover of the event that it projects
on the package, and since the latest grant the tokens of the projected events were taken, each event
counted once. -/
theorem package_account (P : Projection) (before : TokenEvent → ℤ) {s : Keyspace}
    {tenantId : Option String} {customerId key : String}
    (hkey : key = packageKey (stripTenant tenantId) customerId) (hs : Solvent s key)
    {steps : List PackageStep} (hfits : ∀ step ∈ steps, step.TotalFits) :
    Solvent (runPackages P before s steps) key ∧
      (∀ step : PackageStep, step.TotalFits →
        0 ≤ step.uncovered (fun e => e.counts.total) P (runPackages P before s steps) key ∧
        packageDebt (runPackages P before s (steps ++ [step])) key =
          packageDebt (runPackages P before s steps) key +
            step.uncovered (fun e => e.counts.total) P (runPackages P before s steps) key) ∧
      ∀ earlier g later, 0 ≤ g → steps = earlier ++ .setPackage tenantId customerId g :: later →
        (∀ step ∈ later, ∀ g', step.grant ≠ some (key, g')) →
        let granted :=
          runPackages P before s (earlier ++ [PackageStep.setPackage tenantId customerId g])
        tokensRemaining (runPackages P before s steps) key -
            packageDebt (runPackages P before s steps) key =
          g - packageDebt (runPackages P before s earlier) key -
            drawnTokens (fun e => e.counts.total) P key
              (freshEvents P granted.projected later) := by
  have hend : endOf key = endOf ":tokens_remaining" := hkey ▸ packageKey_end _ _
  refine ⟨solvent_runPackages hend hs steps, ?_, ?_⟩
  · intro step hstep
    refine ⟨PackageStep.uncovered_nonneg step, ?_⟩
    rw [runPackages_append, ← PackageStep.uncovered_total hstep]
    exact PackageStep.debt_run hend step
  · rintro earlier g later hg rfl hlatest granted
    have hrun : runPackages P before s (earlier ++ .setPackage tenantId customerId g :: later) =
        runPackages P before granted later := by
      rw [← runPackages_append, List.append_assoc]
      rfl
    have hgrant : (PackageStep.setPackage tenantId customerId g).grant = some (key, g) := by
      unfold PackageStep.grant
      dsimp only
      rw [if_neg (not_lt.mpr hg), hkey, packageKey_stripTenant]
    have hcells := @PackageStep.cells_run P before (runPackages P before s earlier) key hend
      (.setPackage tenantId customerId g)
    rw [hgrant] at hcells
    dsimp only at hcells
    rw [if_pos rfl] at hcells
    have hgranted : granted = (PackageStep.setPackage tenantId customerId g).run P before
        (runPackages P before s earlier) := runPackages_append _ _
    rw [← hgranted] at hcells
    obtain ⟨hremaining, hdebt⟩ := Prod.mk.inj hcells
    have hlater : ∀ step ∈ later, step.TotalFits := fun step hstep =>
      hfits step (List.mem_append_right _ (List.mem_cons_of_mem _ hstep))
    rw [hrun, balance_runPackages hend hlatest (by rw [hremaining]; exact Option.some_ne_none g),
      drawnTokens_total fun e he => fits_of_fresh hlater he]
    unfold tokensRemaining packageDebt
    rw [hremaining, hdebt]
    rfl

/-- Ten tokens for two events of seven, one of which is projected twice. -/
def overdrawn : List PackageStep :=
  [.setPackage (some "acme") "c1" 10, .sink (.event (eventOfC1 "acme") "5000"),
    .sink (.event (eventOfC1 "acme") "6000"),
    .sink (.event { eventOfC1 "acme" with eventId := some "acme-2" } "7000")]

theorem package_account_overdrawn :
    tokensRemaining (runPackages sampleProjection (fun _ => 0) {} overdrawn)
          (packageKey (some "acme") "c1") -
        packageDebt (runPackages sampleProjection (fun _ => 0) {} overdrawn)
          (packageKey (some "acme") "c1") = 10 - 0 - 14 := by
  have hkey : packageKey (some "acme") "c1" = packageKey (stripTenant (some "acme")) "c1" := by
    decide +kernel
  have hempty : Solvent {} (packageKey (some "acme") "c1") := ⟨le_refl 0, le_refl 0⟩
  have hfits : ∀ step ∈ overdrawn, step.TotalFits := by decide +kernel
  have haccount := package_account sampleProjection (fun _ => 0) hkey hempty hfits
  have hlater : ∀ step ∈ overdrawn.tail, ∀ g, step.grant ≠ some (packageKey (some "acme") "c1", g) := by
    unfold overdrawn
    simp [PackageStep.grant]
  have hbalance := haccount.2.2 [] 10 _ (by decide) rfl hlater
  exact hbalance.trans (by decide +kernel)

/-- A full `int` of input tokens and one output token make a total of -2^31: a package of ten tokens
grows by 2^31 tokens where the event takes as many. -/
theorem not_package_account :
    let event := { eventOfC1 "acme" with inputTokens := 2 ^ 31 - 1, outputTokens := 1 }
    let granted := runPackages sampleProjection (fun _ => 0) {} [.setPackage (some "acme") "c1" 10]
    let later := [PackageStep.sink (.event event "5000")]
    let key := packageKey (some "acme") "c1"
    event.counts = ⟨2 ^ 31 - 1, 1, 0, 0, 0, 0⟩ ∧
      tokensRemaining (runPackages sampleProjection (fun _ => 0) granted later) key = 10 + 2 ^ 31 ∧
      tokensRemaining (runPackages sampleProjection (fun _ => 0) granted later) key -
          packageDebt (runPackages sampleProjection (fun _ => 0) granted later) key ≠
        10 - packageDebt {} key - drawnTokens (fun e => e.counts.total) sampleProjection key
          (freshEvents sampleProjection granted.projected later) := by
  intro event granted later key
  exact ⟨by decide, by decide +kernel, by decide +kernel⟩

end Runs

end FluxMeter.Usage
