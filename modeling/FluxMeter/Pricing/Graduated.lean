import FluxMeter.Collections.Brackets
import FluxMeter.Pricing.PriceBounds
import FluxMeter.Pricing.PricingLoader
import Mathlib.Tactic.NormNum

/-! Graduated pricing token by token. The categories of an event lie end to end from the monthly
volume on, every tier is the bracket of the token indexes below its end, and both loops charge each
token once, at the rate of its tier. -/
namespace FluxMeter.Pricing
open Collections FluxMeter.Model FluxMeter.Wire

/-! ### The price per token -/

def tierStop (tier : Tier) : Option ℤ := tier.upToTokensM.map (· * 1000000)

def tierBrackets (tiers : List Tier) : List (Bracket Tier) := brackets tierStop 0 tiers

structure Span where
  category : Category
  start : ℤ
  tokens : ℤ

def spans : ℤ → List (Category × ℤ) → List Span
  | _, [] => []
  | start, c :: rest => ⟨c.1, start, c.2⟩ :: spans (start + c.2) rest

/-- The exact charges of a span: for every tier its tokens at the rate of the tier. -/
def Span.charges (tiers : List Tier) (mult : ℚ) (s : Span) : List ℚ :=
  (tierBrackets tiers).map fun b => b.count s.start s.tokens * rateFor b.label mult s.category

/-- The charges of the spans, each rounded for itself. -/
def perTokenCost (round : ℚ → ℤ) (tiers : List Tier) (mult : ℚ) (l : List Span) : ℤ :=
  (l.map fun s => ((s.charges tiers mult).map round).sum).sum

def totalTokens (cats : List (Category × ℤ)) : ℤ := (cats.map Prod.snd).sum

def spanTurns (slice : ℤ → ℤ → Tier × ℤ) (l : List Span) : List (Category × Turn Tier) :=
  l.flatMap fun s => (walk slice s.tokens.toNat s.tokens s.start).map (s.category, ·)

/-- The turns charge every token of the event once, at the tier of its index. -/
structure ChargedOnce (tiers : List Tier) (before : ℤ) (cats : List (Category × ℤ))
    (turns : List (Category × Turn Tier)) : Prop where
  once : ∀ i, before ≤ i → i < before + totalTokens cats →
    turns.countP (fun t => t.2.Covers i) = 1
  inTier : ∀ t ∈ turns, ∀ i, t.2.Covers i →
    ∃ b ∈ tierBrackets tiers, b.label = t.2.label ∧ b.Contains i

/-- What the turns charge, rounded turn by turn. -/
def turnsCost (round : ℚ → ℤ) (mult : ℚ) (turns : List (Category × Turn Tier)) : ℤ :=
  (turns.map fun t => round (t.2.capacity * rateFor t.2.label mult t.1)).sum

theorem mathRound_zero : mathRound 0 = 0 := by norm_num [mathRound]

theorem pyRound_zero : Loader.pyRound 0 = 0 := by norm_num [Loader.pyRound, Binary64.nearestEven]

section Tiers
variable {tiers : List Tier} {previous start i : ℤ}

theorem ascending_of_valid (h : Loader.validBounds previous tiers)
    (hstart : start ≤ (previous + 1) * 1000000) : Ascending tierStop start tiers := by
  induction tiers generalizing previous start with
  | nil => simp [Loader.validBounds] at h
  | cons tier rest ih =>
    unfold Loader.validBounds at h
    unfold Ascending tierStop
    cases hupTo : tier.upToTokensM with
    | none =>
      rw [hupTo] at h
      simpa using h
    | some upTo =>
      rw [hupTo] at h
      simp only [Bool.and_eq_true, decide_eq_true_eq] at h
      have hend : start ≤ upTo * 1000000 := by omega
      have hnext : upTo * 1000000 ≤ (upTo + 1) * 1000000 := by omega
      exact ⟨hend, ih h.2 hnext⟩

theorem upTo_nonneg (h : Loader.validBounds (-1) tiers) :
    ∀ tier ∈ tiers, ∀ upTo, tier.upToTokensM = some upTo → 0 ≤ upTo := by
  suffices habove : ∀ previous, Loader.validBounds previous tiers →
      ∀ tier ∈ tiers, ∀ upTo, tier.upToTokensM = some upTo → previous < upTo by
    intro tier htier upTo hupTo
    have hlt := habove (-1) h tier htier upTo hupTo
    omega
  clear h
  induction tiers with
  | nil => simp
  | cons first rest ih =>
    intro previous h tier htier upTo hupTo
    unfold Loader.validBounds at h
    cases hfirst : first.upToTokensM with
    | none =>
      rw [hfirst] at h
      have hrest : rest = [] := by simpa using h
      rw [hrest, List.mem_singleton] at htier
      rw [htier, hfirst] at hupTo
      cases hupTo
    | some bound =>
      rw [hfirst] at h
      simp only [Bool.and_eq_true, decide_eq_true_eq] at h
      rcases List.mem_cons.mp htier with rfl | htier
      · rw [hfirst] at hupTo
        cases hupTo
        exact h.1
      · have hlt := ih bound h.2 tier htier upTo hupTo
        omega

theorem find_tier :
    (tiers.find? fun tier => tier.upToTokensM.all (i / 1000000 < ·)) =
      tiers.find? fun tier => (tierStop tier).all (i < ·) := by
  congr 1
  funext tier
  unfold tierStop
  cases tier.upToTokensM with
  | none => rfl
  | some upTo =>
    simp only [Option.all_some, Option.map_some, decide_eq_decide]
    omega

end Tiers

theorem totalTokens_nonneg {cats : List (Category × ℤ)} (hcats : ∀ c ∈ cats, 0 ≤ c.2) :
    0 ≤ totalTokens cats := by
  apply List.sum_nonneg
  intro x hx
  obtain ⟨c, hc, rfl⟩ := List.mem_map.mp hx
  exact hcats c hc

section Spans
variable {tiers : List Tier} {slice : ℤ → ℤ → Tier × ℤ} {cats : List (Category × ℤ)} {before : ℤ}

theorem mem_spans (hcats : ∀ c ∈ cats, 0 ≤ c.2) : ∀ s ∈ spans before cats,
    before ≤ s.start ∧ 0 ≤ s.tokens ∧ s.start + s.tokens ≤ before + totalTokens cats := by
  induction cats generalizing before with
  | nil => intro s hs; simp [spans] at hs
  | cons c cats ih =>
    intro s hs
    obtain ⟨hfirst, hrest⟩ := List.forall_mem_cons.mp hcats
    unfold spans at hs
    have htotal : totalTokens (c :: cats) = c.2 + totalTokens cats := rfl
    rw [htotal]
    rcases List.mem_cons.mp hs with rfl | hs
    · have hnonneg : 0 ≤ totalTokens cats := totalTokens_nonneg hrest
      dsimp only
      omega
    · have hlater := ih hrest s hs
      omega

private theorem countP_spanTurns (hcats : ∀ c ∈ cats, 0 ≤ c.2)
    (hgreedy : ∀ s ∈ spans before cats,
      Greedy (tierBrackets tiers) slice s.start (s.start + s.tokens)) (i : ℤ) :
    (spanTurns slice (spans before cats)).countP (fun t => t.2.Covers i) =
      if before ≤ i ∧ i < before + totalTokens cats then 1 else 0 := by
  induction cats generalizing before with
  | nil =>
    rw [if_neg (by simp only [totalTokens, List.map_nil, List.sum_nil]; omega)]
    rfl
  | cons c cats ih =>
    obtain ⟨hfirst, hrest⟩ := List.forall_mem_cons.mp hcats
    unfold spans at hgreedy ⊢
    obtain ⟨hspan, hlater⟩ := List.forall_mem_cons.mp hgreedy
    have htail := ih hrest hlater
    have hwalk := walk_covers hspan c.2.toNat c.2 before (by omega) (le_refl before) rfl i
    have htotal : totalTokens (c :: cats) = c.2 + totalTokens cats := rfl
    have hnonneg : 0 ≤ totalTokens cats := totalTokens_nonneg hrest
    have hsplit : spanTurns slice (⟨c.1, before, c.2⟩ :: spans (before + c.2) cats) =
        (walk slice c.2.toNat c.2 before).map (c.1, ·) ++
          spanTurns slice (spans (before + c.2) cats) := rfl
    have hmap : ((walk slice c.2.toNat c.2 before).map (c.1, ·)).countP (fun t => t.2.Covers i) =
        (walk slice c.2.toNat c.2 before).countP (fun t => t.Covers i) := by
      rw [List.countP_map]
      rfl
    rw [hsplit, List.countP_append, hmap, hwalk, htail, htotal]
    by_cases hin : before ≤ i ∧ i < before + c.2
    · rw [if_pos hin, if_neg (by omega), if_pos (by omega)]
    · have hiff : (before + c.2 ≤ i ∧ i < before + c.2 + totalTokens cats) ↔
          before ≤ i ∧ i < before + (c.2 + totalTokens cats) := by omega
      rw [if_neg hin, Nat.zero_add]
      simp only [hiff]

theorem chargedOnce_of_greedy (hcats : ∀ c ∈ cats, 0 ≤ c.2)
    (hgreedy : ∀ s ∈ spans before cats,
      Greedy (tierBrackets tiers) slice s.start (s.start + s.tokens)) :
    ChargedOnce tiers before cats (spanTurns slice (spans before cats)) where
  once i hlo hhi := by
    rw [countP_spanTurns hcats hgreedy i, if_pos ⟨hlo, hhi⟩]
  inTier t ht i hi := by
    obtain ⟨s, hs, ht⟩ := List.mem_flatMap.mp ht
    obtain ⟨turn, hturn, rfl⟩ := List.mem_map.mp ht
    exact walk_label (hgreedy s hs) (le_refl s.start) rfl hturn hi

/-- What the greedy loop charges is the price per token. -/
theorem turnsCost_spanTurns {round : ℚ → ℤ} (hround : round 0 = 0) (mult : ℚ)
    (hvalid : Ascending tierStop 0 tiers) {l : List Span}
    (hgreedy : ∀ s ∈ l, Greedy (tierBrackets tiers) slice s.start (s.start + s.tokens)) :
    turnsCost round mult (spanTurns slice l) = perTokenCost round tiers mult l := by
  unfold turnsCost perTokenCost spanTurns
  induction l with
  | nil => rfl
  | cons s l ih =>
    obtain ⟨hspan, hlater⟩ := List.forall_mem_cons.mp hgreedy
    have hsum := walk_sum (pairwise_disjoint hvalid) hspan
      (fun tier n => round (n * rateFor tier mult s.category)) (fun tier => by simp [hround])
      s.tokens.toNat s.tokens s.start (by omega) (le_refl s.start) rfl
    rw [List.flatMap_cons, List.map_append, List.sum_append, ih hlater, List.map_cons,
      List.sum_cons, List.map_map]
    congr 1
    unfold Span.charges tierBrackets
    rw [List.map_map]
    exact hsum

end Spans

/-! ### The Java loop -/

namespace ModelPricing
variable {m : ModelPricing} {mult : ℚ} {e : TokenEvent} {before : ℤ}

/-- The tokens that the tier at the cursor takes, before the guard against misconfigured tiers. -/
def capacity (m : ModelPricing) (remaining cursor : ℤ) : ℤ :=
  if tierEndTokens (m.tierAtToken cursor) = 2 ^ 63 - 1 then remaining
  else min remaining (wrap64 (tierEndTokens (m.tierAtToken cursor) - cursor))

theorem slice_eq (remaining cursor : ℤ) : m.slice remaining cursor =
    if m.capacity remaining cursor ≤ 0 then (m.lastTier, remaining)
    else (m.tierAtToken cursor, m.capacity remaining cursor) := rfl

/-- The end of every tier in tokens is a `long`. -/
def BoundsFit (m : ModelPricing) : Prop :=
  ∀ tier ∈ m.tiers, ∀ upTo, tier.upToTokensM = some upTo → upTo * 1000000 < 2 ^ 63

theorem tierAtToken_label (hvalid : Loader.validBounds (-1) m.tiers) {i : ℤ} (hi : 0 ≤ i) :
    ∃ b ∈ tierBrackets m.tiers, b.Contains i ∧ m.tierAtToken i = b.label := by
  obtain ⟨b, hb, hcontains, hfind⟩ :=
    exists_contains (ascending_of_valid hvalid (by norm_num)) hi
  refine ⟨b, hb, hcontains, ?_⟩
  unfold tierAtToken
  dsimp only
  rw [Int.tdiv_eq_ediv_of_nonneg hi, find_tier, hfind]
  rfl

theorem capacity_eq {b : Bracket Tier} (hstop : b.stop = tierStop b.label)
    (hfit : ∀ upTo, b.label.upToTokensM = some upTo → upTo * 1000000 < 2 ^ 63) {cursor : ℤ}
    (hcontains : b.Contains cursor) (htier : m.tierAtToken cursor = b.label) (hcursor : 0 ≤ cursor)
    (remaining : ℤ) : m.capacity remaining cursor = b.room remaining cursor := by
  have hafter := hcontains.2
  unfold capacity Bracket.room
  unfold tierStop at hstop
  rw [htier]
  cases hupTo : b.label.upToTokensM with
  | none =>
    have hend : tierEndTokens b.label = 2 ^ 63 - 1 := by unfold tierEndTokens; rw [hupTo]
    rw [hupTo] at hstop
    rw [hend, if_pos rfl, hstop]
    rfl
  | some upTo =>
    rw [hupTo] at hstop
    rw [hstop] at hafter ⊢
    have hlt : cursor < upTo * 1000000 := by simpa using hafter
    have hlong := hfit upTo hupTo
    have hend : tierEndTokens b.label = upTo * 1000000 := by
      unfold tierEndTokens
      rw [hupTo]
      show wrap64 (upTo * 1000000) = upTo * 1000000
      unfold wrap64
      omega
    have hgap : wrap64 (upTo * 1000000 - cursor) = upTo * 1000000 - cursor := by
      unfold wrap64
      omega
    rw [hend, hgap, if_neg (by omega)]
    rfl

/-- At the index the lookup finds the tier of the bracket, and its end is a `long`. -/
def FindsTier (m : ModelPricing) (l : List (Bracket Tier)) (i : ℤ) : Prop :=
  ∃ b ∈ l, b.Contains i ∧ b.stop = tierStop b.label ∧ m.tierAtToken i = b.label ∧
    ∀ upTo, b.label.upToTokensM = some upTo → upTo * 1000000 < 2 ^ 63

theorem findsTier_of_fits (hvalid : Loader.validBounds (-1) m.tiers) (hfits : m.BoundsFit) {i : ℤ}
    (hi : 0 ≤ i) : m.FindsTier (tierBrackets m.tiers) i := by
  obtain ⟨b, hb, hcontains, htier⟩ := tierAtToken_label hvalid hi
  obtain ⟨hlabel, hstop⟩ := label_of_mem b hb
  exact ⟨b, hb, hcontains, hstop, htier, hfits b.label hlabel⟩

theorem capacity_pos {l : List (Bracket Tier)} {remaining cursor : ℤ} (hfinds : m.FindsTier l cursor)
    (hpos : 0 < remaining) (hcursor : 0 ≤ cursor) : 0 < m.capacity remaining cursor := by
  obtain ⟨b, -, hcontains, hstop, htier, hfit⟩ := hfinds
  rw [capacity_eq hstop hfit hcontains htier hcursor]
  exact (Bracket.room_bounds hpos hcontains).1

theorem greedy_slice {l : List (Bracket Tier)} {lo hi : ℤ} (hlo : 0 ≤ lo)
    (hfinds : ∀ i, lo ≤ i → i < hi → m.FindsTier l i) : Greedy l m.slice lo hi := by
  intro remaining cursor hpos hcursor hend
  have hnonneg : 0 ≤ cursor := by omega
  have hguard := capacity_pos (hfinds cursor hcursor (by omega)) hpos hnonneg
  obtain ⟨b, hb, hcontains, hstop, htier, hfit⟩ := hfinds cursor hcursor (by omega)
  refine ⟨b, hb, hcontains, ?_⟩
  rw [slice_eq, if_neg (by omega), htier, capacity_eq hstop hfit hcontains htier hnonneg]

/-- The loop adds up the rounded costs of its turns in `long` arithmetic. -/
theorem graduatedLoop_walk {l : List (Bracket Tier)} {lo hi : ℤ} (hgreedy : Greedy l m.slice lo hi)
    (hlow : 0 ≤ lo) (hhigh : hi < 2 ^ 63) (category : Category) (fuel : ℕ) :
    ∀ remaining cursor cost : ℤ, lo ≤ cursor → cursor + remaining = hi → wrap64 cost = cost →
      m.graduatedLoop mult category fuel remaining cursor cost =
        wrap64 (cost + ((walk m.slice fuel remaining cursor).map fun t =>
          mathRound (t.capacity * rateFor t.label mult category)).sum) := by
  induction fuel with
  | zero =>
    intro remaining cursor cost _ _ hcost
    simp only [graduatedLoop, walk, List.map_nil, List.sum_nil, add_zero]
    exact hcost.symm
  | succ fuel ih =>
    intro remaining cursor cost hlo hhi hcost
    unfold graduatedLoop walk
    split_ifs with hpos
    · obtain ⟨hone, hmost⟩ := slice_bounds_of_greedy hgreedy hpos hlo hhi
      dsimp only
      have hcursor : wrap64 (cursor + (m.slice remaining cursor).2) =
          cursor + (m.slice remaining cursor).2 := by
        unfold wrap64
        omega
      rw [hcursor, ih _ _ _ (by omega) (by omega) (by unfold wrap64; omega), wrap64_add,
        List.map_cons, List.sum_cons, add_assoc]
    · simp only [List.map_nil, List.sum_nil, add_zero]
      exact hcost.symm

theorem foldl_turnsCost {l : List (Bracket Tier)} (cats : List (Category × ℤ)) :
    ∀ start cost : ℤ, (∀ s ∈ spans start cats, Greedy l m.slice s.start (s.start + s.tokens)) →
      (∀ c ∈ cats, 0 ≤ c.2) → 0 ≤ start → start + totalTokens cats < 2 ^ 63 → wrap64 cost = cost →
      (cats.foldl (fun (s : ℤ × ℤ) (c : Category × ℤ) => (wrap64 (s.1 + c.2),
          wrap64 (s.2 + m.costCategoryGraduated c.2 s.1 mult c.1))) (start, cost)).2 =
        wrap64 (cost + turnsCost mathRound mult (spanTurns m.slice (spans start cats))) := by
  induction cats with
  | nil =>
    intro start cost _ _ _ _ hcost
    simp only [List.foldl_nil, spans, spanTurns, turnsCost, List.flatMap_nil, List.map_nil,
      List.sum_nil, add_zero]
    exact hcost.symm
  | cons c cats ih =>
    intro start cost hgreedy hcats hstart hsize hcost
    obtain ⟨hfirst, hrest⟩ := List.forall_mem_cons.mp hcats
    have hspans : spans start (c :: cats) = ⟨c.1, start, c.2⟩ :: spans (start + c.2) cats := rfl
    rw [hspans] at hgreedy ⊢
    obtain ⟨hspan, hlater⟩ := List.forall_mem_cons.mp hgreedy
    have htotal : totalTokens (c :: cats) = c.2 + totalTokens cats := rfl
    have hnonneg : 0 ≤ totalTokens cats := totalTokens_nonneg hrest
    have hcursor : wrap64 (start + c.2) = start + c.2 := by unfold wrap64; omega
    have hcategory : m.costCategoryGraduated c.2 start mult c.1 =
        wrap64 ((walk m.slice c.2.toNat c.2 start).map fun t =>
          mathRound (t.capacity * rateFor t.label mult c.1)).sum := by
      unfold costCategoryGraduated
      rw [graduatedLoop_walk hspan hstart (by dsimp only; omega) c.1 c.2.toNat c.2 start 0
        (le_refl start) rfl rfl, zero_add]
    have hsplit : turnsCost mathRound mult
          (spanTurns m.slice (⟨c.1, start, c.2⟩ :: spans (start + c.2) cats)) =
        ((walk m.slice c.2.toNat c.2 start).map fun t =>
          mathRound (t.capacity * rateFor t.label mult c.1)).sum +
          turnsCost mathRound mult (spanTurns m.slice (spans (start + c.2) cats)) := by
      unfold turnsCost spanTurns
      rw [List.flatMap_cons, List.map_append, List.sum_append, List.map_map]
      rfl
    rw [List.foldl_cons]
    dsimp only
    rw [hcursor, ih _ _ hlater hrest (by omega) (by omega) (by unfold wrap64; omega), hsplit,
      hcategory]
    unfold wrap64
    omega

/-- The graduated cost is what the turns charge, in `long` arithmetic. -/
theorem costGraduated_turns {l : List (Bracket Tier)}
    (hgreedy : ∀ s ∈ spans before (categories e), Greedy l m.slice s.start (s.start + s.tokens))
    (hcats : ∀ c ∈ categories e, 0 ≤ c.2) (hbefore : 0 ≤ before)
    (hsize : before + totalTokens (categories e) < 2 ^ 63) :
    m.costGraduated e before mult =
      wrap64 (turnsCost mathRound mult (spanTurns m.slice (spans before (categories e)))) := by
  unfold costGraduated
  rw [foldl_turnsCost (categories e) before 0 hgreedy hcats hbefore hsize rfl, zero_add]

theorem greedy_spans (hvalid : Loader.validBounds (-1) m.tiers) (hfits : m.BoundsFit)
    (hcats : ∀ c ∈ categories e, 0 ≤ c.2) (hbefore : 0 ≤ before) :
    ∀ s ∈ spans before (categories e),
      Greedy (tierBrackets m.tiers) m.slice s.start (s.start + s.tokens) := by
  intro s hs
  obtain ⟨hstart, -, -⟩ := mem_spans hcats s hs
  have hnonneg : 0 ≤ s.start := by omega
  exact greedy_slice hnonneg fun i hi _ => findsTier_of_fits hvalid hfits (by omega)

/-- The graduated cost is the price per token, in `long` arithmetic. -/
theorem costGraduated_perToken (hvalid : Loader.validBounds (-1) m.tiers) (hfits : m.BoundsFit)
    (hcats : ∀ c ∈ categories e, 0 ≤ c.2) (hbefore : 0 ≤ before)
    (hsize : before + totalTokens (categories e) < 2 ^ 63) :
    m.costGraduated e before mult =
      wrap64 (perTokenCost mathRound m.tiers mult (spans before (categories e))) := by
  have hgreedy := greedy_spans hvalid hfits hcats hbefore
  rw [costGraduated_turns hgreedy hcats hbefore hsize,
    turnsCost_spanTurns mathRound_zero mult (ascending_of_valid hvalid (by norm_num)) hgreedy]

end ModelPricing

/-! ### The Python loop -/

namespace Loader.ModelPricing
variable {p : Loader.ModelPricing} {mult : ℚ} {event : Dict} {before : ℤ}

theorem tierAtToken_label (htiers : p.tiers ≠ []) {i : ℤ} (hi : 0 ≤ i) :
    ∃ b ∈ tierBrackets p.tiers, b.Contains i ∧ p.tierAtToken i = b.label := by
  obtain ⟨b, hb, hcontains, hfind⟩ :=
    exists_contains (ascending_of_valid (p.bounded htiers) (by norm_num)) hi
  refine ⟨b, hb, hcontains, ?_⟩
  unfold tierAtToken
  rw [if_neg htiers]
  dsimp only
  rw [find_tier, hfind]
  rfl

theorem capacity_eq (htiers : p.tiers ≠ []) (remaining : ℤ) {cursor : ℤ} (hcursor : 0 ≤ cursor) :
    ∃ b ∈ tierBrackets p.tiers, b.Contains cursor ∧ p.tierAtToken cursor = b.label ∧
      p.capacity remaining cursor = b.room remaining cursor := by
  obtain ⟨b, hb, hcontains, htier⟩ := tierAtToken_label htiers hcursor
  refine ⟨b, hb, hcontains, htier, ?_⟩
  obtain ⟨-, hstop⟩ := label_of_mem b hb
  unfold capacity Bracket.room
  unfold tierStop at hstop
  dsimp only
  rw [htier]
  cases hupTo : b.label.upToTokensM with
  | none =>
    have hend : tierEndTokens b.label = maxTierEnd := by unfold tierEndTokens; rw [hupTo]
    rw [hupTo] at hstop
    rw [hend, if_pos rfl, hstop]
    rfl
  | some upTo =>
    have hend : tierEndTokens b.label = upTo * 1000000 := by unfold tierEndTokens; rw [hupTo]
    rw [hupTo] at hstop
    -- the sentinel is no multiple of a million
    rw [hend, if_neg (by unfold maxTierEnd; omega), hstop]
    rfl

theorem capacity_pos (htiers : p.tiers ≠ []) {remaining cursor : ℤ} (hpos : 0 < remaining)
    (hcursor : 0 ≤ cursor) : 0 < p.capacity remaining cursor := by
  obtain ⟨b, -, hcontains, -, hroom⟩ := capacity_eq htiers remaining hcursor
  rw [hroom]
  exact (Bracket.room_bounds hpos hcontains).1

theorem greedy_slice (htiers : p.tiers ≠ []) {lo : ℤ} (hlo : 0 ≤ lo) (hi : ℤ) :
    Greedy (tierBrackets p.tiers) p.slice lo hi := by
  intro remaining cursor hpos hcursor _
  have hnonneg : 0 ≤ cursor := by omega
  obtain ⟨b, hb, hcontains, htier, hroom⟩ := capacity_eq htiers remaining hnonneg
  have hguard := capacity_pos htiers hpos hnonneg
  refine ⟨b, hb, hcontains, ?_⟩
  unfold slice
  rw [if_neg (by omega), htier, hroom]

theorem graduatedLoop_walk {lo hi : ℤ} (hgreedy : Greedy (tierBrackets p.tiers) p.slice lo hi)
    (category : Category) (fuel : ℕ) : ∀ remaining cursor cost : ℤ, remaining ≤ fuel →
      0 ≤ remaining → lo ≤ cursor → cursor + remaining = hi →
      p.graduatedLoop mult category fuel remaining cursor cost =
        (cost + ((walk p.slice fuel remaining cursor).map fun t =>
          pyRound (t.capacity * rateFor t.label mult category)).sum, hi) := by
  induction fuel with
  | zero =>
    intro remaining cursor cost hfuel hnonneg _ hhi
    have hcursor : cursor = hi := by omega
    simp only [graduatedLoop, walk, List.map_nil, List.sum_nil, add_zero, hcursor]
  | succ fuel ih =>
    intro remaining cursor cost hfuel hnonneg hlo hhi
    unfold graduatedLoop walk
    split_ifs with hpos
    · obtain ⟨hone, hmost⟩ := slice_bounds_of_greedy hgreedy hpos hlo hhi
      dsimp only
      rw [ih _ _ _ (by omega) (by omega) (by omega) (by omega), List.map_cons, List.sum_cons,
        add_assoc]
    · have hcursor : cursor = hi := by omega
      simp only [List.map_nil, List.sum_nil, add_zero, hcursor]

theorem foldl_turnsCost (htiers : p.tiers ≠ []) (cats : List (Category × ℤ)) :
    ∀ start cost : ℤ, (∀ c ∈ cats, 0 ≤ c.2) → 0 ≤ start →
      (cats.foldl (fun (s : ℤ × ℤ) (c : Category × ℤ) =>
          let r := p.costCategoryGraduated c.2 s.1 mult c.1
          (r.2, s.2 + r.1)) (start, cost)).2 =
        cost + turnsCost pyRound mult (spanTurns p.slice (spans start cats)) := by
  induction cats with
  | nil =>
    intro start cost _ _
    simp only [List.foldl_nil, spans, spanTurns, turnsCost, List.flatMap_nil, List.map_nil,
      List.sum_nil, add_zero]
  | cons c cats ih =>
    intro start cost hcats hstart
    obtain ⟨hfirst, hrest⟩ := List.forall_mem_cons.mp hcats
    have hspans : spans start (c :: cats) = ⟨c.1, start, c.2⟩ :: spans (start + c.2) cats := rfl
    have hcategory : p.costCategoryGraduated c.2 start mult c.1 =
        (((walk p.slice c.2.toNat c.2 start).map fun t =>
          pyRound (t.capacity * rateFor t.label mult c.1)).sum, start + c.2) := by
      unfold costCategoryGraduated
      rw [graduatedLoop_walk (greedy_slice htiers hstart _) c.1 c.2.toNat c.2 start 0 (by omega)
        hfirst (le_refl start) rfl, zero_add]
    rw [List.foldl_cons]
    dsimp only
    rw [hcategory]
    dsimp only
    rw [ih _ _ hrest (by omega)]
    unfold turnsCost spanTurns
    rw [hspans, List.flatMap_cons, List.map_append, List.sum_append, List.map_map, add_assoc]
    rfl

/-- The graduated cost is the price per token. -/
theorem costGraduated_perToken (htiers : p.tiers ≠ [])
    (hcats : ∀ c ∈ Loader.categories event, 0 ≤ c.2) (hbefore : 0 ≤ before) :
    Loader.costGraduated event p before mult =
      perTokenCost pyRound p.tiers mult (spans before (Loader.categories event)) := by
  have hgreedy : ∀ s ∈ spans before (Loader.categories event),
      Greedy (tierBrackets p.tiers) p.slice s.start (s.start + s.tokens) := by
    intro s hs
    obtain ⟨hstart, -, -⟩ := mem_spans hcats s hs
    exact greedy_slice htiers (by omega) _
  have hturns := turnsCost_spanTurns pyRound_zero mult
    (ascending_of_valid (p.bounded htiers) (by omega)) hgreedy
  unfold Loader.costGraduated
  rw [foldl_turnsCost htiers (Loader.categories event) before 0 hcats hbefore, zero_add, hturns]

end Loader.ModelPricing

/-! ### Both loops -/

/-- What a loop over the categories of an event does besides adding up the price. -/
structure Sound (tiers : List Tier) (slice : ℤ → ℤ → Tier × ℤ) (capacity : ℤ → ℤ → ℤ) (before : ℤ)
    (cats : List (Category × ℤ)) : Prop where
  charged : ChargedOnce tiers before cats (spanTurns slice (spans before cats))
  /-- The guard against misconfigured tiers is not taken. -/
  unguarded : ∀ t ∈ spanTurns slice (spans before cats), 0 < capacity t.2.remaining t.2.cursor

theorem sound_of_greedy {tiers : List Tier} {slice : ℤ → ℤ → Tier × ℤ} {capacity : ℤ → ℤ → ℤ}
    {before : ℤ} {cats : List (Category × ℤ)} (hcats : ∀ c ∈ cats, 0 ≤ c.2)
    (hgreedy : ∀ s ∈ spans before cats,
      Greedy (tierBrackets tiers) slice s.start (s.start + s.tokens))
    (hcapacity : ∀ remaining cursor, 0 < remaining → before ≤ cursor →
      cursor + remaining ≤ before + totalTokens cats → 0 < capacity remaining cursor) :
    Sound tiers slice capacity before cats where
  charged := chargedOnce_of_greedy hcats hgreedy
  unguarded t ht := by
    obtain ⟨s, hs, ht⟩ := List.mem_flatMap.mp ht
    obtain ⟨turn, hturn, rfl⟩ := List.mem_map.mp ht
    obtain ⟨hstart, -, hend⟩ := mem_spans hcats s hs
    obtain ⟨hpos, hcursor, hstop, -⟩ :=
      walk_range (hgreedy s hs) _ s.tokens s.start (le_refl s.start) rfl turn hturn
    apply hcapacity turn.remaining turn.cursor hpos <;> omega

/-- Both graduated loops end, never take their guard, charge every token once at the tier of its
index, and add up to the price per token: in Python exactly, in Java in `long` arithmetic. -/
theorem graduated_per_token {m : ModelPricing} {p : Loader.ModelPricing} {e : TokenEvent}
    {event : Dict} {before : ℤ} (mult : ℚ) (hm : Loader.validBounds (-1) m.tiers)
    (hfits : m.BoundsFit) (hp : p.tiers ≠ []) (he : ∀ c ∈ ModelPricing.categories e, 0 ≤ c.2)
    (hevent : ∀ c ∈ Loader.categories event, 0 ≤ c.2) (hbefore : 0 ≤ before)
    (hsize : before + totalTokens (ModelPricing.categories e) < 2 ^ 63) :
    (Sound m.tiers m.slice m.capacity before (ModelPricing.categories e) ∧
      (∀ s ∈ spans before (ModelPricing.categories e), ∀ extra,
        m.graduatedLoop mult s.category (s.tokens.toNat + extra) s.tokens s.start 0 =
          m.costCategoryGraduated s.tokens s.start mult s.category) ∧
      m.costGraduated e before mult = wrap64 (perTokenCost mathRound m.tiers mult
        (spans before (ModelPricing.categories e)))) ∧
    (Sound p.tiers p.slice p.capacity before (Loader.categories event) ∧
      (∀ s ∈ spans before (Loader.categories event), ∀ extra,
        p.graduatedLoop mult s.category (s.tokens.toNat + extra) s.tokens s.start 0 =
          p.costCategoryGraduated s.tokens s.start mult s.category) ∧
      Loader.costGraduated event p before mult = perTokenCost Loader.pyRound p.tiers mult
        (spans before (Loader.categories event))) := by
  refine ⟨⟨?_, ?_, ?_⟩, ?_, ?_, ?_⟩
  · apply sound_of_greedy he (ModelPricing.greedy_spans hm hfits he hbefore)
    intro remaining cursor hpos hcursor _
    have hnonneg : 0 ≤ cursor := by omega
    exact ModelPricing.capacity_pos (ModelPricing.findsTier_of_fits hm hfits hnonneg) hpos hnonneg
  · intro s _ extra
    exact graduatedLoop_fuel m mult s.category s.tokens.toNat extra s.tokens s.start 0 (by omega)
  · exact ModelPricing.costGraduated_perToken hm hfits he hbefore hsize
  · apply sound_of_greedy hevent
    · intro s hs
      obtain ⟨hstart, -, -⟩ := mem_spans hevent s hs
      exact Loader.ModelPricing.greedy_slice hp (by omega) _
    · intro remaining cursor hpos hcursor _
      exact Loader.ModelPricing.capacity_pos hp hpos (by omega)
  · intro s hs extra
    obtain ⟨hstart, hnonneg, -⟩ := mem_spans hevent s hs
    have hstart' : 0 ≤ s.start := by omega
    have hgreedy := Loader.ModelPricing.greedy_slice hp hstart' (s.start + s.tokens)
    unfold Loader.ModelPricing.costCategoryGraduated
    rw [Loader.ModelPricing.graduatedLoop_walk hgreedy s.category _ s.tokens s.start 0 (by omega)
        hnonneg (le_refl s.start) rfl,
      Loader.ModelPricing.graduatedLoop_walk hgreedy s.category _ s.tokens s.start 0 (by omega)
        hnonneg (le_refl s.start) rfl,
      walk_fuel hgreedy _ extra s.tokens s.start (by omega) (le_refl s.start) rfl]
  · exact Loader.ModelPricing.costGraduated_perToken hp hevent hbefore

/-- Half price from the second million tokens on. -/
def tieredModel : Loader.ModelPricing where
  pricingMode := .graduated
  inputPerM := 2
  outputPerM := 4
  embeddingPerM := 1
  tiers := [⟨some 1, 2, 4, 1⟩, ⟨none, 1, 2, 1⟩]
  tiered := by simp
  bounded _ := by decide
  priced := by decide
  base := by decide

theorem graduated_per_token_boundary :
    tieredModel.costGraduated { inputTokens := 3, outputTokens := 2 } 999998 (1 / 2) =
        wrap64 (perTokenCost mathRound tieredModel.tiers (1 / 2)
          (spans 999998 (ModelPricing.categories { inputTokens := 3, outputTokens := 2 }))) ∧
      Loader.costGraduated [("inputTokens", .num 3)] tieredModel 999998 (1 / 2) =
        perTokenCost Loader.pyRound tieredModel.tiers (1 / 2)
          (spans 999998 (Loader.categories [("inputTokens", .num 3)])) := by
  have hfits : tieredModel.toModelPricing.BoundsFit := by
    intro tier htier upTo hupTo
    simp only [tieredModel, List.mem_cons, List.not_mem_nil, or_false] at htier
    rcases htier with rfl | rfl
    · cases hupTo
      norm_num
    · cases hupTo
  have htiers : tieredModel.tiers ≠ [] := by simp [tieredModel]
  have he : ∀ c ∈ ModelPricing.categories { inputTokens := 3, outputTokens := 2 }, 0 ≤ c.2 := by
    decide
  have hevent : ∀ c ∈ Loader.categories [("inputTokens", .num 3)], 0 ≤ c.2 := by decide
  have hbefore : (0 : ℤ) ≤ 999998 := by norm_num
  have hboth := graduated_per_token (1 / 2) (by decide) hfits htiers he hevent hbefore (by decide)
  exact ⟨hboth.1.2.2, hboth.2.2.2⟩

/-- A price beyond `long`. -/
def overflowingModel : ModelPricing where
  pricingMode := .graduated
  inputPerM := 10 ^ 19
  outputPerM := 10 ^ 19
  embeddingPerM := 0
  tiers := [⟨none, 10 ^ 19, 10 ^ 19, 0⟩]
  tiered := by simp

private theorem overflowingModel_perToken : perTokenCost mathRound overflowingModel.tiers 0
    (spans 0 (ModelPricing.categories { inputTokens := 1, outputTokens := 1 })) = 2 ^ 64 - 2 := by
  decide +kernel

/-- The Java loop returns a negative price where the rounded charges add up to more than a
`long`. -/
theorem not_graduated_sum : ¬ ∀ (m : ModelPricing) (e : TokenEvent) (before : ℤ) (mult : ℚ),
    Loader.validBounds (-1) m.tiers → m.BoundsFit →
    (∀ c ∈ ModelPricing.categories e, 0 ≤ c.2) → 0 ≤ before →
    before + totalTokens (ModelPricing.categories e) < 2 ^ 63 →
    m.costGraduated e before mult =
      perTokenCost mathRound m.tiers mult (spans before (ModelPricing.categories e)) := by
  intro h
  have hfits : overflowingModel.BoundsFit := by
    intro tier htier upTo hupTo
    rw [List.mem_singleton.mp htier] at hupTo
    cases hupTo
  have hsum := h overflowingModel { inputTokens := 1, outputTokens := 1 } 0 0 (by decide) hfits
    (by decide) (le_refl 0) (by decide)
  rw [ModelPricing.costGraduated_perToken (by decide) hfits (by decide) (le_refl 0) (by decide),
    overflowingModel_perToken] at hsum
  revert hsum
  decide

end FluxMeter.Pricing
