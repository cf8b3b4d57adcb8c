import FluxMeter.Job.Lateness

/-! The monthly volume that `MonthlyVolumeStampFunction` stamps on the events of one aggregation
key. The meter keeps one period: it starts again at zero whenever the month changes, in either
direction. -/
namespace FluxMeter.Job
open FluxMeter.Keys FluxMeter.Model

structure Arrival (ι : Type*) where
  index : ι
  watermark : ℤ
  event : TokenEvent

namespace Pipeline
variable {ι : Type*}

def arrive (A : Aggregator) (s : Pipeline ι) (a : Arrival ι) : Pipeline ι :=
  s.process A a.watermark a.index a.event

/-- The events of one aggregation key that reach `MonthlyVolumeStampFunction`, in their order. -/
def admitted (A : Aggregator) (key : String) : Pipeline ι → List (Arrival ι) → List TokenEvent
  | _, [] => []
  | s, a :: as =>
    let rest := admitted A key (s.arrive A a) as
    if reachesStamp A a.watermark a.event s && a.event.getAggregationKey = key then
      a.event :: rest
    else rest

def stamps (A : Aggregator) (key : String) : Pipeline ι → List (Arrival ι) → List (TokenEvent × ℤ)
  | _, [] => []
  | s, a :: as =>
    let rest := stamps A key (s.arrive A a) as
    if reachesStamp A a.watermark a.event s && a.event.getAggregationKey = key then
      (a.event, (s.meters key).tokensBefore a.event.timestamp) :: rest
    else rest

end Pipeline

def SameMonth (e e' : TokenEvent) : Prop := monthUtc e.timestamp = monthUtc e'.timestamp

instance (e e' : TokenEvent) : Decidable (SameMonth e e') :=
  inferInstanceAs (Decidable (monthUtc e.timestamp = monthUtc e'.timestamp))

/-- The total tokens of the events in the month of `e`. -/
def monthTokens (es : List TokenEvent) (e : TokenEvent) : ℤ :=
  ((es.filter fun x => SameMonth x e).map TokenEvent.getTotalTokens).sum

/-- Every stamp is the volume of the events of its month that arrived before. -/
def StampsMonthlyVolume (l : List (TokenEvent × ℤ)) : Prop :=
  ∀ earlier p later, l = earlier ++ p :: later → p.2 = monthTokens (earlier.map Prod.fst) p.1

/-- Where the month changes from one event to the next, the new month has no tokens yet; where
it stays, its tokens fit a `long`. -/
def MonthsInTurn (es : List TokenEvent) : Prop :=
  ∀ earlier e e' later, es = earlier ++ e :: e' :: later →
    (SameMonth e e' → isLong (monthTokens (earlier ++ [e]) e')) ∧
    (¬ SameMonth e e' → monthTokens (earlier ++ [e]) e' = 0)

/-! ### The meter -/

private theorem monthTokens_append (es es' : List TokenEvent) (e : TokenEvent) :
    monthTokens (es ++ es') e = monthTokens es e + monthTokens es' e := by
  unfold monthTokens
  rw [List.filter_append, List.map_append, List.sum_append]

theorem monthTokens_of_sameMonth {e e' : TokenEvent} (h : SameMonth e e') (es : List TokenEvent) :
    monthTokens (es ++ [e]) e' = monthTokens es e + e.getTotalTokens := by
  have hmonth : ∀ x, SameMonth x e' ↔ SameMonth x e := by
    intro x
    unfold SameMonth at h ⊢
    rw [h]
  have hown : monthTokens [e] e' = e.getTotalTokens := by
    simp [monthTokens, h]
  have hearlier : monthTokens es e' = monthTokens es e := by
    unfold monthTokens
    simp only [hmonth]
  rw [monthTokens_append, hown, hearlier]

theorem wrap64_eq_self_iff (x : ℤ) : wrap64 x = x ↔ isLong x := by
  unfold wrap64 isLong
  omega

namespace MonthlyVolumeMeter
variable (m : MonthlyVolumeMeter)

/-- One event through `MonthlyVolumeStampFunction.processElement`. -/
def take (e : TokenEvent) : MonthlyVolumeMeter := m.advance e.timestamp e.getTotalTokens

/-- What the meter says after an event: the volume counts on within the month and starts again
outside of it. -/
theorem tokensBefore_take (e e' : TokenEvent) :
    (m.take e).tokensBefore e'.timestamp =
      if SameMonth e e' then wrap64 (m.tokensBefore e.timestamp + e.getTotalTokens) else 0 := by
  have hperiod : (m.rollPeriodIfNeeded e.timestamp).billingPeriod = some (monthUtc e.timestamp) := by
    unfold rollPeriodIfNeeded
    split_ifs with hm
    · exact hm
    · rfl
  unfold take advance
  rw [tokensBefore, rollPeriodIfNeeded]
  dsimp only
  rw [hperiod]
  by_cases hmonth : SameMonth e e'
  · rw [if_pos (congrArg some hmonth), if_pos hmonth]
    rfl
  · rw [if_neg (fun heq => hmonth (Option.some.inj heq)), if_neg hmonth]

theorem tokensBefore_fresh (timestamp : ℤ) : tokensBefore {} timestamp = 0 := by
  unfold tokensBefore rollPeriodIfNeeded
  split_ifs <;> rfl

/-- The volumes stamped from a meter on. -/
def Stamped (l : List (TokenEvent × ℤ)) : Prop :=
  ∀ earlier p later, l = earlier ++ p :: later →
    p.2 = ((earlier.map Prod.fst).foldl take m).tokensBefore p.1.timestamp

variable {m}

theorem Stamped.cons {l : List (TokenEvent × ℤ)} {e : TokenEvent} (h : (m.take e).Stamped l) :
    m.Stamped ((e, m.tokensBefore e.timestamp) :: l) := by
  intro earlier p later heq
  cases earlier with
  | nil =>
    obtain ⟨rfl, -⟩ := List.cons.inj heq
    rfl
  | cons q earlier =>
    obtain ⟨rfl, hrest⟩ := List.cons.inj heq
    exact h earlier p later hrest

/-- The stamps of a fresh meter are the monthly volumes exactly when the months come in turn. -/
theorem Stamped.monthlyVolume_iff {l : List (TokenEvent × ℤ)} (h : Stamped {} l) :
    StampsMonthlyVolume l ↔ MonthsInTurn (l.map Prod.fst) := by
  constructor
  case mp =>
    intro hvolume earlier e e' later heq
    obtain ⟨before, rest, hl, hbefore, hrest⟩ := List.map_eq_append_iff.mp heq
    obtain ⟨p, tail, hp₀, hpe, htail⟩ := List.map_eq_cons_iff.mp hrest
    obtain ⟨p', after, hp₁, hpe', -⟩ := List.map_eq_cons_iff.mp htail
    subst hl hbefore hp₀ hpe hp₁ hpe'
    have hp := hvolume before p (p' :: after) rfl
    have hp' := hvolume (before ++ [p]) p' after (by simp)
    have hstamp := h before p (p' :: after) rfl
    have hstamp' := h (before ++ [p]) p' after (by simp)
    simp only [List.map_append, List.map_cons, List.map_nil, List.foldl_append, List.foldl_cons,
      List.foldl_nil] at hp' hstamp'
    rw [tokensBefore_take, ← hstamp, hp] at hstamp'
    constructor
    · intro hmonth
      rw [if_pos hmonth, ← monthTokens_of_sameMonth hmonth, hp'] at hstamp'
      exact (wrap64_eq_self_iff _).mp hstamp'.symm
    · intro hmonth
      rw [if_neg hmonth] at hstamp'
      rw [← hp', hstamp']
  case mpr =>
    intro hturn earlier
    -- the stamp of the event before gives the stamp of the next
    induction earlier using List.reverseRecOn with
    | nil =>
      intro p later heq
      rw [h [] p later heq]
      exact tokensBefore_fresh _
    | append_singleton earlier q ih =>
      intro p later heq
      have hq := ih q (p :: later) (by simp [heq])
      have hstamp := h earlier q (p :: later) (by simp [heq])
      have hstamp' := h (earlier ++ [q]) p later heq
      have hnext := hturn (earlier.map Prod.fst) q.1 p.1 (later.map Prod.fst) (by simp [heq])
      simp only [List.map_append, List.map_cons, List.map_nil, List.foldl_append, List.foldl_cons,
        List.foldl_nil] at hstamp' ⊢
      rw [tokensBefore_take, ← hstamp, hq] at hstamp'
      rw [hstamp']
      by_cases hmonth : SameMonth q.1 p.1
      · have hfits := hnext.1 hmonth
        rw [if_pos hmonth]
        rw [monthTokens_of_sameMonth hmonth] at hfits ⊢
        exact (wrap64_eq_self_iff _).mpr hfits
      · rw [if_neg hmonth, hnext.2 hmonth]

end MonthlyVolumeMeter

/-! ### The meters of the pipeline -/

namespace Pipeline
variable {ι : Type*} {A : Aggregator}

private theorem project_meters (i : ι) (e : TokenEvent) (s : Pipeline ι) :
    (project A i e s).meters = s.meters := by
  unfold project
  dsimp only
  split_ifs <;> rfl

private theorem bill_meters (watermark : ℤ) (i : ι) (e : TokenEvent) (s : Pipeline ι) :
    (bill A watermark i e s).meters =
      Function.update s.meters e.getAggregationKey ((s.meters e.getAggregationKey).take e) := by
  unfold bill addToWindow
  dsimp only
  split_ifs <;> exact project_meters _ _ _

private theorem process_meters (watermark : ℤ) (i : ι) (e : TokenEvent) (s : Pipeline ι) :
    (process A watermark i e s).meters =
      if reachesStamp A watermark e s then
        Function.update s.meters e.getAggregationKey ((s.meters e.getAggregationKey).take e)
      else s.meters := by
  split_ifs with hreach
  · obtain ⟨seen, -, hbilled⟩ := process_of_reachesStamp i hreach
    rw [hbilled, bill_meters]
  · exact (process_of_not_reachesStamp i (by simpa using hreach)).1

theorem map_fst_stamps (key : String) (s : Pipeline ι) (as : List (Arrival ι)) :
    (stamps A key s as).map Prod.fst = admitted A key s as := by
  induction as generalizing s with
  | nil => rfl
  | cons a as ih =>
    unfold stamps admitted
    dsimp only
    split_ifs
    · rw [List.map_cons, ih]
    · exact ih _

theorem stamps_stamped (key : String) (s : Pipeline ι) (as : List (Arrival ι)) :
    (s.meters key).Stamped (stamps A key s as) := by
  induction as generalizing s with
  | nil =>
    intro earlier p later heq
    simp [stamps] at heq
  | cons a as ih =>
    have hrest := ih (s.arrive A a)
    have hmeters : (s.arrive A a).meters = _ := process_meters a.watermark a.index a.event s
    unfold stamps
    dsimp only
    by_cases hown : (reachesStamp A a.watermark a.event s && a.event.getAggregationKey = key) = true
    · rw [if_pos hown]
      rw [Bool.and_eq_true, decide_eq_true_iff] at hown
      rw [hmeters, if_pos hown.1, hown.2, Function.update_self] at hrest
      exact hrest.cons
    · rw [if_neg hown]
      have hkeep : (s.arrive A a).meters key = s.meters key := by
        rw [hmeters]
        split_ifs with hreach
        · apply Function.update_of_ne
          intro heq
          exact hown (by simp [hreach, heq])
        · rfl
      rw [← hkeep]
      exact hrest

end Pipeline

/-- In every run and for every key, the stamped volumes are the monthly volumes exactly when the
months come in turn. -/
theorem stampsMonthlyVolume_iff {ι : Type*} (A : Aggregator) (key : String)
    (as : List (Arrival ι)) :
    StampsMonthlyVolume (Pipeline.stamps A key {} as) ↔
      MonthsInTurn (Pipeline.admitted A key {} as) := by
  rw [← Pipeline.map_fst_stamps]
  exact (Pipeline.stamps_stamped key {} as).monthlyVolume_iff

/-- A usage event of the customer `acme` at a time. -/
def usageAt (eventId : String) (timestamp inputTokens : ℤ) : TokenEvent :=
  { eventId := some eventId, customerId := some "acme", modelId := some "gpt-4o",
    timestamp := timestamp, inputTokens := inputTokens }

/-- Two events of 31 January 2024 with one of 1 February between them, two seconds early. -/
def aroundMidnight : List (Arrival ℕ) :=
  [⟨0, -(2 ^ 63), usageAt "e1" 1706745598000 100⟩,
    ⟨1, 1706745592999, usageAt "e2" 1706745601000 50⟩,
    ⟨2, 1706745595999, usageAt "e3" 1706745599000 7⟩]

/-- The second event of January is stamped with zero, after a hundred tokens of its month. -/
theorem restarts_within_month :
    Pipeline.stamps tenSecondJob "acme|gpt-4o" {} aroundMidnight =
      [(usageAt "e1" 1706745598000 100, 0), (usageAt "e2" 1706745601000 50, 0),
        (usageAt "e3" 1706745599000 7, 0)] ∧
    ¬ StampsMonthlyVolume (Pipeline.stamps tenSecondJob "acme|gpt-4o" {} aroundMidnight) := by
  have hstamps : Pipeline.stamps tenSecondJob "acme|gpt-4o" {} aroundMidnight =
      [(usageAt "e1" 1706745598000 100, 0), (usageAt "e2" 1706745601000 50, 0),
        (usageAt "e3" 1706745599000 7, 0)] := by
    decide +kernel
  refine ⟨hstamps, fun hvolume => ?_⟩
  rw [hstamps] at hvolume
  have hthird := hvolume [_, _] _ [] rfl
  revert hthird
  decide +kernel

end FluxMeter.Job
