import FluxMeter.Keys.CivilCalendar
import Mathlib.Data.List.Iterate

/-! Billing months as the reports of `api/intelligence` take them apart: the year and the number of a
month, the months before it and its days. -/
namespace FluxMeter.Intelligence
open FluxMeter.Keys FluxMeter.Wire

/-- `int(period[:4]), int(period[5:7])`. -/
def yearMonth (period : String) : Option (ℤ × ℤ) :=
  (parseInt (period.toList.take 4)).bind fun year =>
    (parseInt ((period.toList.drop 5).take 2)).map fun month => (year, month)

/-- `f"{y:04d}-{m:02d}"`. -/
def periodText (year month : ℤ) : String := padded 4 year ++ "-" ++ padded 2 month

/-- The loop of `_prior_periods`, the latest month first. -/
def monthsBack : ℕ → ℤ → ℤ → List String
  | 0, _, _ => []
  | n + 1, year, month =>
    periodText year month ::
      if month - 1 = 0 then monthsBack n (year - 1) 12 else monthsBack n year (month - 1)

/-- `_prior_periods`. -/
def priorPeriods (period : String) (months : ℕ) : Option (List String) :=
  (yearMonth period).map fun p => (monthsBack months p.1 p.2).reverse

/-- `_prior_period`; a year before December is written without zeros in front. -/
def priorPeriod (period : String) : Option String :=
  (yearMonth period).map fun p =>
    if p.2 = 1 then toString (p.1 - 1) ++ "-12" else periodText p.1 (p.2 - 1)

/-- `calendar.isleap`. -/
def isLeap (year : ℤ) : Bool := year % 4 = 0 && (year % 100 ≠ 0 || year % 400 = 0)

/-- `calendar.monthrange(year, month)[1]`; another number than that of a month raises. -/
def monthrange (year month : ℤ) : Option ℤ :=
  if month < 1 ∨ 12 < month then none
  else if month = 2 then some (if isLeap year then 29 else 28)
  else if month = 4 ∨ month = 6 ∨ month = 9 ∨ month = 11 then some 30
  else some 31

/-- `_days_in_period`. -/
def daysInPeriod (period : String) : Option ℤ := (yearMonth period).bind fun p => monthrange p.1 p.2

/-- `_current_day_of_month` at the instant `now`. -/
def currentDayOfMonth (now : ℤ) (period : String) : Option ℤ :=
  (yearMonth period).bind fun p =>
    if (utcDate now).year = p.1 ∧ (utcDate now).month = p.2 then some (utcDate now).day
    else daysInPeriod period

theorem length_padded_four {n : ℤ} (h : 0 ≤ n) (h' : n < 10000) :
    (padded 4 n).toList.length = 4 := by
  have hsmall : (toString n.natAbs).length ≤ 4 := by
    have hrepr : (toString n.natAbs).toList = Nat.toDigits 10 n.natAbs := Nat.toList_repr
    rw [← String.length_toList, hrepr]
    exact (Nat.length_toDigits_le_iff (by decide) (by decide)).mpr (by omega)
  unfold padded
  dsimp only
  rw [if_neg (by omega), String.empty_append, String.toList_append, String.toList_ofList,
    List.length_append, List.length_replicate, String.length_toList, String.length_empty]
  omega

/-! ### Months in a row -/

/-- Midnight before the first day of the month with a number, counted as in `CivilDate.months`. -/
def monthStart (n : ℤ) : ℤ :=
  86400000 * (146097 * ((n - 3) / 12 / 400) +
    (yearStart ((n - 3) / 12 % 400) + (153 * ((n - 3) % 12) + 2) / 5) - 719468)

theorem months_monthStart (n : ℤ) : (utcDate (monthStart n)).months = n := by
  generalize hera : (n - 3) / 12 / 400 = era
  generalize hyoe : (n - 3) / 12 % 400 = yoe
  generalize hmp : (n - 3) % 12 = mp
  have hyear : 0 ≤ yoe ∧ yoe < 400 := by omega
  have hmonth : 0 ≤ mp ∧ mp ≤ 11 := by omega
  have hstart : 0 ≤ yearStart yoe ∧ yearStart yoe + 365 ≤ yearStart (yoe + 1) ∧
      yearStart yoe ≤ 145731 := by
    unfold yearStart
    omega
  generalize hdays : 146097 * era + (yearStart yoe + (153 * mp + 2) / 5) - 719468 = days
  have hdate : utcDate (monthStart n) = civilFromDays days := by
    unfold utcDate monthStart
    rw [hera, hyoe, hmp, hdays, Int.mul_ediv_cancel_left _ (by decide)]
  have hdoe : (days + 719468) % 146097 = yearStart yoe + (153 * mp + 2) / 5 := by omega
  have heraOf : eraOf days = era := by
    unfold eraOf
    omega
  have hyearOf : yearOf days = yoe := by
    have hlow := yearOfEra_mono
      (show yearStart yoe ≤ yearStart yoe + (153 * mp + 2) / 5 by omega)
    have hhigh := yearOfEra_mono
      (show yearStart yoe + (153 * mp + 2) / 5 ≤ yearStart (yoe + 1) - 1 by omega)
    obtain ⟨hfirst, hlast⟩ := yearOfEra_start hyear.1 hyear.2
    have hself : yearOf days = yearOfEra ((days + 719468) % 146097) := rfl
    rw [hself, hdoe]
    omega
  have hmarch : marchMonth days = mp := by
    unfold marchMonth dayOfYear
    rw [hdoe, hyearOf]
    omega
  rw [hdate, civil_months, heraOf, hyearOf, hmarch]
  omega

theorem periodText_eq {year month t : ℤ} (hmonth : 1 ≤ month ∧ month ≤ 12)
    (h : (utcDate t).months = 12 * year + month) : periodText year month = monthUtc t := by
  have hbounds := (civil_bounds (t / 86400000)).1
  have hmonths : 12 * (utcDate t).year + (utcDate t).month = 12 * year + month := h
  have hdate : utcDate t = civilFromDays (t / 86400000) := rfl
  rw [← hdate] at hbounds
  have hyear : (utcDate t).year = year := by omega
  have hsame : (utcDate t).month = month := by omega
  unfold periodText monthUtc
  dsimp only
  rw [hyear, hsame]

def FourDigits (t : ℤ) : Prop := 0 ≤ (utcDate t).year ∧ (utcDate t).year < 10000

instance : DecidablePred FourDigits := fun _ => inferInstanceAs (Decidable (_ ∧ _))

theorem yearMonth_monthUtc {t : ℤ} (ht : FourDigits t) :
    yearMonth (monthUtc t) = some ((utcDate t).year, (utcDate t).month) := by
  have hbounds := (civil_bounds (t / 86400000)).1
  have hdate : utcDate t = civilFromDays (t / 86400000) := rfl
  rw [← hdate] at hbounds
  have hlist : (monthUtc t).toList =
      (padded 4 (utcDate t).year).toList ++ '-' :: (padded 2 (utcDate t).month).toList := by
    unfold monthUtc
    simp [String.toList_append]
  have hyear := length_padded_four ht.1 ht.2
  have hmonth : (padded 2 (utcDate t).month).toList.length = 2 :=
    length_padded_two (by omega) (by omega)
  unfold yearMonth
  rw [hlist, List.take_left' hyear, parseInt_padded, Option.bind_some]
  have hdrop : ((padded 4 (utcDate t).year).toList ++
      '-' :: (padded 2 (utcDate t).month).toList).drop 5 = (padded 2 (utcDate t).month).toList := by
    rw [List.drop_append, hyear, List.drop_eq_nil_of_le (by omega), List.nil_append]
    rfl
  rw [hdrop, List.take_of_length_le (by omega), parseInt_padded, Option.map_some]

private theorem monthsBack_eq (n : ℕ) {year month : ℤ} (hmonth : 1 ≤ month ∧ month ≤ 12) :
    monthsBack n year month =
      (List.range n).map fun i => monthUtc (monthStart (12 * year + month - (i : ℕ))) := by
  induction n generalizing year month with
  | zero => rfl
  | succ n ih =>
    have hhead : periodText year month = monthUtc (monthStart (12 * year + month - (0 : ℕ))) :=
      periodText_eq hmonth (by rw [months_monthStart]; omega)
    have htail : (if month - 1 = 0 then monthsBack n (year - 1) 12
        else monthsBack n year (month - 1)) =
        (List.range n).map fun i => monthUtc (monthStart (12 * year + month - (i + 1 : ℕ))) := by
      split_ifs with hfirst
      · rw [ih ⟨by decide, by decide⟩]
        refine List.map_congr_left fun i _ => ?_
        congr 2
        omega
      · rw [ih ⟨by omega, by omega⟩]
        refine List.map_congr_left fun i _ => ?_
        congr 2
        omega
    rw [monthsBack, hhead, htail, List.range_succ_eq_map, List.map_cons, List.map_map]
    rfl

/-- The months of a dashboard: as many as asked for, in their order, the last one that of `t`. -/
theorem priorPeriods_eq {t : ℤ} (ht : FourDigits t) (n : ℕ) :
    priorPeriods (monthUtc t) n = some (((List.range n).map fun i =>
      monthUtc (monthStart ((utcDate t).months - (i : ℕ)))).reverse) := by
  have hbounds := (civil_bounds (t / 86400000)).1
  have hdate : utcDate t = civilFromDays (t / 86400000) := rfl
  rw [← hdate] at hbounds
  unfold priorPeriods
  rw [yearMonth_monthUtc ht, Option.map_some, monthsBack_eq n hbounds]
  rfl

theorem monthUtc_monthStart (t : ℤ) : monthUtc (monthStart (utcDate t).months) = monthUtc t :=
  monthUtc_iff.mpr (months_monthStart _)

/-- The month before a month whose year has four digits and is not one of the first thousand. -/
theorem priorPeriod_eq {t : ℤ} (ht : FourDigits t) (hearly : 1000 < (utcDate t).year) :
    priorPeriod (monthUtc t) = some (monthUtc (monthStart ((utcDate t).months - 1))) := by
  have hbounds := (civil_bounds (t / 86400000)).1
  have hdate : utcDate t = civilFromDays (t / 86400000) := rfl
  rw [← hdate] at hbounds
  have hmonths : (utcDate t).months = 12 * (utcDate t).year + (utcDate t).month := rfl
  unfold priorPeriod
  rw [yearMonth_monthUtc ht, Option.map_some]
  dsimp only
  split_ifs with hfirst
  · have hyear : padded 4 ((utcDate t).year - 1) = toString ((utcDate t).year - 1) := by
      have hnatAbs : ((utcDate t).year - 1).natAbs = ((utcDate t).year - 1).toNat := by omega
      have hlength : ¬ (Nat.toDigits 10 ((utcDate t).year - 1).toNat).length ≤ 3 := by
        rw [Nat.length_toDigits_le_iff (by decide) (by decide)]
        omega
      have hlong : 4 ≤ (toString ((utcDate t).year - 1).toNat).length := by
        have hrepr : (toString ((utcDate t).year - 1).toNat).toList = _ := Nat.toList_repr
        rw [← String.length_toList, hrepr]
        omega
      unfold padded
      dsimp only
      rw [if_neg (by omega), hnatAbs, Nat.sub_eq_zero_of_le (by omega), toString_int,
        if_pos (by omega)]
      exact String.empty_append
    have hmonth : padded 2 12 = "12" := by decide
    have hbefore : 12 * ((utcDate t).year - 1) + 12 = (utcDate t).months - 1 := by omega
    rw [← hbefore, ← periodText_eq ⟨by decide, by decide⟩ (months_monthStart _)]
    unfold periodText
    rw [hyear, hmonth, String.append_assoc]
    rfl
  · have hbefore : 12 * (utcDate t).year + ((utcDate t).month - 1) = (utcDate t).months - 1 := by
      omega
    rw [periodText_eq ⟨by omega, by omega⟩ (months_monthStart _), hbefore]

end FluxMeter.Intelligence
