import FluxMeter.Keys.BillingPeriod
import FluxMeter.Keys.Separator
import FluxMeter.Wire.PythonText
import Mathlib.Data.Int.Order.Basic

/-! Days and months of the civil calendar: dates follow the days in their order, a date tells its
day, and the texts of days and months tell them apart. -/
namespace FluxMeter.Keys
open FluxMeter.Wire

/-! ### From days to dates -/

/-- The year of a day within its era of 400 years, years running from March. -/
def yearOfEra (doe : ℤ) : ℤ := (doe - doe / 1460 + doe / 36524 - doe / 146096) / 365

/-- The first day of a year of the era. -/
def yearStart (yoe : ℤ) : ℤ := 365 * yoe + yoe / 4 - yoe / 100

theorem yearOfEra_mono {doe doe' : ℤ} (h : doe ≤ doe') : yearOfEra doe ≤ yearOfEra doe' := by
  apply Int.ediv_le_ediv (by omega)
  omega

/-- The year of the first day of each year, and of the day before the next one. -/
theorem yearOfEra_start {yoe : ℤ} (h : 0 ≤ yoe) (h' : yoe < 400) :
    yearOfEra (yearStart yoe) = yoe ∧ yearOfEra (yearStart (yoe + 1) - 1) = yoe := by
  have hall : ∀ y : Fin 400, yearOfEra (yearStart (y : ℕ)) = (y : ℕ) ∧
      yearOfEra (yearStart ((y : ℕ) + 1) - 1) = (y : ℕ) := by decide +kernel
  obtain ⟨n, rfl⟩ := Int.eq_ofNat_of_zero_le h
  exact hall ⟨n, by omega⟩

theorem dayOfYear_bounds {doe : ℤ} (h : 0 ≤ doe) (h' : doe < 146097) :
    0 ≤ yearOfEra doe ∧ yearOfEra doe < 400 ∧ 0 ≤ doe - yearStart (yearOfEra doe) ∧
      doe - yearStart (yearOfEra doe) ≤ 365 := by
  have hyear : 0 ≤ yearOfEra doe ∧ yearOfEra doe < 400 := by
    have hlow := yearOfEra_mono h
    have hhigh := yearOfEra_mono (show doe ≤ 146096 by omega)
    have hends : yearOfEra 0 = 0 ∧ yearOfEra 146096 = 399 := by decide
    omega
  obtain ⟨hlow, hhigh⟩ := hyear
  have hstart : yearStart (yearOfEra doe) ≤ doe := by
    by_contra hlt
    have hpositive : 0 < yearOfEra doe := by
      by_contra hzero
      have hyear : yearOfEra doe = 0 := by omega
      rw [hyear] at hlt
      exact hlt h
    have hbefore := (yearOfEra_start (show 0 ≤ yearOfEra doe - 1 by omega) (by omega)).2
    rw [Int.sub_add_cancel] at hbefore
    have hmono := yearOfEra_mono (show doe ≤ yearStart (yearOfEra doe) - 1 by omega)
    omega
  have hend : doe ≤ yearStart (yearOfEra doe) + 365 := by
    by_contra hlt
    by_cases hlast : yearOfEra doe = 399
    · rw [hlast] at hlt
      have hvalue : yearStart 399 = 145731 := by decide
      omega
    · have hnext := (yearOfEra_start (show 0 ≤ yearOfEra doe + 1 by omega) (by omega)).1
      have hlength : yearStart (yearOfEra doe + 1) ≤ yearStart (yearOfEra doe) + 366 := by
        unfold yearStart
        omega
      have hmono := yearOfEra_mono (show yearStart (yearOfEra doe + 1) ≤ doe by omega)
      omega
  omega

/-- The era of a day, its year there, its day there and its month, counted from March. -/
def eraOf (days : ℤ) : ℤ := (days + 719468) / 146097
def yearOf (days : ℤ) : ℤ := yearOfEra ((days + 719468) % 146097)
def dayOfYear (days : ℤ) : ℤ := (days + 719468) % 146097 - yearStart (yearOf days)
def marchMonth (days : ℤ) : ℤ := (5 * dayOfYear days + 2) / 153

/-- How a day is cut into these parts. -/
structure Parts (days : ℤ) : Prop where
  year : 0 ≤ yearOf days ∧ yearOf days < 400
  day : 0 ≤ dayOfYear days ∧ dayOfYear days ≤ 365
  month : 0 ≤ marchMonth days ∧ marchMonth days ≤ 11
  sum : days + 719468 = 146097 * eraOf days + (yearStart (yearOf days) + dayOfYear days)

theorem parts (days : ℤ) : Parts days := by
  obtain ⟨hyear, hyearEnd, hday, hdayEnd⟩ :=
    dayOfYear_bounds (Int.emod_nonneg (days + 719468) (by decide))
      (Int.emod_lt_of_pos (days + 719468) (by decide : (0 : ℤ) < 146097))
  have hbounds : 0 ≤ dayOfYear days ∧ dayOfYear days ≤ 365 := ⟨hday, hdayEnd⟩
  refine ⟨⟨hyear, hyearEnd⟩, hbounds, ?_, ?_⟩
  · unfold marchMonth
    omega
  · unfold eraOf dayOfYear
    omega

/-- The months before a date. -/
def CivilDate.months (d : CivilDate) : ℤ := 12 * d.year + d.month

theorem civil_month (days : ℤ) : (civilFromDays days).month =
    if marchMonth days < 10 then marchMonth days + 3 else marchMonth days - 9 := rfl

theorem civil_day (days : ℤ) : (civilFromDays days).day =
    dayOfYear days - (153 * marchMonth days + 2) / 5 + 1 := rfl

theorem civil_months (days : ℤ) : (civilFromDays days).months =
    12 * (yearOf days + eraOf days * 400) + marchMonth days + 3 := by
  have hyear : (civilFromDays days).year =
      yearOf days + eraOf days * 400 + if (civilFromDays days).month ≤ 2 then 1 else 0 := rfl
  have hbounds := (parts days).month
  unfold CivilDate.months
  rw [hyear, civil_month]
  split_ifs <;> omega

theorem civil_bounds (days : ℤ) :
    (1 ≤ (civilFromDays days).month ∧ (civilFromDays days).month ≤ 12) ∧
      1 ≤ (civilFromDays days).day ∧ (civilFromDays days).day ≤ 31 := by
  have hday := (parts days).day
  have hmonth := (parts days).month
  rw [civil_month, civil_day]
  constructor
  · split_ifs <;> omega
  · unfold marchMonth
    omega

/-- Months follow the days. -/
theorem months_mono {days days' : ℤ} (h : days ≤ days') :
    (civilFromDays days).months ≤ (civilFromDays days').months := by
  have hp := parts days
  have hp' := parts days'
  obtain ⟨hyear, hyear'⟩ := And.intro hp.year hp'.year
  obtain ⟨hmonth, hmonth'⟩ := And.intro hp.month hp'.month
  rw [civil_months, civil_months]
  by_cases hera : eraOf days = eraOf days'
  · have hdoe : (days + 719468) % 146097 ≤ (days' + 719468) % 146097 := by
      unfold eraOf at hera
      omega
    have hyears : yearOf days ≤ yearOf days' := yearOfEra_mono hdoe
    by_cases hsame : yearOf days = yearOf days'
    · have hdays : dayOfYear days ≤ dayOfYear days' := by
        unfold dayOfYear
        rw [hsame]
        omega
      have hmonths : marchMonth days ≤ marchMonth days' := by
        unfold marchMonth
        omega
      omega
    · omega
  · have hless : eraOf days < eraOf days' := by
      unfold eraOf at hera ⊢
      omega
    omega

/-- The first of a month is the same day for all days of the month. -/
theorem sub_day_of_months {days days' : ℤ}
    (h : (civilFromDays days).months = (civilFromDays days').months) :
    days - (civilFromDays days).day = days' - (civilFromDays days').day := by
  have hp := parts days
  have hp' := parts days'
  obtain ⟨hyear, hyear'⟩ := And.intro hp.year hp'.year
  obtain ⟨hmonth, hmonth'⟩ := And.intro hp.month hp'.month
  rw [civil_months, civil_months] at h
  have hmarch : marchMonth days = marchMonth days' := by omega
  have hyears : yearOf days = yearOf days' := by omega
  have hera : eraOf days = eraOf days' := by omega
  have hsum := hp.sum
  have hsum' := hp'.sum
  rw [civil_day, civil_day, hmarch]
  rw [hyears, hera] at hsum
  omega

theorem months_pred {days : ℤ} (h : (civilFromDays days).day ≠ 1) :
    (civilFromDays (days - 1)).months = (civilFromDays days).months := by
  have hp := parts days
  have hday := hp.day
  have hmonth : marchMonth days = (5 * dayOfYear days + 2) / 153 := rfl
  have hdoy : dayOfYear days = (days + 719468) % 146097 - yearStart (yearOf days) := rfl
  rw [civil_day] at h
  have hlate : 0 < dayOfYear days := by omega
  have hstart := (yearOfEra_start hp.year.1 hp.year.2).1
  have hyearStart : 0 ≤ yearStart (yearOf days) := by
    have hyear := hp.year
    unfold yearStart
    omega
  have hera : eraOf (days - 1) = eraOf days := by
    unfold eraOf
    omega
  have hyear : yearOf (days - 1) = yearOf days := by
    have hlow := yearOfEra_mono
      (show yearStart (yearOf days) ≤ (days + 719468) % 146097 - 1 by omega)
    have hhigh := yearOfEra_mono
      (show (days + 719468) % 146097 - 1 ≤ (days + 719468) % 146097 by omega)
    have hpred : yearOf (days - 1) = yearOfEra ((days + 719468) % 146097 - 1) := by
      unfold yearOf
      congr 1
      omega
    have hself : yearOf days = yearOfEra ((days + 719468) % 146097) := rfl
    omega
  have hmarch : marchMonth (days - 1) = marchMonth days := by
    have hpred : dayOfYear (days - 1) = dayOfYear days - 1 := by
      have hvalue : dayOfYear (days - 1) =
          (days - 1 + 719468) % 146097 - yearStart (yearOf (days - 1)) := rfl
      rw [hyear] at hvalue
      omega
    have hvalue : marchMonth (days - 1) = (5 * dayOfYear (days - 1) + 2) / 153 := rfl
    omega
  rw [civil_months, civil_months, hera, hyear, hmarch]

/-! ### Texts -/

theorem digits_padded (k n : ℕ) :
    List.replicate k '0' ++ Nat.toDigits 10 n ≠ [] ∧
      (∀ c ∈ List.replicate k '0' ++ Nat.toDigits 10 n, c.isDigit = true) ∧
      Nat.ofDigitChars 10 (List.replicate k '0' ++ Nat.toDigits 10 n) 0 = n := by
  refine ⟨fun hnil => Nat.toDigits_ne_nil (List.append_eq_nil_iff.mp hnil).2, fun c hc => ?_, ?_⟩
  · rcases List.mem_append.mp hc with h | h
    · rw [List.eq_of_mem_replicate h]
      rfl
    · exact Nat.isDigit_of_mem_toDigits (by omega) (by omega) h
  · rw [Nat.ofDigitChars_append, Nat.ofDigitChars_replicate_zero, Nat.mul_zero,
      Nat.ofDigitChars_ten_toDigits]

theorem toList_padded (width : ℕ) (n : ℤ) : ∃ k, (padded width n).toList =
    (if n < 0 then ['-'] else []) ++ (List.replicate k '0' ++ Nat.toDigits 10 n.natAbs) := by
  refine ⟨width - (if n < 0 then "-" else "").length - (toString n.natAbs).length, ?_⟩
  have hsign : (if n < 0 then "-" else "").toList = if n < 0 then ['-'] else [] := by
    split_ifs <;> rfl
  have hdigits : (toString n.natAbs).toList = Nat.toDigits 10 n.natAbs := Nat.toList_repr
  unfold padded
  dsimp only
  rw [String.toList_append, String.toList_append, String.toList_ofList, List.append_assoc, hsign,
    hdigits]

theorem parseInt_padded (width : ℕ) (n : ℤ) : parseInt (padded width n).toList = some n := by
  obtain ⟨k, hk⟩ := toList_padded width n
  obtain ⟨hne, hdigits, hvalue⟩ := digits_padded k n.natAbs
  rw [hk]
  split_ifs with hn
  · rw [List.singleton_append, parseInt_negative hne hdigits, hvalue]
    exact congrArg some (by omega)
  · rw [List.nil_append, parseInt_digits hne hdigits, hvalue]
    exact congrArg some (by omega)

theorem padded_inj {width : ℕ} {m n : ℤ} (h : padded width m = padded width n) : m = n := by
  have hread := parseInt_padded width m
  rw [h, parseInt_padded] at hread
  exact (Option.some.inj hread).symm

theorem length_padded_two {n : ℤ} (h : 0 ≤ n) (h' : n < 100) :
    (padded 2 n).toList.length = 2 := by
  have hall : ∀ n : Fin 100, (padded 2 (n : ℕ)).toList.length = 2 := by decide +kernel
  obtain ⟨k, rfl⟩ := Int.eq_ofNat_of_zero_le h
  exact hall ⟨k, by omega⟩

theorem padded_two_inj {a a' : String} {n n' : ℤ} (hn : 0 ≤ n ∧ n < 100) (hn' : 0 ≤ n' ∧ n' < 100)
    (h : a ++ "-" ++ padded 2 n = a' ++ "-" ++ padded 2 n') : a = a' ∧ n = n' := by
  have hlist : (a ++ "-").toList ++ (padded 2 n).toList =
      (a' ++ "-").toList ++ (padded 2 n').toList := by
    rw [← String.toList_append, ← String.toList_append, h]
  have hlength : (padded 2 n).toList.length = (padded 2 n').toList.length := by
    rw [length_padded_two hn.1 hn.2, length_padded_two hn'.1 hn'.2]
  obtain ⟨hfront, hend⟩ := List.append_inj' hlist hlength
  have hfronts : a ++ "-" = a' ++ "-" := String.toList_injective hfront
  exact ⟨(String.append_left_inj "-").mp hfronts, padded_inj (String.toList_injective hend)⟩

/-- Two instants have the same text of their month exactly when they are in the same month. -/
theorem monthUtc_iff {t t' : ℤ} :
    monthUtc t = monthUtc t' ↔ (utcDate t).months = (utcDate t').months := by
  have hbounds := (civil_bounds (t / 86400000)).1
  have hbounds' := (civil_bounds (t' / 86400000)).1
  unfold monthUtc utcDate
  constructor
  · intro h
    obtain ⟨hyear, hmonth⟩ := padded_two_inj ⟨by omega, by omega⟩ ⟨by omega, by omega⟩ h
    unfold CivilDate.months
    rw [padded_inj hyear, hmonth]
  · intro h
    unfold CivilDate.months at h
    have hmonth : (civilFromDays (t / 86400000)).month = (civilFromDays (t' / 86400000)).month := by
      omega
    have hyear : (civilFromDays (t / 86400000)).year = (civilFromDays (t' / 86400000)).year := by
      omega
    dsimp only
    rw [hyear, hmonth]

theorem monthUtc_of_day {t t' : ℤ} (h : t / 86400000 = t' / 86400000) : monthUtc t = monthUtc t' := by
  unfold monthUtc utcDate
  rw [h]

/-- Two instants have the same text of their day exactly when they are in the same day. -/
theorem dayUtc_iff {t t' : ℤ} : dayUtc t = dayUtc t' ↔ t / 86400000 = t' / 86400000 := by
  constructor
  · intro h
    have hbounds := civil_bounds (t / 86400000)
    have hbounds' := civil_bounds (t' / 86400000)
    unfold dayUtc utcDate at h
    obtain ⟨hmonths, hday⟩ := padded_two_inj ⟨by omega, by omega⟩ ⟨by omega, by omega⟩ h
    have hmonth : monthUtc t = monthUtc t' := hmonths
    have hsub := sub_day_of_months (monthUtc_iff.mp hmonth)
    omega
  · intro h
    unfold dayUtc utcDate
    rw [h]

private theorem length_padded (width : ℕ) (n : ℤ) : width ≤ (padded width n).toList.length := by
  unfold padded
  dsimp only
  generalize (if n < 0 then "-" else "") = sign
  rw [String.toList_append, String.toList_append, String.toList_ofList, List.length_append,
    List.length_append, List.length_replicate, String.length_toList, String.length_toList]
  omega

private theorem dash_notMem_year (n : ℤ) : '-' ∉ (padded 4 n).toList.drop 3 := by
  obtain ⟨k, hk⟩ := toList_padded 4 n
  obtain ⟨-, hdigits, -⟩ := digits_padded k n.natAbs
  have hdash : '-' ∉ List.replicate k '0' ++ Nat.toDigits 10 n.natAbs := by
    intro hmem
    have hdigit := hdigits _ hmem
    revert hdigit
    decide
  rw [hk]
  split_ifs
  · exact fun hmem => hdash (List.mem_of_mem_drop (i := 2) hmem)
  · exact fun hmem => hdash (List.mem_of_mem_drop (i := 3) hmem)

/-- The text of a month begins that of a day exactly when the day is in the month. -/
theorem monthUtc_prefix_dayUtc {t t' : ℤ} :
    (monthUtc t').toList <+: (dayUtc t).toList ↔ monthUtc t = monthUtc t' := by
  have hbounds := civil_bounds (t / 86400000)
  have hbounds' := civil_bounds (t' / 86400000)
  constructor
  · rintro ⟨rest, hrest⟩
    have hmonth : ∀ t, (monthUtc t).toList =
        (padded 4 (utcDate t).year).toList ++ '-' :: (padded 2 (utcDate t).month).toList := by
      intro t
      unfold monthUtc
      simp [String.toList_append]
    have hday : (dayUtc t).toList = (padded 4 (utcDate t).year).toList ++
        '-' :: ((padded 2 (utcDate t).month).toList ++ '-' :: (padded 2 (utcDate t).day).toList) := by
      unfold dayUtc
      simp [String.toList_append]
    rw [hmonth, hday, List.append_assoc, List.cons_append] at hrest
    -- no minus sign of a year stands where the other year ends
    have hends : ∀ {n n' : ℤ} {more : List Char},
        (padded 4 n).toList ≠ (padded 4 n').toList ++ '-' :: more := by
      intro n n' more h
      have hlength := length_padded 4 n'
      apply dash_notMem_year n
      rw [h, List.drop_append_of_le_length (by omega)]
      exact List.mem_append_right _ List.mem_cons_self
    have hyears : (padded 4 (utcDate t').year).toList = (padded 4 (utcDate t).year).toList := by
      rcases List.append_eq_append_iff.mp hrest with ⟨more, hmore, htail⟩ | ⟨more, hmore, htail⟩
      · cases more with
        | nil => rw [hmore, List.append_nil]
        | cons c more =>
          rw [List.cons_append, List.cons.injEq] at htail
          rw [← htail.1] at hmore
          exact absurd hmore hends
      · cases more with
        | nil => rw [hmore, List.append_nil]
        | cons c more =>
          rw [List.cons_append, List.cons.injEq] at htail
          rw [← htail.1] at hmore
          exact absurd hmore hends
    rw [hyears, List.append_right_inj, List.cons.injEq] at hrest
    have hlength : (padded 2 (utcDate t').month).toList.length =
        (padded 2 (utcDate t).month).toList.length := by
      unfold utcDate
      rw [length_padded_two (by omega) (by omega), length_padded_two (by omega) (by omega)]
    apply String.toList_injective
    rw [hmonth, hmonth, hyears, (List.append_inj hrest.2 hlength).1]
  · intro h
    rw [← h]
    refine ⟨'-' :: (padded 2 (utcDate t).day).toList, ?_⟩
    unfold monthUtc dayUtc
    simp [String.toList_append]

/-- Midnight before the first day of a month. -/
def MonthBegins (t : ℤ) : Prop := t % 86400000 = 0 ∧ (utcDate t).day = 1

instance (t : ℤ) : Decidable (MonthBegins t) := inferInstanceAs (Decidable (_ ∧ _))

/-- The month changes with the millisecond before `t` exactly where a month begins. -/
theorem monthBegins_iff {t : ℤ} : MonthBegins t ↔ monthUtc (t - 1) ≠ monthUtc t := by
  unfold MonthBegins
  by_cases hmidnight : t % 86400000 = 0
  · have hbefore : utcDate (t - 1) = civilFromDays (t / 86400000 - 1) := by
      unfold utcDate
      congr 1
      omega
    have hself : utcDate t = civilFromDays (t / 86400000) := rfl
    rw [Ne, monthUtc_iff, hbefore, hself]
    constructor
    · rintro ⟨-, hfirst⟩ hmonths
      have hsub := sub_day_of_months hmonths
      have hbounds := (civil_bounds (t / 86400000 - 1)).2
      omega
    · intro hmonths
      refine ⟨hmidnight, ?_⟩
      by_contra hday
      exact hmonths (months_pred hday)
  · have hday : (t - 1) / 86400000 = t / 86400000 := by omega
    exact iff_of_false (fun h => hmidnight h.1) (fun h => h (monthUtc_of_day hday))

/-! ### The characters of dates -/

def Numeral (s : String) : Prop := ∀ c ∈ s.toList, c.isDigit = true ∨ c = '-'

theorem Numeral.append {s t : String} (hs : Numeral s) (ht : Numeral t) : Numeral (s ++ t) := by
  intro c hc
  rw [String.toList_append] at hc
  rcases List.mem_append.mp hc with hc | hc
  · exact hs c hc
  · exact ht c hc

theorem Numeral.colon_notMem {s : String} (h : Numeral s) : ':' ∉ s.toList := by
  intro hmem
  have hcolon := h ':' hmem
  revert hcolon
  decide

theorem numeral_dash : Numeral "-" := by
  intro c hc
  exact Or.inr (by simpa using hc)

theorem numeral_padded (width : ℕ) (n : ℤ) : Numeral (padded width n) := by
  obtain ⟨k, hk⟩ := toList_padded width n
  obtain ⟨-, hdigits, -⟩ := digits_padded k n.natAbs
  intro c hc
  rw [hk] at hc
  rcases List.mem_append.mp hc with hsign | hdigit
  · right
    split_ifs at hsign
    · exact List.mem_singleton.mp hsign
    · cases hsign
  · exact Or.inl (hdigits c hdigit)

theorem numeral_monthUtc (t : ℤ) : Numeral (monthUtc t) :=
  ((numeral_padded _ _).append numeral_dash).append (numeral_padded _ _)

private theorem numeral_dayUtc (t : ℤ) : Numeral (dayUtc t) :=
  ((((numeral_padded _ _).append numeral_dash).append (numeral_padded _ _)).append
    numeral_dash).append (numeral_padded _ _)

theorem colon_notMem_monthUtc (t : ℤ) : ':' ∉ (monthUtc t).toList := (numeral_monthUtc t).colon_notMem

theorem colon_notMem_dayUtc (t : ℤ) : ':' ∉ (dayUtc t).toList := (numeral_dayUtc t).colon_notMem

end FluxMeter.Keys
