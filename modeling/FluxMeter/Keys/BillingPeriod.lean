import FluxMeter.Keys.TenantKeys

/-! UTC calendar months and days of `BillingPeriod.java`. -/
namespace FluxMeter.Keys

structure CivilDate where
  year : ℤ
  month : ℤ
  day : ℤ
  deriving DecidableEq, Repr

/-- The proleptic Gregorian date of a day number counted from 1970-01-01. Years run from March,
so that a leap day is the last day of its year. -/
def civilFromDays (days : ℤ) : CivilDate :=
  let z := days + 719468
  let era := z / 146097
  let doe := z % 146097
  let yoe := (doe - doe / 1460 + doe / 36524 - doe / 146096) / 365
  let doy := doe - (365 * yoe + yoe / 4 - yoe / 100)
  let mp := (5 * doy + 2) / 153
  let month := if mp < 10 then mp + 3 else mp - 9
  { year := yoe + era * 400 + if month ≤ 2 then 1 else 0
    month := month
    day := doy - (153 * mp + 2) / 5 + 1 }

def utcDate (timestampMs : ℤ) : CivilDate := civilFromDays (timestampMs / 86400000)

example : utcDate 1718534400000 = ⟨2024, 6, 16⟩ := by decide

/-- The sign, zeros up to `width`, and the decimal digits. -/
def padded (width : ℕ) (n : ℤ) : String :=
  let sign := if n < 0 then "-" else ""
  let digits := toString n.natAbs
  sign ++ String.ofList (List.replicate (width - sign.length - digits.length) '0') ++ digits

/-- The month of an instant in the years 1 to 9999, for which Python writes the same. -/
def monthUtc (timestampMs : ℤ) : String :=
  let d := utcDate timestampMs
  padded 4 d.year ++ "-" ++ padded 2 d.month

def dayUtc (timestampMs : ℤ) : String :=
  let d := utcDate timestampMs
  padded 4 d.year ++ "-" ++ padded 2 d.month ++ "-" ++ padded 2 d.day

def periodVolumeKey (tenantId : Option String) (customerId modelId : String) (timestampMs : ℤ) :
    String :=
  customerPrefix tenantId customerId ++ ":model:" ++ modelId ++ ":period:" ++
    monthUtc timestampMs ++ ":volume_tokens"

end FluxMeter.Keys
