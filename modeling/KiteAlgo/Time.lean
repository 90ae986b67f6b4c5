import KiteAlgo.Value

/-!
# KiteAlgo.Time

Calendar dates and ISO texts of timestamps, which are microseconds since the
epoch (UTC).
-/

namespace KiteAlgo

def microsPerSecond : Int := 1000000

def microsPerDay : Int := 86400 * microsPerSecond

/-- A decimal number padded with zeros on the left. -/
def padded (width : Nat) (n : Int) : String :=
  let digits := (toString n.toNat).toList
  String.ofList (List.replicate (width - digits.length) '0' ++ digits)

/-- `date.isoformat()` of a day counted from the epoch, in the proleptic Gregorian
calendar (eras of 400 years that start in March). -/
def isoDate (day : Int) : String :=
  let z := day + 719468
  let era := z / 146097
  let dayOfEra := z - era * 146097
  let yearOfEra := (dayOfEra - dayOfEra / 1460 + dayOfEra / 36524 - dayOfEra / 146096) / 365
  let dayOfYear := dayOfEra - (365 * yearOfEra + yearOfEra / 4 - yearOfEra / 100)
  let march := (5 * dayOfYear + 2) / 153
  let dayOfMonth := dayOfYear - (153 * march + 2) / 5 + 1
  let month := if march < 10 then march + 3 else march - 9
  let year := yearOfEra + era * 400 + (if month ≤ 2 then 1 else 0)
  padded 4 year ++ "-" ++ padded 2 month ++ "-" ++ padded 2 dayOfMonth

/-- India Standard Time is five and a half hours ahead of UTC. -/
def istOffset : Int := 19800 * microsPerSecond

/-- `ts.astimezone(IST).date().isoformat()`. -/
def istDate (ts : Int) : String := isoDate ((ts + istOffset) / microsPerDay)

/-- `ts.isoformat()` of a UTC timestamp. -/
def isoformat (ts : Int) : String :=
  let inDay := ts % microsPerDay
  let seconds := inDay / microsPerSecond
  let micros := inDay % microsPerSecond
  isoDate (ts / microsPerDay) ++ "T" ++ padded 2 (seconds / 3600) ++ ":" ++
    padded 2 (seconds / 60 % 60) ++ ":" ++ padded 2 (seconds % 60) ++
    (if micros = 0 then "" else "." ++ padded 6 micros) ++ "+00:00"

example : isoformat 1704067199500000 = "2023-12-31T23:59:59.500000+00:00" := by decide +kernel

example : istDate 1704067199500000 = "2024-01-01" := by decide +kernel

end KiteAlgo
