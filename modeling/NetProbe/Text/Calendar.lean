set_option autoImplicit false

/-! # Moments as texts

The date and the time of day of a moment in universal time, which is counted in nanoseconds since
the start of 1970. -/

namespace NetProbe.Text

/-- Decimal digits, with zeros in front up to a width. -/
def zeroPadded (width n : Nat) : String :=
  let digits := toString n
  String.ofList (List.replicate (width - digits.length) '0') ++ digits

/-- Year, month and day, counted in days since the start of 1970. Years are taken to start in
    March, so that leap days come last. -/
def dateOfDays (days : Nat) : Nat × Nat × Nat :=
  let z := days + 719468
  let dayOfEra := z % 146097
  let yearOfEra := (dayOfEra - dayOfEra / 1460 + dayOfEra / 36524 - dayOfEra / 146096) / 365
  let dayOfYear := dayOfEra - (365 * yearOfEra + yearOfEra / 4 - yearOfEra / 100)
  let monthFromMarch := (5 * dayOfYear + 2) / 153
  let day := dayOfYear - (153 * monthFromMarch + 2) / 5 + 1
  let month := if monthFromMarch < 10 then monthFromMarch + 3 else monthFromMarch - 9
  let year := z / 146097 * 400 + yearOfEra
  (if month ≤ 2 then year + 1 else year, month, day)

/-- The part of a second, with as many groups of three digits as it takes. -/
def fractionText (nanos : Nat) : String :=
  if nanos = 0 then ""
  else if nanos % 1000000 = 0 then "." ++ zeroPadded 3 (nanos / 1000000)
  else if nanos % 1000 = 0 then "." ++ zeroPadded 6 (nanos / 1000)
  else "." ++ zeroPadded 9 nanos

def momentText (nanos : Nat) : String :=
  let seconds := nanos / 1000000000
  let (year, month, day) := dateOfDays (seconds / 86400)
  zeroPadded 4 year ++ "-" ++ zeroPadded 2 month ++ "-" ++ zeroPadded 2 day ++ "T" ++
    zeroPadded 2 (seconds / 3600 % 24) ++ ":" ++ zeroPadded 2 (seconds / 60 % 60) ++ ":" ++
    zeroPadded 2 (seconds % 60) ++ fractionText (nanos % 1000000000) ++ "Z"

end NetProbe.Text
