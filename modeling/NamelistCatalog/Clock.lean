namespace NamelistCatalog.Clock

/-- Year, month and day of a day that is counted from the first day of 1970. Years are taken to
start in March, so that the day a leap year has more is their last. -/
def dateOfDay (day : Nat) : Nat × Nat × Nat :=
  let shifted := day + 719468
  let inEra := shifted % 146097
  let yearOfEra := (inEra - inEra / 1460 + inEra / 36524 - inEra / 146096) / 365
  let dayOfYear := inEra - (365 * yearOfEra + yearOfEra / 4 - yearOfEra / 100)
  let monthFromMarch := (5 * dayOfYear + 2) / 153
  let month := if monthFromMarch < 10 then monthFromMarch + 3 else monthFromMarch - 9
  let year := 400 * (shifted / 146097) + yearOfEra + (if month ≤ 2 then 1 else 0)
  (year, month, dayOfYear - (153 * monthFromMarch + 2) / 5 + 1)

/-- A number in decimal, with zeros in front up to this many digits. -/
def padded (width n : Nat) : String :=
  let digits := toString n
  String.ofList (List.replicate (width - digits.length) '0') ++ digits

def display (seconds : Nat) : String :=
  let (year, month, day) := dateOfDay (seconds / 86400)
  let time := seconds % 86400
  padded 4 year ++ "-" ++ padded 2 month ++ "-" ++ padded 2 day ++ "T" ++
    padded 2 (time / 3600) ++ ":" ++ padded 2 (time / 60 % 60) ++ ":" ++ padded 2 (time % 60) ++ "Z"

example : dateOfDay 0 = (1970, 1, 1) := by decide
example : dateOfDay 11016 = (2000, 2, 29) := by decide
example : dateOfDay 19722 = (2023, 12, 31) := by decide

end NamelistCatalog.Clock
