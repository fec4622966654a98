import MacroReplay.Calendar.Pattern

/-!
# Timestamps

A moment, in milliseconds since the start of 1970, in the internet date-time format: universal time,
three digits of milliseconds unless they are zero, and a sign on years outside `0000` to `9999`.
-/

namespace MacroReplay.Calendar

/-- The text of a year: four digits, or a sign and at least four digits. -/
def yearText (year : Int) : String :=
  if 0 ≤ year ∧ year ≤ 9999 then zeroPadded 4 year
  else (if year < 0 then "-" else "+") ++ zeroPadded 4 year.natAbs

/-- The text of a moment; a moment outside the calendar is written as its plain number. -/
def timestampText (ms : Int) : String :=
  let t := DateTime.ofEpochSecond (ms / 1000)
  if t.year < leastYear ∨ greatestYear < t.year then toString ms
  else
    let fraction := ms % 1000
    yearText t.year ++ "-" ++ zeroPadded 2 t.month ++ "-" ++ zeroPadded 2 t.day ++ "T" ++
      zeroPadded 2 t.hour ++ ":" ++ zeroPadded 2 t.minute ++ ":" ++ zeroPadded 2 t.second ++
      (if fraction = 0 then "" else "." ++ zeroPadded 3 fraction) ++ "+00:00"

end MacroReplay.Calendar
