import MentalMath.Text.Numeral
import MentalMath.Time.Calendar

/-! Instants written as text: the full stamp of RFC 3339 for stored times and documents, and the
minute for tables. A fraction has none, three, six or nine digits, the fewest that show it in full;
a year outside 0 to 9999 has a sign. -/

namespace MentalMath

open Text

/-- A year in at least four digits. -/
def Date.yearText (year : Int) : String :=
  if 0 ≤ year ∧ year ≤ 9999 then zeroPadded 4 year.toNat
  else if 0 ≤ year then "+" ++ zeroPadded 4 year.toNat
  else "-" ++ zeroPadded 4 (-year).toNat

def Date.text (d : Date) : String :=
  Date.yearText d.year ++ "-" ++ zeroPadded 2 d.month ++ "-" ++ zeroPadded 2 d.day

namespace CivilTime

/-- The fraction of a second after its point, or nothing. -/
def fractionText (nanos : Nat) : String :=
  if nanos = 0 then ""
  else if nanos % 1000000 = 0 then "." ++ zeroPadded 3 (nanos / 1000000)
  else if nanos % 1000 = 0 then "." ++ zeroPadded 6 (nanos / 1000)
  else "." ++ zeroPadded 9 nanos

def text (t : CivilTime) : String :=
  t.date.text ++ "T" ++ zeroPadded 2 t.hour ++ ":" ++ zeroPadded 2 t.minute ++ ":"
    ++ zeroPadded 2 t.second ++ fractionText t.nanos

/-- The date and the time of day of a document, marked as UTC by a letter. -/
def documentText (t : CivilTime) : String :=
  t.text ++ "Z"

end CivilTime

namespace Instant

/-- The text by which an instant is stored. -/
def storedText (t : Instant) : String :=
  t.toCivil.text ++ "+00:00"

/-- The date, the hour and the minute. -/
def minuteText (t : Instant) : String :=
  let civil := t.toCivil
  civil.date.text ++ " " ++ zeroPadded 2 civil.hour ++ ":" ++ zeroPadded 2 civil.minute

end Instant

end MentalMath
