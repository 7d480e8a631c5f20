import Rampart.Text.Decimal
import Rampart.Time.Calendar
import Rampart.Toml.Quoted

/-!
# Dates and times in TOML

A date, a time of day, or both with an optional offset from universal time. They are given by
their text in one form: `T` between date and time, `Z` for universal time, and no zeros at the end
of a fraction of a second.
-/

namespace Rampart.Toml

open Text (Scan)
open Text.Decimal (padded)

/-- A number of so many digits, within bounds. -/
def bounded (width low high : Nat) : Scan Nat := do
  let ds ← Scan.exactly Char.isDigit width
  match Text.Decimal.nat? ds with
  | some n => if low ≤ n && n ≤ high then return n else failure
  | none => failure

/-- A date. -/
def date : Scan String := do
  let year ← bounded 4 0 9999
  Scan.text "-"
  let month ← bounded 2 1 12
  Scan.text "-"
  let day ← bounded 2 1 (Calendar.daysInMonth year month)
  return s!"{padded 4 year}-{padded 2 month}-{padded 2 day}"

/-- The fraction of a second, to nine digits. -/
def secondFraction : Scan String := do
  Scan.text "."
  let first ← Scan.one Char.isDigit
  let ds := (first :: (← Scan.run Char.isDigit)).take 9
  let kept := (ds.reverse.dropWhile (· = '0')).reverse
  return if kept.isEmpty then "" else String.ofList ('.' :: kept)

/-- A time of day. -/
def timeOfDay : Scan String := do
  let hour ← bounded 2 0 23
  Scan.text ":"
  let minute ← bounded 2 0 59
  Scan.text ":"
  let second ← bounded 2 0 60
  let fraction := (← Scan.optional secondFraction).getD ""
  return s!"{padded 2 hour}:{padded 2 minute}:{padded 2 second}{fraction}"

/-- An offset from universal time. -/
def offset : Scan String := do
  match ← Scan.one fun _ => true with
  | 'Z' | 'z' => return "Z"
  | '+' => numbered "+"
  | '-' => numbered "-"
  | _ => failure
where
  /-- An offset in hours and minutes. -/
  numbered (sign : String) : Scan String := do
    let hour ← bounded 2 0 23
    Scan.text ":"
    let minute ← bounded 2 0 59
    let sign := if hour = 0 && minute = 0 then "+" else sign
    return s!"{sign}{padded 2 hour}:{padded 2 minute}"

/-- The time of day after a date. -/
def timeAfterDate : Scan String := do
  let _ ← Scan.one fun c => c = 'T' || c = 't' || c = ' '
  let time ← timeOfDay
  return "T" ++ time ++ (← Scan.optional offset).getD ""

/-- A date, a time or both. -/
def moment : Scan String :=
  (do let day ← date
      return day ++ (← Scan.optional timeAfterDate).getD "") <|> timeOfDay

end Rampart.Toml
