import Rampart.Text.Blank
import Rampart.Text.Decimal
import Rampart.Time.Calendar

/-!
# Time stamps

Points of universal time to the nanosecond. A leap second is the last second of its minute with
more than a second's worth of nanoseconds.

* `Instant.parse?` reads a date, a time and an offset; blanks may stand in front of the numbers.
* `Instant.toText` writes universal time with no, three, six or nine places.
* `Instant.distance` is the time between two stamps.
-/

namespace Rampart

/-- A point of universal time. -/
structure Instant where
  /-- Days from 1970-01-01. -/
  day : Int
  /-- Seconds from midnight. -/
  second : Nat
  /-- Below a thousand million, and above it in a leap second. -/
  nanos : Nat
deriving DecidableEq, Repr, Inhabited

namespace Instant

/-! ## Order -/

/-- Whether one stamp is later than another. -/
def isAfter (a b : Instant) : Bool :=
  a.day > b.day || (a.day = b.day &&
    (a.second > b.second || (a.second = b.second && a.nanos > b.nanos)))

/-- Nanoseconds from `b` to `a`; a leap second between them counts within its day. -/
def since (a b : Instant) : Int :=
  let isLeap := fun (i : Instant) => i.nanos ≥ 1000000000
  let correction : Int :=
    if a.second > b.second then (if isLeap b then 1 else 0)
    else if a.second < b.second then (if isLeap a then -1 else 0)
    else 0
  let seconds : Int := (a.day - b.day) * 86400 + ((a.second : Int) - b.second) + correction
  seconds * 1000000000 + ((a.nanos : Int) - b.nanos)

/-- Nanoseconds between two stamps, from the earlier one on. -/
def distance (a b : Instant) : Int :=
  if isAfter a b then since a b else since b a

/-! ## Writing -/

/-- The year, with its sign where it has not four digits. -/
def yearText (year : Int) : String :=
  if 0 ≤ year && year ≤ 9999 then Text.Decimal.padded 4 year.toNat
  else (if year < 0 then "-" else "+") ++ Text.Decimal.padded 4 year.natAbs

/-- The fraction of a second, with as many groups of three places as it needs. -/
def fractionText (nanos : Nat) : String :=
  if nanos = 0 then ""
  else if nanos % 1000000 = 0 then "." ++ Text.Decimal.padded 3 (nanos / 1000000)
  else if nanos % 1000 = 0 then "." ++ Text.Decimal.padded 6 (nanos / 1000)
  else "." ++ Text.Decimal.padded 9 nanos

/-- The text of a time stamp, up to its offset. -/
def localText (i : Instant) : String :=
  let (year, month, day) := Calendar.dateOfDay i.day
  let two := Text.Decimal.padded 2
  let isLeap := i.nanos ≥ 1000000000
  let second := i.second % 60 + if isLeap then 1 else 0
  let nanos := if isLeap then i.nanos - 1000000000 else i.nanos
  yearText year ++ "-" ++ two month ++ "-" ++ two day ++ "T" ++ two (i.second / 3600) ++ ":" ++
    two (i.second / 60 % 60) ++ ":" ++ two second ++ fractionText nanos

/-- The text of a time stamp. -/
def toText (i : Instant) : String :=
  i.localText ++ "Z"

/-- The text of a time stamp, with its offset in digits. -/
def toOffsetText (i : Instant) : String :=
  i.localText ++ "+00:00"

/-! ## Reading -/

/-- A run of up to `width` digits. -/
def digits? (width : Nat) (cs : List Char) : Option (Nat × List Char) :=
  let digits := (cs.take width).takeWhile Char.isDigit
  match Text.Decimal.nat? digits with
  | some n => some (n, cs.drop digits.length)
  | none => none

/-- A number of up to two digits, with blanks in front. -/
def pair? (cs : List Char) : Option (Nat × List Char) :=
  digits? 2 (Text.trimLeft cs)

/-- A year: up to four digits, or a sign and any number of digits. -/
def year? (cs : List Char) : Option (Int × List Char) :=
  match Text.trimLeft cs with
  | '-' :: rest => (digits? rest.length rest).map fun (n, rest) => (-(n : Int), rest)
  | '+' :: rest => (digits? rest.length rest).map fun (n, rest) => ((n : Int), rest)
  | rest => (digits? 4 rest).map fun (n, rest) => ((n : Int), rest)

/-- What follows a mark with blanks in front. -/
def afterMark? (mark : Char) (cs : List Char) : Option (List Char) :=
  match Text.trimLeft cs with
  | c :: rest => if c = mark then some rest else none
  | [] => none

/-- A fraction of a second, if there is one, in nanoseconds. Digits after the ninth are dropped. -/
def fraction? : List Char → Option (Nat × List Char)
  | '.' :: rest =>
    match digits? 9 rest with
    | some (n, after) =>
      let places := rest.length - after.length
      some (n * Nat.pow 10 (9 - places), after.dropWhile Char.isDigit)
    | none => none
  | cs => some (0, cs)

/-- Two digits, as they stand. -/
def twoDigits? : List Char → Option (Nat × List Char)
  | a :: b :: rest => match Text.Decimal.digit? a, Text.Decimal.digit? b with
    | some a, some b => some (10 * a + b, rest)
    | _, _ => none
  | _ => none

/-- The offset of local time, in seconds: a sign, hours and minutes. -/
def signedOffset? (sign : Int) (cs : List Char) : Option (Int × List Char) := do
  let (hours, rest) ← twoDigits? cs
  let rest := rest.dropWhile fun c => c = ':' || Text.isBlank c
  let (minutes, rest) ← twoDigits? rest
  if minutes ≥ 60 then none
  else return (sign * (hours * 3600 + minutes * 60), rest)

/-- The offset of local time, in seconds. -/
def offset? (cs : List Char) : Option (Int × List Char) :=
  match cs with
  | u :: t :: c :: rest =>
    if u.toUpper = 'U' && t.toUpper = 'T' && c.toUpper = 'C' then some (0, rest)
    else marked? cs
  | _ => marked? cs
where
  /-- An offset that begins with its mark. -/
  marked? : List Char → Option (Int × List Char)
    | c :: rest =>
      if c = 'Z' || c = 'z' then some (0, rest)
      else if c = '+' then signedOffset? 1 rest
      else if c = '-' || c.toNat = 0x2212 then signedOffset? (-1) rest
      else none
    | [] => none

/-- The universal time of a local date and time. -/
def ofLocal (year : Int) (month day hour minute second nanos : Nat) (offset : Int) :
    Option Instant :=
  if !Calendar.isDate year month day || hour > 23 || minute > 59 || second > 60 then none
  else if offset ≤ -86400 || offset ≥ 86400 then none
  else
    let leap := second = 60
    let second := if leap then 59 else second
    let nanos := if leap then nanos + 1000000000 else nanos
    let local' : Int := (hour * 3600 + minute * 60 + second : Nat)
    let total := Calendar.dayNumber year month day * 86400 + local' - offset
    let (utcYear, _) := Calendar.dateOfDay (total / 86400)
    if utcYear < Calendar.firstYear || utcYear > Calendar.lastYear then none
    else some ⟨total / 86400, (total % 86400).toNat, nanos⟩

/-- The time stamp that makes up a whole text, but for blanks at its end. -/
def parse? (text : String) : Option Instant := do
  let (year, cs) ← year? text.toList
  let (month, cs) ← pair? (← afterMark? '-' cs)
  let (day, cs) ← pair? (← afterMark? '-' cs)
  let cs ← match cs with
    | c :: rest => if c = 't' || c = 'T' || c = ' ' then some rest else none
    | [] => none
  let (hour, cs) ← pair? cs
  let (minute, cs) ← pair? (← afterMark? ':' cs)
  let (second, cs) ← pair? (← afterMark? ':' cs)
  let (nanos, cs) ← fraction? cs
  let (offset, cs) ← offset? (Text.trimLeft cs)
  if (Text.trimLeft cs).isEmpty then ofLocal year month day hour minute second nanos offset
  else none

end Instant

end Rampart
