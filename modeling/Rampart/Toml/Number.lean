import Rampart.Json
import Rampart.Text.Shortest
import Rampart.Toml.Quoted

/-!
# Numbers in TOML

Digits may be parted by single underscores. Integers have 64 bits with a sign, and may be written
to base ten, sixteen, eight or two. All other numbers are rounded to 53 binary digits; they are
given by the shortest text that names them, `inf` and `NaN` among them.
-/

namespace Rampart.Toml

open Text (Scan Binary)

/-- Whether a character is a digit to a base. -/
def isDigitOf (base : Nat) (c : Char) : Bool :=
  match hexDigit? c with
  | some n => n < base
  | none => false

/-- Further digits to a base, with single underscores between them. -/
def moreDigits (base : Nat) : Scan (List Char)
  | [] => some ([], [])
  | c :: cs =>
    if isDigitOf base c then (moreDigits base cs).map fun (ds, rest) => (c :: ds, rest)
    else if c = '_' then match cs with
      | [] => none
      | d :: cs =>
        if isDigitOf base d then (moreDigits base cs).map fun (ds, rest) => (d :: ds, rest)
        else none
    else some ([], c :: cs)

/-- Digits to a base. -/
def digits (base : Nat) : Scan (List Char) := do
  let first ← Scan.one (isDigitOf base)
  return first :: (← moreDigits base)

/-- The number that digits to a base write. -/
def valueOf (base : Nat) (ds : List Char) : Nat :=
  ds.foldl (fun n c => base * n + (hexDigit? c).getD 0) 0

/-- The digits of a whole number: one zero, or digits that do not begin with it. -/
def whole : Scan (List Char) := do
  if ← Scan.accept "0" then return ['0'] else digits 10

/-- A sign; tells whether it is a minus. -/
def sign : Scan Bool := do
  if ← Scan.accept "-" then return true
  let _ ← Scan.accept "+"
  return false

/-- Whether an integer has 64 bits. -/
def fits (n : Int) : Bool :=
  Int64.minValue.toInt ≤ n && n ≤ Int64.maxValue.toInt

/-- An integer to a base other than ten. -/
def basedInteger : Scan Int := do
  Scan.text "0"
  let base ← match ← Scan.one fun _ => true with
    | 'x' => pure 16
    | 'o' => pure 8
    | 'b' => pure 2
    | _ => failure
  let n : Int := valueOf base (← digits base)
  if fits n then return n else failure

/-- An integer to base ten. -/
def decimalInteger : Scan Int := do
  let negative ← sign
  let n : Int := valueOf 10 (← whole)
  let n := if negative then -n else n
  if fits n then return n else failure

/-- The digits after a point. -/
def fraction : Scan (List Char) := do
  Scan.text "."
  digits 10

/-- An exponent. -/
def exponent : Scan Int := do
  let _ ← Scan.one fun c => c = 'e' || c = 'E'
  let negative ← sign
  let n : Int := valueOf 10 (← digits 10)
  return if negative then -n else n

/-- The text of a number that is no integer. Positive numbers that are too large are refused. -/
def fractionalText (negative : Bool) (ds : List Char) (e : Int) : Option String :=
  let minus := if negative then "-" else ""
  match Binary.ofDecimal? (valueOf 10 ds) e with
  | some b =>
    let (digits, place) := b.shortest
    some (minus ++ Text.positional digits place)
  | none => if negative then some "-inf" else none

/-- A number with a point or an exponent. -/
def fractional : Scan String := do
  let negative ← sign
  let front ← whole
  let back ← Scan.optional fraction
  let e ← match back with
    | some _ => (·.getD 0) <$> Scan.optional exponent
    | none => exponent
  let back := back.getD []
  fractionalText negative (front ++ back) (e - back.length)

/-- A number that has no digits. -/
def special : Scan String := do
  let negative ← sign
  if ← Scan.accept "inf" then return if negative then "-inf" else "inf"
  Scan.text "nan"
  return "NaN"

/-- A number. -/
def number : Scan Json :=
  Json.decimal <$> (fractional <|> special) <|> Json.int <$> (basedInteger <|> decimalInteger)

end Rampart.Toml
