/-!
# The shortest decimals of binary numbers

Numbers with 53 binary digits, as decimals are rounded to them and as they are written.

* `Binary.ofDecimal?` rounds a decimal to the nearest number, a tie to the even one.
* `Binary.shortest` gives the decimal of fewest digits that is rounded back to a number, and of
  those the nearest.
* `positional` writes a decimal without an exponent.
-/

namespace Rampart.Text

/-- The number `mantissa · 2 ^ exponent`; it is not negative. -/
structure Binary where
  mantissa : Nat
  exponent : Int
deriving DecidableEq, Repr

namespace Binary

/-- The least exponent. -/
def leastExponent : Int := -1074

/-- The greatest exponent. -/
def greatestExponent : Int := 971

/-- The power of two that no mantissa reaches. -/
def mantissaBound : Nat := 1 <<< 53

/-- A quotient, rounded to the nearest number, a tie to the even one. -/
def roundQuotient (a b : Nat) : Nat :=
  let whole := a / b
  let twice := 2 * (a % b)
  if twice < b then whole
  else if b < twice then whole + 1
  else whole + whole % 2

/-- The positive part of an exponent. -/
def above (e : Int) : Nat := e.toNat

/-- The negative part of an exponent. -/
def below (e : Int) : Nat := (-e).toNat

/-- The number nearest to a positive fraction, if it is not too large. -/
def ofFraction? (a b : Nat) : Option Binary :=
  let magnitude : Int := (a.log2 : Int) - (b.log2 : Int)
  let high := magnitude - 52
  let isHigh := b <<< above high <<< 52 ≤ a <<< below high
  let exponent := max leastExponent (if isHigh then high else high - 1)
  let mantissa := roundQuotient (a <<< below exponent) (b <<< above exponent)
  let rounded : Binary :=
    if mantissa = mantissaBound then ⟨mantissaBound / 2, exponent + 1⟩ else ⟨mantissa, exponent⟩
  if rounded.exponent > greatestExponent then none else some rounded

/-- The number nearest to `digits · 10 ^ exponent`, if it is not too large. -/
def ofDecimal? (digits : Nat) (exponent : Int) : Option Binary :=
  let size := ((toString digits).length : Int) + exponent
  if digits = 0 || size < -330 then some ⟨0, leastExponent⟩
  else if size > 310 then none
  else ofFraction? (digits * Nat.pow 10 (above exponent)) (Nat.pow 10 (below exponent))

/-- The nearest whole number; a half goes up. -/
def rounded (b : Binary) : Nat :=
  ((2 * b.mantissa) <<< above b.exponent + 1 <<< below b.exponent) / (2 <<< below b.exponent)

/-- A multiple of `10 ^ place` that is rounded to a number, the nearest if there are two. -/
def onGrid? (b : Binary) (place : Int) : Option Nat :=
  let quarter := b.exponent - 2
  let scale := Nat.pow 10 (below place) <<< above quarter
  let unit := Nat.pow 10 (above place) <<< below quarter
  let value := 4 * b.mantissa * scale
  let isPower := b.mantissa = mantissaBound / 2 && b.exponent > leastExponent
  let low := (4 * b.mantissa - if isPower then 1 else 2) * scale
  let high := (4 * b.mantissa + 2) * scale
  let isWithin (n : Nat) : Bool :=
    (low < n * unit && n * unit < high) ||
      (b.mantissa % 2 = 0 && (n * unit = low || n * unit = high))
  let lower := value / unit
  match isWithin lower, isWithin (lower + 1) with
  | true, true => some (if 2 * value ≤ (2 * lower + 1) * unit then lower else lower + 1)
  | true, false => some lower
  | false, true => some (lower + 1)
  | false, false => none

/-- The coarsest grid, from one on, that has a decimal for a number. -/
def shortestFrom (b : Binary) : (fuel : Nat) → (place : Int) → Nat × Int
  | 0, place => (0, place)
  | fuel + 1, place => match b.onGrid? place with
    | some digits => (digits, place)
    | none => shortestFrom b fuel (place - 1)

/-- The decimal of fewest digits that is rounded to a number, with its exponent of ten. -/
def shortest (b : Binary) : Nat × Int :=
  if b.mantissa = 0 then (0, 0)
  else shortestFrom b 40 ((b.exponent + 53) * 30103 / 100000 + 1)

end Binary

/-- The decimal `digits · 10 ^ exponent`, without an exponent. -/
def positional (digits : Nat) (exponent : Int) : String :=
  let places := (-exponent).toNat
  let text := (toString (digits * Nat.pow 10 exponent.toNat)).toList
  if places = 0 then String.ofList text
  else
    let padded := List.replicate (places + 1 - text.length) '0' ++ text
    let whole := padded.length - places
    String.ofList (padded.take whole ++ '.' :: padded.drop whole)

end Rampart.Text
