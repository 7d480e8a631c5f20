/-!
# Plain scalars that are not strings

The plain scalars that a reader of the documents takes for the empty value, a truth value or a
number. A string of such a form has to stand in quotes.

* Integers have a sign, at most 128 bits, and base ten, sixteen (`0x`), eight (`0o`) or two (`0b`).
* Digits after a leading zero are no number, but they look like one (`isDigitsOnly`).
* Other numbers count only while a double-precision number can hold them.
-/

namespace Rampart.Yaml

/-- Scalars that stand for the empty value. -/
def isNull (s : String) : Bool :=
  s.isEmpty || ["null", "Null", "NULL", "~"].contains s

/-- Scalars that stand for a truth value. -/
def isBoolean (s : String) : Bool :=
  ["true", "True", "TRUE", "false", "False", "FALSE"].contains s

/-! ## Integers -/

/-- The value of a digit of a base. -/
def digitOf? (base : Nat) (c : Char) : Option Nat :=
  let value :=
    if '0' ≤ c && c ≤ '9' then some (c.toNat - 48)
    else if 'a' ≤ c && c ≤ 'f' then some (c.toNat - 87)
    else if 'A' ≤ c && c ≤ 'F' then some (c.toNat - 55)
    else none
  value.filter (· < base)

/-- A non-empty run of digits of a base, up to a largest number. -/
def isNatBelow (base bound : Nat) (cs : List Char) : Bool :=
  !cs.isEmpty && cs.all (fun c => (digitOf? base c).isSome) &&
    cs.foldl (fun n c => base * n + (digitOf? base c).getD 0) 0 ≤ bound

/-- The digits after a base mark. -/
def based? : List Char → Option (Nat × List Char)
  | '0' :: 'x' :: cs => some (16, cs)
  | '0' :: 'o' :: cs => some (8, cs)
  | '0' :: 'b' :: cs => some (2, cs)
  | _ => none

/-- Leading zeros and more digits, with or without a sign. -/
def isDigitsOnly (cs : List Char) : Bool :=
  let unsigned := match cs with
    | '-' :: rest => rest
    | '+' :: rest => rest
    | _ => cs
  match unsigned with
  | '0' :: c :: rest => (c :: rest).all Char.isDigit
  | _ => false

/-- Integers of at most 128 bits. -/
def isInteger (cs : List Char) : Bool :=
  let bound := match cs with
    | '-' :: _ => 1 <<< 127
    | _ => 1 <<< 128 - 1
  let unsigned := match cs with
    | '-' :: rest => rest
    | '+' :: rest => rest
    | _ => cs
  match based? unsigned with
  | some (base, digits) => isNatBelow base bound digits
  | none => !isDigitsOnly cs && isNatBelow 10 bound unsigned

/-! ## Other numbers -/

/-- Half-way between the largest double-precision number and the next power of two. -/
def doubleBound : Nat := 1 <<< 1024 - 1 <<< 970

/-- Whether `digits`, with a decimal point in front moved right by `point`, stays within
double precision. Only numbers of 309 digits in front of the point need an exact comparison. -/
def isFinite (digits : List Char) (point : Int) : Bool :=
  let zeros := (digits.takeWhile (· = '0')).length
  let digits := digits.dropWhile (· = '0')
  let point := point - zeros
  if digits.isEmpty || point < 309 then true
  else if point > 309 then false
  else
    let n := digits.foldl (fun n c => 10 * n + (c.toNat - 48)) 0
    if digits.length ≤ 309 then n * Nat.pow 10 (309 - digits.length) < doubleBound
    else n < doubleBound * Nat.pow 10 (digits.length - 309)

/-- The exponent at the end of a number, if it is well formed. -/
def exponent? : List Char → Option Int
  | [] => some 0
  | c :: cs =>
    if c = 'e' || c = 'E' then
      let (negative, digits) := match cs with
        | '-' :: rest => (true, rest)
        | '+' :: rest => (false, rest)
        | _ => (false, cs)
      if digits.isEmpty || !digits.all Char.isDigit then none
      else
        let n : Int := digits.foldl (fun n c => 10 * n + (c.toNat - 48)) 0
        some (if negative then -n else n)
    else none

/-- Digits with an optional point and exponent, within double precision. -/
def isDecimal (cs : List Char) : Bool :=
  let unsigned := match cs with
    | '-' :: rest => rest
    | _ => cs
  let whole := unsigned.takeWhile Char.isDigit
  let rest := unsigned.dropWhile Char.isDigit
  let (fraction, rest) := match rest with
    | '.' :: after => (after.takeWhile Char.isDigit, after.dropWhile Char.isDigit)
    | _ => ([], rest)
  if whole.isEmpty && fraction.isEmpty then false
  else match exponent? rest with
    | some e => isFinite (whole ++ fraction) (whole.length + e)
    | none => false

/-- Numbers that are no integers, with the infinities and the number that is none. -/
def isFloat (s : String) : Bool :=
  if [".inf", ".Inf", ".INF", "+.inf", "+.Inf", "+.INF", "-.inf", "-.Inf", "-.INF",
      ".nan", ".NaN", ".NAN"].contains s then true
  else match s.toList with
    | '+' :: '+' :: _ => false
    | '+' :: '-' :: _ => false
    | '+' :: rest => isDecimal rest
    | cs => isDecimal cs

/-- Whether a plain scalar would be read as the string itself. -/
def isPlainString (s : String) : Bool :=
  let cs := s.toList
  !isNull s && !isBoolean s && !isInteger cs && !isDigitsOnly cs && !isFloat s

end Rampart.Yaml
