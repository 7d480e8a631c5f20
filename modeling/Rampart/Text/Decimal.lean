/-!
# Decimal integers

Reading and writing of integers in base ten.

* `nat?` reads a non-empty run of ASCII digits; leading zeros are allowed.
* `word?` reads an unsigned number of at most 64 bits, with an optional plus sign.
* `padded` writes a number with leading zeros to a given width.
-/

namespace Rampart.Text.Decimal

/-- The value of an ASCII digit. -/
def digit? (c : Char) : Option Nat :=
  if '0' ≤ c && c ≤ '9' then some (c.toNat - '0'.toNat) else none

/-- Continue a number with the digits of a text. -/
def extend? (value : Nat) : List Char → Option Nat
  | [] => some value
  | c :: cs => match digit? c with
    | some d => extend? (10 * value + d) cs
    | none => none

/-- The number written by a non-empty run of digits. -/
def nat? : List Char → Option Nat
  | [] => none
  | cs => extend? 0 cs

/-- The largest number of 64 bits. -/
def maxWord : Nat := UInt64.size - 1

/-- A number of at most 64 bits, with an optional plus sign in front. -/
def word? (cs : List Char) : Option UInt64 :=
  let digits := match cs with
    | '+' :: rest => rest
    | _ => cs
  match nat? digits with
  | some n => if n ≤ maxWord then some (UInt64.ofNat n) else none
  | none => none

/-- The digits of a number, with zeros in front up to `width`. -/
def padded (width n : Nat) : String :=
  let digits := toString n
  String.ofList (List.replicate (width - digits.length) '0') ++ digits

end Rampart.Text.Decimal
