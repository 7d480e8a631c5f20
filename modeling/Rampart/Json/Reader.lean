import Rampart.Json
import Rampart.Text.Decimal

/-!
# Reading JSON texts

A strict reader. It gives the value at the front of a text together with what follows it. Where
the text stops being JSON the value ends with `Json.broken`, so that a reader of values meets the
faults of a text in the order in which they stand there.

* Blanks are space, tab, line feed and carriage return; a byte order mark is none.
* Integers within 64 bits are `Json.int`; every other number, also `1.0` and `-0`, is a
  `Json.decimal`.
* Members keep their order and their repetitions.
-/

namespace Rampart.Json

/-- Blanks between the parts of a text. -/
def isSpace (c : Char) : Bool :=
  c = ' ' || c = '\n' || c = '\t' || c = '\r'

/-- Drop the blanks in front. -/
def skipSpace (cs : List Char) : List Char :=
  cs.dropWhile isSpace

/-! ## Strings -/

/-- The value of a digit of base sixteen. -/
def hexValue? (c : Char) : Option Nat :=
  if '0' ≤ c && c ≤ '9' then some (c.toNat - 48)
  else if 'a' ≤ c && c ≤ 'f' then some (c.toNat - 87)
  else if 'A' ≤ c && c ≤ 'F' then some (c.toNat - 55)
  else none

/-- Four digits of base sixteen. -/
def hexUnit? : List Char → Option (Nat × List Char)
  | a :: b :: c :: d :: rest =>
    match hexValue? a, hexValue? b, hexValue? c, hexValue? d with
    | some a, some b, some c, some d => some (((a * 16 + b) * 16 + c) * 16 + d, rest)
    | _, _, _, _ => none
  | _ => none

/-- The character of a one-letter escape. -/
def escaped? (c : Char) : Option Char :=
  if c = '"' then some '"'
  else if c = '\\' then some '\\'
  else if c = '/' then some '/'
  else if c = 'b' then some '\x08'
  else if c = 'f' then some '\x0c'
  else if c = 'n' then some '\n'
  else if c = 'r' then some '\r'
  else if c = 't' then some '\t'
  else none

/-- The first half of a surrogate pair. -/
def isHighUnit (n : Nat) : Bool := 0xD800 ≤ n && n ≤ 0xDBFF

/-- The second half of a surrogate pair. -/
def isLowUnit (n : Nat) : Bool := 0xDC00 ≤ n && n ≤ 0xDFFF

/-- A string read so far: its characters in reverse, or none when it holds half a pair. -/
abbrev Legible := Option (List Char)

/-- Read the inside of a string up to its closing quote. `pending` is the first half of a
surrogate pair that the escape before this one has named. -/
def stringFrom : (fuel : Nat) → (read : Legible) → (pending : Option Nat) → List Char →
    Option (Legible × List Char)
  | 0, _, _, _ => none
  | _ + 1, _, _, [] => none
  | fuel + 1, read, pending, c :: cs =>
    let settled : Legible := if pending.isSome then none else read
    if c = '"' then some (settled, cs)
    else if c = '\\' then
      match cs with
      | [] => none
      | e :: rest =>
        if e = 'u' then
          match hexUnit? rest with
          | none => none
          | some (n, rest) =>
            match pending with
            | some high =>
              if isLowUnit n then
                let point := 0x10000 + (high - 0xD800) * 0x400 + (n - 0xDC00)
                stringFrom fuel (read.map (Char.ofNat point :: ·)) none rest
              else stringFrom fuel none none rest
            | none =>
              if isHighUnit n then stringFrom fuel read (some n) rest
              else if isLowUnit n then stringFrom fuel none none rest
              else stringFrom fuel (read.map (Char.ofNat n :: ·)) none rest
        else match escaped? e with
          | some character => stringFrom fuel (settled.map (character :: ·)) none rest
          | none => none
    else if c.toNat < 32 then none
    else stringFrom fuel (settled.map (c :: ·)) none cs

/-- The inside of a string up to its closing quote. -/
def string? (cs : List Char) : Option (Option String × List Char) :=
  (stringFrom (cs.length + 1) (some []) none cs).map fun (read, rest) =>
    (read.map fun characters => String.ofList characters.reverse, rest)

/-! ## Numbers -/

/-- A run of digits and what follows it. -/
def digits (cs : List Char) : List Char × List Char :=
  (cs.takeWhile Char.isDigit, cs.dropWhile Char.isDigit)

/-- The digits in front of a fraction or exponent: one zero, or a run that starts otherwise. -/
def wholePart? (cs : List Char) : Option (List Char × List Char) :=
  match digits cs with
  | ([], _) => none
  | ('0' :: _ :: _, _) => none
  | found => some found

/-- The fraction, if there is one, with its point. -/
def fraction? : List Char → Option (List Char × List Char)
  | '.' :: cs => match digits cs with
    | ([], _) => none
    | (found, rest) => some ('.' :: found, rest)
  | cs => some ([], cs)

/-- The exponent, if there is one, with its letter. -/
def exponent? : List Char → Option (List Char × List Char)
  | c :: cs =>
    if c = 'e' || c = 'E' then
      let (sign, cs) := match cs with
        | '+' :: rest => (['+'], rest)
        | '-' :: rest => (['-'], rest)
        | _ => ([], cs)
      match digits cs with
      | ([], _) => none
      | (found, rest) => some (c :: sign ++ found, rest)
    else some ([], c :: cs)
  | [] => some ([], [])

/-- An integer within 64 bits, signed or not. -/
def integer? (negative : Bool) (whole : List Char) : Option Int :=
  match Text.Decimal.nat? whole with
  | none => none
  | some n =>
    if negative then (if n = 0 || n > 1 <<< 63 then none else some (-(n : Int)))
    else if n < UInt64.size then some n else none

/-- A number at the front of a text. -/
def number? (cs : List Char) : Option (Json × List Char) :=
  let (negative, unsigned) := match cs with
    | '-' :: rest => (true, rest)
    | _ => (false, cs)
  match wholePart? unsigned with
  | none => none
  | some (whole, rest) =>
    match fraction? rest with
    | none => none
    | some (fraction, rest) =>
      match exponent? rest with
      | none => none
      | some (exponent, rest) =>
        let sign := if negative then ['-'] else []
        let text := String.ofList (sign ++ whole ++ fraction ++ exponent)
        if fraction.isEmpty && exponent.isEmpty then
          match integer? negative whole with
          | some n => some (.int n, rest)
          | none => some (.decimal text, rest)
        else some (.decimal text, rest)

/-! ## Values -/

/-- A value read from the front of a text, and what follows it; nothing follows a broken one. -/
abbrev Read (α : Type) := α × Option (List Char)

mutual

/-- The value at the front of a text. -/
def valueFrom : (fuel : Nat) → List Char → Read Json
  | 0, _ => (.broken, none)
  | fuel + 1, cs =>
    match skipSpace cs with
    | [] => (.broken, none)
    | '"' :: rest => match string? rest with
      | some (some s, rest) => (.str s, some rest)
      | some (none, rest) => (.illegible, some rest)
      | none => (.broken, none)
    | '[' :: rest => match skipSpace rest with
      | ']' :: rest => (.arr [], some rest)
      | _ =>
        let (items, rest) := itemsFrom fuel rest
        (.arr items, rest)
    | '\x7b' :: rest => match skipSpace rest with
      | '\x7d' :: rest => (.obj [], some rest)
      | _ =>
        let (members, rest) := membersFrom fuel rest
        (.obj members, rest)
    | 't' :: 'r' :: 'u' :: 'e' :: rest => (.bool true, some rest)
    | 'f' :: 'a' :: 'l' :: 's' :: 'e' :: rest => (.bool false, some rest)
    | 'n' :: 'u' :: 'l' :: 'l' :: rest => (.null, some rest)
    | other => match number? other with
      | some (n, rest) => (n, some rest)
      | none => (.broken, none)

/-- Items up to the closing bracket. -/
def itemsFrom : (fuel : Nat) → List Char → Read (List Json)
  | 0, _ => ([.broken], none)
  | fuel + 1, cs =>
    match valueFrom fuel cs with
    | (item, none) => ([item], none)
    | (item, some rest) => match skipSpace rest with
      | ',' :: rest =>
        let (items, rest) := itemsFrom fuel rest
        (item :: items, rest)
      | ']' :: rest => ([item], some rest)
      | _ => ([item, .broken], none)

/-- Members up to the closing brace. -/
def membersFrom : (fuel : Nat) → List Char → Read (List (String × Json))
  | 0, _ => ([("", .broken)], none)
  | fuel + 1, cs =>
    match skipSpace cs with
    | '"' :: rest => match string? rest with
      | some (some name, rest) => match skipSpace rest with
        | ':' :: rest => match valueFrom fuel rest with
          | (value, none) => ([(name, value)], none)
          | (value, some rest) => match skipSpace rest with
            | ',' :: rest =>
              let (members, rest) := membersFrom fuel rest
              ((name, value) :: members, rest)
            | '\x7d' :: rest => ([(name, value)], some rest)
            | _ => ([(name, value), ("", .broken)], none)
        | _ => ([(name, .broken)], none)
      | _ => ([("", .broken)], none)
    | _ => ([("", .broken)], none)

end

/-- The value at the front of a text, and what follows it. -/
def read (text : String) : Read Json :=
  let cs := text.toList
  valueFrom (2 * cs.length + 2) cs

/-- The value that makes up a whole text. -/
def parse? (text : String) : Option Json :=
  match read text with
  | (j, some rest) => if (skipSpace rest).isEmpty && j.isWhole then some j else none
  | (_, none) => none

end Rampart.Json
