/-!
# Internet addresses

Addresses of both versions as words of 32 and 128 bits, with their text forms.

* `Address.parse?` reads the four decimal octets of version 4, without leading zeros, or the
  groups of version 6, with one `::` and an embedded version 4 ending.
* `Address.toText` writes the canonical form: the longest run of two or more zero groups (the
  first of equals) is written `::`, and an address of the block `::ffff:0:0/96` keeps its dotted
  ending.
-/

namespace Rampart

/-- An internet address. -/
inductive Address
  | v4 (bits : BitVec 32)
  | v6 (bits : BitVec 128)
deriving DecidableEq, Repr

namespace Address

/-! ## Numbers -/

/-- The value of a digit, in bases up to sixteen. -/
def digitValue? (base : Nat) (c : Char) : Option Nat :=
  let value :=
    if '0' ≤ c && c ≤ '9' then some (c.toNat - 48)
    else if 'a' ≤ c && c ≤ 'f' then some (c.toNat - 87)
    else if 'A' ≤ c && c ≤ 'F' then some (c.toNat - 55)
    else none
  value.filter (· < base)

/-- The number written by digits. -/
def ofDigits (base : Nat) (digits : List Char) : Nat :=
  digits.foldl (fun n c => base * n + (digitValue? base c).getD 0) 0

/-- The run of digits at the front of a text, as a number below `bound` of at most `width`
digits. A longer run or a larger number is no number. -/
def number? (base width bound : Nat) (cs : List Char) : Option (Nat × List Char) :=
  let isDigit := fun c => (digitValue? base c).isSome
  let digits := cs.takeWhile isDigit
  if digits.isEmpty || digits.length > width then none
  else
    let n := ofDigits base digits
    if n < bound then some (n, cs.dropWhile isDigit) else none

/-- An octet; `padded` allows zeros in front. -/
def octet? (padded : Bool) (cs : List Char) : Option (Nat × List Char) :=
  match number? 10 3 256 cs with
  | some (n, rest) =>
    if !padded && cs.head? == some '0' && cs.length - rest.length > 1 then none
    else some (n, rest)
  | none => none

/-! ## Reading -/

/-- What follows a given character. -/
def after? (c : Char) : List Char → Option (List Char)
  | d :: rest => if c = d then some rest else none
  | [] => none

/-- Four octets with points between them. -/
def dotted? (padded : Bool) (cs : List Char) : Option (BitVec 32 × List Char) := do
  let (a, cs) ← octet? padded cs
  let (b, cs) ← octet? padded (← after? '.' cs)
  let (c, cs) ← octet? padded (← after? '.' cs)
  let (d, cs) ← octet? padded (← after? '.' cs)
  return (BitVec.ofNat 32 (((a * 256 + b) * 256 + c) * 256 + d), cs)

/-- Up to `room` groups with colons between them, and whether they end with a dotted address,
which fills two groups. -/
def groupsFrom (padded : Bool) : (room : Nat) → (first : Bool) → List Char →
    List Nat × Bool × List Char
  | 0, _, cs => ([], false, cs)
  | room + 1, first, cs =>
    match if first then some cs else after? ':' cs with
    | none => ([], false, cs)
    | some body =>
      match if room > 0 then dotted? padded body else none with
      | some (bits, rest) => ([bits.toNat / 65536, bits.toNat % 65536], true, rest)
      | none => match number? 16 4 65536 body with
        | some (group, rest) =>
          let (groups, ended, rest) := groupsFrom padded room false rest
          (group :: groups, ended, rest)
        | none => ([], false, cs)

/-- The word of 128 bits made of eight groups. -/
def ofGroups (groups : List Nat) : BitVec 128 :=
  BitVec.ofNat 128 (groups.foldl (fun n group => 65536 * n + group) 0)

/-- Groups with one `::`, which stands for at least `gap` groups. -/
def colons? (padded : Bool) (gap : Nat) (cs : List Char) : Option (BitVec 128 × List Char) :=
  let (head, ended, rest) := groupsFrom padded 8 true cs
  if head.length = 8 then some (ofGroups head, rest)
  else if ended then none
  else match rest with
    | ':' :: ':' :: rest =>
      let (tail, _, rest) := groupsFrom padded (8 - gap - head.length) true rest
      let zeros := List.replicate (8 - head.length - tail.length) 0
      some (ofGroups (head ++ zeros ++ tail), rest)
    | _ => none

/-- The address that makes up a whole text. -/
def parse? (text : String) : Option Address :=
  let cs := text.toList
  match dotted? false cs with
  | some (bits, []) => some (.v4 bits)
  | _ => match colons? false 1 cs with
    | some (bits, []) => some (.v6 bits)
    | _ => none

/-! ## Writing -/

/-- The octets of a word of 32 bits. -/
def octets (bits : BitVec 32) : List Nat :=
  let n := bits.toNat
  [n / 16777216, n / 65536 % 256, n / 256 % 256, n % 256]

/-- The groups of a word of 128 bits. -/
def groups (bits : BitVec 128) : List Nat :=
  (List.range 8).map fun i => bits.toNat >>> (16 * (7 - i)) % 65536

/-- Four octets with points between them. -/
def dotted (bits : BitVec 32) : String :=
  ".".intercalate ((octets bits).map toString)

/-- Groups in base sixteen with colons between them. -/
def hexGroups (groups : List Nat) : String :=
  ":".intercalate (groups.map fun group => String.ofList (Nat.toDigits 16 group))

/-- Start and length of the longest run of zeros in a list that begins at `position`; of equally
long runs the first. `run` is the length of the run in front of the list. -/
def longestZeros (position run : Nat) : List Nat → (best : Nat × Nat) → Nat × Nat
  | [], best => best
  | n :: rest, best =>
    if n = 0 then
      let run := run + 1
      let best := if run > best.2 then (position + 1 - run, run) else best
      longestZeros (position + 1) run rest best
    else longestZeros (position + 1) 0 rest best

/-- The canonical text of an address. -/
def toText : Address → String
  | .v4 bits => dotted bits
  | .v6 bits =>
    if bits.toNat >>> 32 = 0xFFFF then
      "::ffff:" ++ dotted (bits.setWidth 32)
    else
      let all := groups bits
      let (start, length) := longestZeros 0 0 all (0, 0)
      if length > 1 then
        hexGroups (all.take start) ++ "::" ++ hexGroups (all.drop (start + length))
      else hexGroups all

end Address

end Rampart
