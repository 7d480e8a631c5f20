import Rampart.Net.Address

/-!
# Networks

Blocks of addresses that share their leading bits, written `address/length`.

* `Network.parse?` checks the length against the version; host bits may be set.
* `Network.trunc` clears the host bits; `Network.contains` is membership.
-/

namespace Rampart

/-- A block of addresses that share their first bits with `address`. -/
structure Network where
  address : Address
  /-- How many leading bits are shared. -/
  length : Nat
deriving DecidableEq, Repr

namespace Network

/-- The number of bits of an address. -/
def width : Address → Nat
  | .v4 _ => 32
  | .v6 _ => 128

/-- The word whose first `length` bits are set. -/
def mask (w length : Nat) : BitVec w :=
  BitVec.allOnes w <<< (w - length)

/-- Clear all but the first `length` bits. -/
def clearHost (length : Nat) : Address → Address
  | .v4 bits => .v4 (bits &&& mask 32 length)
  | .v6 bits => .v6 (bits &&& mask 128 length)

/-- The network with its host bits cleared. -/
def trunc (n : Network) : Network :=
  ⟨clearHost n.length n.address, n.length⟩

/-- Whether an address of the same version shares the network's leading bits. -/
def contains (n : Network) (a : Address) : Bool :=
  width a == width n.address && clearHost n.length a == clearHost n.length n.address

/-- Whether the network holds a single address. -/
def isSingle (n : Network) : Bool :=
  n.length == width n.address

/-- The length that follows the address, of at most `digits` digits and `bits` bits. -/
def length? (digits bits : Nat) (cs : List Char) : Option (Nat × List Char) :=
  match Address.after? '/' cs with
  | some rest => Address.number? 10 digits (bits + 1) rest
  | none => none

/-- A version 4 network at the front of a text. -/
def dotted? (cs : List Char) : Option (Network × List Char) := do
  let (bits, rest) ← Address.dotted? true cs
  let (length, rest) ← length? 2 32 rest
  return (⟨.v4 bits, length⟩, rest)

/-- A version 6 network at the front of a text. -/
def colons? (cs : List Char) : Option (Network × List Char) := do
  let (bits, rest) ← Address.colons? true 0 cs
  let (length, rest) ← length? 3 128 rest
  return (⟨.v6 bits, length⟩, rest)

/-- The network that makes up a whole text. Unlike a lone address, its octets may have zeros in
front and its `::` may stand for no group. -/
def parse? (text : String) : Option Network :=
  let cs := text.toList
  match dotted? cs with
  | some (n, rest) => if rest.isEmpty then some n else none
  | none => match colons? cs with
    | some (n, []) => some n
    | _ => none

/-- The address, a slash and the length. -/
def toText (n : Network) : String :=
  n.address.toText ++ "/" ++ toString n.length

end Network

end Rampart
