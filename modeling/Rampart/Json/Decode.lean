import Rampart.Json.Reader

/-!
# Decoding JSON into records

A `Decoder` takes a JSON value to a value of the domain. Its faults are of two kinds: the text is
no JSON (`malformed`), or it is JSON of another shape (`mismatched`). When a value has both, the
one that stands first in the text is reported, and a missing member counts as standing at the end.

* Records are described by `Fields`: the member names in order, each with its decoder. A record
  may be given as an object or as the array of its fields in that order.
* Unknown members are skipped, a repeated known member is a mismatch.
* A choice among names may be given as the name or as an object from the name to `null`.
-/

namespace Rampart.Json

/-- Why a value could not be decoded. -/
inductive Fault
  /-- The text is no JSON. -/
  | malformed
  /-- The value has another shape. -/
  | mismatched
deriving DecidableEq, Repr

/-- From a JSON value to a value of the domain. -/
abbrev Decoder (α : Type) := Json → Except Fault α

/-- The fault of a value that is not of the kind asked for. -/
def fault : Json → Fault
  | .broken | .illegible => .malformed
  | _ => .mismatched

mutual

/-- Whether the text of a value stops inside it. -/
def isCutShort : Json → Bool
  | .broken => true
  | .arr items => areCutShort items
  | .obj members => haveCutShort members
  | _ => false

/-- `isCutShort` on items. -/
def areCutShort : List Json → Bool
  | [] => false
  | item :: items => isCutShort item || areCutShort items

/-- `isCutShort` on members. -/
def haveCutShort : List (String × Json) → Bool
  | [] => false
  | (_, value) :: members => isCutShort value || haveCutShort members

end

/-! ## Scalars -/

/-- A string. -/
def string : Decoder String
  | .str s => .ok s
  | j => .error (fault j)

/-- A truth value. -/
def boolean : Decoder Bool
  | .bool b => .ok b
  | j => .error (fault j)

/-- An integer from `low` to `high`. -/
def integer (low high : Int) : Decoder Int
  | .int n => if low ≤ n ∧ n ≤ high then .ok n else .error .mismatched
  | j => .error (fault j)

/-- An unsigned number of 64 bits. -/
def word : Decoder UInt64 := fun j =>
  (integer 0 (UInt64.size - 1) j).map fun n => UInt64.ofNat n.toNat

/-- An unsigned number of 32 bits. -/
def word32 : Decoder UInt32 := fun j =>
  (integer 0 (UInt32.size - 1) j).map fun n => UInt32.ofNat n.toNat

/-- An unsigned number of 16 bits. -/
def word16 : Decoder UInt16 := fun j =>
  (integer 0 (UInt16.size - 1) j).map fun n => UInt16.ofNat n.toNat

/-- A signed number of 32 bits. -/
def signed32 : Decoder Int32 := fun j =>
  (integer Int32.minValue.toInt Int32.maxValue.toInt j).map Int32.ofInt

/-- The empty value. -/
def nothing : Decoder Unit
  | .null => .ok ()
  | j => .error (fault j)

/-! ## Composite values -/

/-- A value or `null`. -/
def nullable {α : Type} (decode : Decoder α) : Decoder (Option α)
  | .null => .ok none
  | j => (decode j).map some

/-- A list of values. -/
def list {α : Type} (decode : Decoder α) : Decoder (List α)
  | .arr items => items.mapM decode
  | j => .error (fault j)

/-- Insert or replace an entry of a list in order of its names. -/
def insertEntry {α : Type} (name : String) (value : α) :
    List (String × α) → List (String × α)
  | [] => [(name, value)]
  | (other, kept) :: entries =>
    if name = other then (name, value) :: entries
    else if name < other then (name, value) :: (other, kept) :: entries
    else (other, kept) :: insertEntry name value entries

/-- A dictionary, in order of its names; the last entry of a name wins. -/
def dictionary {α : Type} (decode : Decoder α) : Decoder (List (String × α))
  | .obj members => members.foldlM (fun entries (name, j) =>
      (decode j).map fun value => insertEntry name value entries) []
  | j => .error (fault j)

/-- One of several names. -/
def choice {α : Type} (names : List (String × α)) : Decoder α
  | .str s => pick s
  | .obj [] => .error .malformed
  | .obj ((name, j) :: members) => do
    let value ← pick name
    nothing j
    if members.isEmpty then .ok value else .error .malformed
  | j => .error (fault j)
where
  /-- The value of a name. -/
  pick (s : String) : Except Fault α :=
    match names.find? (·.1 == s) with
    | some (_, value) => .ok value
    | none => .error .mismatched

/-! ## Records -/

/-- What a record's text gives for its fields. -/
structure Members where
  /-- The fields are given by position. -/
  positional : Bool
  /-- The fault of a field that is not given. -/
  absent : Fault
  /-- The text given for a field. -/
  find : String → Option Json

/-- Give up if any of two results is a fault, the mismatch first: what is malformed ends a text. -/
def both {α β : Type} (f : Except Fault (α → β)) (x : Except Fault α) : Except Fault β :=
  match f, x with
  | .ok f, .ok a => .ok (f a)
  | .error .malformed, .error e => .error e
  | .error e, _ => .error e
  | .ok _, .error e => .error e

/-- The fields of a record, in order. -/
structure Fields (α : Type) where
  /-- The names of the fields. -/
  names : List String
  /-- The record made of what is given. -/
  read : Members → Except Fault α

namespace Fields

variable {α β : Type}

instance : Functor Fields where
  map f x := ⟨x.names, fun m => (x.read m).map f⟩

instance : Seq Fields where
  seq f x :=
    let x := x ()
    ⟨f.names ++ x.names, fun m => both (f.read m) (x.read m)⟩

/-- A field that has to be given. -/
def required (name : String) (decode : Decoder α) : Fields α :=
  ⟨[name], fun m => match m.find name with
    | some j => decode j
    | none => .error m.absent⟩

/-- A field with a value for when it is not given. -/
def withDefault (name : String) (decode : Decoder α) (value : α) : Fields α :=
  ⟨[name], fun m => match m.find name with
    | some j => decode j
    | none => .ok value⟩

/-- A field that may be `null`, and missing among named fields. -/
def orNull (name : String) (decode : Decoder α) : Fields (Option α) :=
  ⟨[name], fun m => match m.find name with
    | some j => nullable decode j
    | none => if m.positional then .error m.absent else .ok none⟩

/-- A field that may be `null` or missing. -/
def optional (name : String) (decode : Decoder α) : Fields (Option α) :=
  withDefault name (nullable decode) none

/-- Whether a known name is repeated. -/
def repeats (names : List String) : List (String × Json) → Bool
  | [] => false
  | (name, _) :: members =>
    (names.contains name && members.any (·.1 == name)) || repeats names members

/-- The record given by an object, or by the array of its fields. -/
def decode (fields : Fields α) : Decoder α
  | .obj members =>
    let cut := haveCutShort members
    let find := fun name => (members.find? (·.1 == name)).map (·.2)
    let m : Members := ⟨false, if cut then .malformed else .mismatched, find⟩
    if repeats fields.names members then .error .mismatched
    else match fields.read m with
      | .ok a => if cut then .error .malformed else .ok a
      | .error e => .error e
  | .arr items =>
    let cut := areCutShort items
    let given := fields.names.zip items
    let find := fun name => (given.find? (·.1 == name)).map (·.2)
    let m : Members := ⟨true, if cut then .malformed else .mismatched, find⟩
    match fields.read m with
    | .ok a =>
      if cut || items.length > fields.names.length then .error .malformed else .ok a
    | .error e => .error e
  | j => .error (fault j)

end Fields

/-! ## Texts -/

/-- The value at the front of a text; what follows it does not matter. -/
def decodeFront {α : Type} (decode : Decoder α) (text : String) : Except Fault α :=
  decode (read text).1

/-- The value that makes up a whole text. -/
def decodeText {α : Type} (decode : Decoder α) (text : String) : Except Fault α :=
  match read text with
  | (j, rest) => match decode j with
    | .error e => .error e
    | .ok a => match rest with
      | some rest => if (skipSpace rest).isEmpty then .ok a else .error .malformed
      | none => .error .malformed

end Rampart.Json
