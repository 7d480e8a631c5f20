/-!
# JSON values

A JSON value as it stands in a text: object members keep their order and their repetitions, and
integers are exact.

* `Json.compress` writes a value on one line, `Json.pretty` with two blanks per level.
* `Json.lastWins` leaves the last of the members of one name, in order of their names.
-/

namespace Rampart

/-- A JSON value. The last two forms only come from reading a text. -/
inductive Json
  | null
  | bool (b : Bool)
  | int (n : Int)
  /-- A number that is no integer of 64 bits, with its text. -/
  | decimal (text : String)
  | str (s : String)
  | arr (items : List Json)
  | obj (members : List (String × Json))
  /-- A string that names half of a surrogate pair: skipped like any string, but it has no value. -/
  | illegible
  /-- The place where a text stops being JSON; always the last part of its value. -/
  | broken
deriving Inhabited, Repr

namespace Json

/-! ## Writing -/

/-- A digit of base sixteen, in lower case. -/
def hexDigit (n : Nat) : Char :=
  if n < 10 then Char.ofNat (48 + n) else Char.ofNat (87 + n)

/-- One character inside a string: quotes, backslashes and control characters are escaped. -/
def escapeChar (c : Char) : List Char :=
  if c = '"' then ['\\', '"']
  else if c = '\\' then ['\\', '\\']
  else if c = '\x08' then ['\\', 'b']
  else if c = '\t' then ['\\', 't']
  else if c = '\n' then ['\\', 'n']
  else if c = '\x0c' then ['\\', 'f']
  else if c = '\r' then ['\\', 'r']
  else if c.toNat < 32 then
    ['\\', 'u', '0', '0', hexDigit (c.toNat / 16), hexDigit (c.toNat % 16)]
  else [c]

/-- A string with its quotes. -/
def quoted (s : String) : String :=
  String.ofList ('"' :: s.toList.flatMap escapeChar ++ ['"'])

mutual

/-- A value on one line, without blanks. -/
def compress : Json → String
  | .null => "null"
  | .bool b => if b then "true" else "false"
  | .int n => toString n
  | .decimal text => text
  | .str s => quoted s
  | .arr items => "[" ++ compressItems items ++ "]"
  | .obj members => "\x7b" ++ compressMembers members ++ "\x7d"
  | .illegible => "null"
  | .broken => "null"

/-- Items with commas between them. -/
def compressItems : List Json → String
  | [] => ""
  | [item] => compress item
  | item :: items => compress item ++ "," ++ compressItems items

/-- Members with commas between them. -/
def compressMembers : List (String × Json) → String
  | [] => ""
  | [(name, value)] => quoted name ++ ":" ++ compress value
  | (name, value) :: members =>
    quoted name ++ ":" ++ compress value ++ "," ++ compressMembers members

end

/-- A line break and the blanks of a level. -/
def newline (level : Nat) : String :=
  "\n" ++ String.ofList (List.replicate (2 * level) ' ')

mutual

/-- A value with every item and member on a line of its own. -/
def prettyAt (level : Nat) : Json → String
  | .arr items => if items.isEmpty then "[]" else
    "[" ++ newline (level + 1) ++ prettyItems (level + 1) items ++ newline level ++ "]"
  | .obj members => if members.isEmpty then "\x7b\x7d" else
    "\x7b" ++ newline (level + 1) ++ prettyMembers (level + 1) members ++ newline level ++ "\x7d"
  | .null => "null"
  | .bool b => if b then "true" else "false"
  | .int n => toString n
  | .decimal text => text
  | .str s => quoted s
  | .illegible => "null"
  | .broken => "null"

/-- Items on lines of their own. -/
def prettyItems (level : Nat) : List Json → String
  | [] => ""
  | [item] => prettyAt level item
  | item :: items => prettyAt level item ++ "," ++ newline level ++ prettyItems level items

/-- Members on lines of their own. -/
def prettyMembers (level : Nat) : List (String × Json) → String
  | [] => ""
  | [(name, value)] => quoted name ++ ": " ++ prettyAt level value
  | (name, value) :: members =>
    quoted name ++ ": " ++ prettyAt level value ++ "," ++ newline level
      ++ prettyMembers level members

end

/-- A value with every item and member on a line of its own. -/
def pretty (j : Json) : String :=
  prettyAt 0 j

/-! ## Members -/

/-- Put a member in its place by name, in front of which a later one of the same name wins. -/
def insertMember (name : String) (value : Json) :
    List (String × Json) → List (String × Json)
  | [] => [(name, value)]
  | (other, kept) :: members =>
    if name = other then (other, kept) :: members
    else if name < other then (name, value) :: (other, kept) :: members
    else (other, kept) :: insertMember name value members

mutual

/-- Keep the last member of each name, in order of the names, at every depth. -/
def lastWins : Json → Json
  | .arr items => .arr (lastWinsItems items)
  | .obj members => .obj (lastWinsMembers members)
  | j => j

/-- `lastWins` on items. -/
def lastWinsItems : List Json → List Json
  | [] => []
  | item :: items => lastWins item :: lastWinsItems items

/-- `lastWins` on members. -/
def lastWinsMembers : List (String × Json) → List (String × Json)
  | [] => []
  | (name, value) :: members => insertMember name (lastWins value) (lastWinsMembers members)

end

mutual

/-- Whether a text was read to the end of its value, every string included. -/
def isWhole : Json → Bool
  | .arr items => areWhole items
  | .obj members => haveWhole members
  | .illegible => false
  | .broken => false
  | _ => true

/-- `isWhole` on items. -/
def areWhole : List Json → Bool
  | [] => true
  | item :: items => isWhole item && areWhole items

/-- `isWhole` on members. -/
def haveWhole : List (String × Json) → Bool
  | [] => true
  | (_, value) :: members => isWhole value && haveWhole members

end

/-- The first member of a name, for an object. -/
def get? (j : Json) (name : String) : Option Json :=
  match j with
  | .obj members => (members.find? (·.1 == name)).map (·.2)
  | _ => none

end Json

end Rampart
