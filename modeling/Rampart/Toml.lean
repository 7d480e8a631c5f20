import Rampart.Toml.Draft
import Rampart.Toml.Moment
import Rampart.Toml.Number

/-!
# Reading TOML documents

A document is a sequence of lines: headers of tables, keys with values, comments and blank lines.
It is read as a whole into a JSON object, or refused. Dates and times become their texts, and
numbers that are no integers are decimals.

* `Toml.read?` reads a document.
* Arrays may take several lines and may end with a comma, tables in braces neither.
-/

namespace Rampart.Toml

open Text (Scan)

/-! ## Blanks -/

/-- Skip blanks within a line. -/
def blanks : Scan Unit := do
  let _ ← Scan.run isBlank

/-- A line break. -/
def lineBreak : Scan Unit := fun cs => (afterBreak? cs).map fun rest => ((), rest)

/-- Skip a comment if there is one. -/
def comment : Scan Unit := do
  if ← Scan.accept "#" then
    let _ ← Scan.run isPrinted

/-- The end of a line or of the document. -/
def lineEnd : Scan Unit := do
  blanks
  comment
  if (← Scan.peek).isSome then lineBreak

/-- Skip blanks, comments and line breaks. -/
def gaps : Scan Unit := fun cs => go (cs.length + 1) cs
where
  /-- Skip as long as a line ends here. -/
  go : (fuel : Nat) → Scan Unit
    | 0 => blanks
    | fuel + 1 => do
      blanks
      match ← Scan.optional (do comment; lineBreak) with
      | some _ => go fuel
      | none => return

/-! ## Keys -/

/-- Characters of keys without quotes. -/
def isKeyChar (c : Char) : Bool := c.isAlphanum || c = '_' || c = '-'

/-- One name of a key. -/
def name : Scan String :=
  shortText <|> do
    let first ← Scan.one isKeyChar
    return String.ofList (first :: (← Scan.run isKeyChar))

/-- More tables than a key may go into. -/
def depthLimit : Nat := 80

/-- A key: the tables that it goes into, and the last name. -/
def key : Scan (List String × String) := fun cs => do
  let ((path, last), rest) ← names (cs.length + 1) cs
  if path.length + 1 < depthLimit then return ((path, last), rest) else none
where
  /-- Names with points between them. -/
  names : (fuel : Nat) → Scan (List String × String)
    | 0 => failure
    | fuel + 1 => do
      blanks
      let first ← name
      blanks
      if ← Scan.accept "." then
        let (path, last) ← names fuel
        return (first :: path, last)
      else return ([], first)

/-! ## Values -/

/-- A truth value. -/
def boolean : Scan Json := do
  if ← Scan.accept "true" then return .bool true
  Scan.text "false"
  return .bool false

/-- The rest of an array. -/
def arrayFrom (item : Scan Json) : (fuel : Nat) → Scan (List Json)
  | 0 => failure
  | fuel + 1 => do
    gaps
    if ← Scan.accept "]" then return []
    let first ← item
    gaps
    if ← Scan.accept "," then return first :: (← arrayFrom item fuel)
    Scan.text "]"
    return [first]

/-- A key with its value, for a table. -/
def definition (item : Scan Json) (d : Draft) : Scan Draft := do
  let (path, last) ← key
  Scan.text "="
  blanks
  let value ← item
  blanks
  fun cs => (d.define path last value).map fun d => (d, cs)

/-- The rest of a table in braces that has members. -/
def membersFrom (item : Scan Json) : (fuel : Nat) → Draft → Scan Draft
  | 0, _ => failure
  | fuel + 1, d => do
    let d ← definition item d
    if ← Scan.accept "," then membersFrom item fuel d
    else
      Scan.text "\x7d"
      return d

/-- The rest of a table in braces. -/
def members (item : Scan Json) : Scan Draft := do
  blanks
  if ← Scan.accept "\x7d" then return []
  fun cs => membersFrom item (cs.length + 1) [] cs

/-- A value, with arrays and tables within each other up to a depth. -/
def value : (depth : Nat) → Scan Json
  | 0 => Json.str <$> (quoted <|> moment) <|> boolean <|> number
  | depth + 1 => do
    if ← Scan.accept "[" then
      return .arr (← fun cs => arrayFrom (value depth) (cs.length + 1) cs)
    else if ← Scan.accept "\x7b" then
      return .obj (valuesOf (← members (value depth)))
    else Json.str <$> (quoted <|> moment) <|> boolean <|> number

/-! ## Documents -/

/-- What has been read of a document. -/
structure Progress where
  tables : Draft := []
  /-- The table that keys belong to, by the names of its header. -/
  header : Option (List String × String) := none

/-- Give the table of the last header what a line defines. -/
def Progress.update (p : Progress) (f : Draft → Option Draft) : Option Progress := do
  let tables ← match p.header with
    | none => f p.tables
    | some (path, last) => p.tables.change false (fun _ d => f d) (path ++ [last]) .opened
  return { p with tables }

/-- A change of a draft, as part of a scan. -/
def settle {α : Type} (result : Option α) : Scan α := fun cs => result.map fun a => (a, cs)

/-- A header. -/
def header (p : Progress) : Scan Progress := do
  Scan.text "["
  if ← Scan.accept "[" then
    let (path, last) ← key
    Scan.text "]]"
    return ⟨← settle (p.tables.addTable path last), some (path, last)⟩
  else
    let (path, last) ← key
    Scan.text "]"
    return ⟨← settle (p.tables.openTable path last), some (path, last)⟩

/-- A line that defines a key. -/
def assignment (p : Progress) : Scan Progress := do
  let (path, last) ← key
  Scan.text "="
  blanks
  let value ← value (depthLimit - 1)
  settle (p.update (·.define path last value))

/-- A line, without its end. -/
def statement (p : Progress) : Scan Progress := do
  blanks
  match ← Scan.peek with
  | some '[' => header p
  | some c => if c = '#' || c = '\n' || c = '\r' then return p else assignment p
  | none => return p

/-- The lines of a document. -/
def linesIn : (fuel : Nat) → Progress → List Char → Option Progress
  | _, p, [] => some p
  | 0, _, _ => none
  | fuel + 1, p, cs => do
    let (p, rest) ← statement p cs
    let ((), rest) ← lineEnd rest
    linesIn fuel p rest

/-- Read a document; a byte order mark in front is skipped. -/
def read? (text : String) : Option Json := do
  let cs := match text.toList with
    | '\uFEFF' :: cs => cs
    | cs => cs
  let p ← linesIn (cs.length + 1) {} cs
  return .obj (valuesOf p.tables)

end Rampart.Toml
