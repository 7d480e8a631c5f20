import Rampart.Text.Search

/-!
# Media types

The kind of a request's content: a type and a subtype, which may have a suffix, and parameters.

* `MediaType.read?` reads one as a whole.
* `MediaType.isJson` tells whether content is JSON, by its subtype or by its suffix.
-/

namespace Rampart.Api

open Text (Scan)

/-- A media type without its parameters, in lower case. -/
structure MediaType where
  kind : String
  subtype : String
  suffix : Option String
deriving DecidableEq, Repr

namespace MediaType

/-- Characters of names. -/
def isToken (c : Char) : Bool :=
  c.isAlphanum || "!#$%&'+-.^_\x60|~".toList.contains c

/-- Characters of quoted values. -/
def isQuotable (c : Char) : Bool :=
  ' ' ≤ c && c != '\x7f'

/-- A name. -/
def token : Scan (List Char) := do
  return (← Scan.one isToken) :: (← Scan.run isToken)

/-- A text in lower case. -/
def lower (cs : List Char) : String :=
  String.ofList (cs.map Char.toLower)

/-- A subtype cut at its last plus sign, which must not begin it. -/
def cutSuffix (cs : List Char) : List Char × Option (List Char) :=
  let back := cs.reverse.takeWhile (· != '+')
  let front := cs.take (cs.length - back.length - 1)
  if back.length = cs.length || front.isEmpty then (cs, none) else (front, some back.reverse)

/-- A value in quotes, with the blanks that follow it. -/
def quotedValue : Scan Unit := do
  Scan.text "\""
  let _ ← Scan.one isQuotable
  let _ ← Scan.run fun c => isQuotable c && c != '"'
  Scan.text "\""
  let _ ← Scan.run (· = ' ')

/-- Parameters up to the end. -/
def parameters : (fuel : Nat) → Scan Unit
  | 0 => failure
  | fuel + 1 => do
    let _ ← Scan.run (· = ' ')
    if (← Scan.peek).isNone then return
    let _ ← token
    Scan.text "="
    if (← Scan.peek) = some '"' then quotedValue
    else
      let _ ← Scan.run isToken
    if ← Scan.accept ";" then parameters fuel

/-- A media type with its parameters. -/
def whole : Scan MediaType := do
  let kind ← token
  Scan.text "/"
  let subtype ← token
  if ← Scan.accept ";" then fun cs => parameters (cs.length + 1) cs
  let (subtype, suffix) := cutSuffix subtype
  return ⟨lower kind, lower subtype, suffix.map lower⟩

/-- Read a media type. -/
def read? (text : String) : Option MediaType :=
  match whole text.toList with
  | some (m, []) => some m
  | _ => none

/-- Whether content of a media type is JSON. -/
def isJson (m : MediaType) : Bool :=
  m.kind = "application" && (m.subtype = "json" || m.suffix = some "json")

end MediaType

end Rampart.Api
