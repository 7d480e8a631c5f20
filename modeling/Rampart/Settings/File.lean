import Rampart.Settings.Wire
import Rampart.Text.Decimal
import Rampart.Text.Shortest
import Rampart.Toml

/-!
# Settings files

Settings from a file and from the environment, whose variables win over the file. Single values
are converted where there is a way: a number may be given as a text and a text as a number.

* `Settings.load?` gives the settings, or nothing when something cannot be read or converted.
* A variable `BASTION__SECTION__KEY`, in any case, gives the setting `key` of a section. All other
  variables are passed over, and so are unknown settings.
-/

namespace Rampart

open Json (Decoder)

/-! ## Conversions -/

namespace Scalars

/-- Texts for a true value. -/
def yes : List String := ["true", "on", "yes"]

/-- Texts for a false value. -/
def no : List String := ["false", "off", "no"]

/-- A text without the difference of case. -/
def lower (s : String) : String :=
  s.map Char.toLower

/-- The number that a text of digits and a point names, rounded; none if it is not finite. -/
def roundedText? (text : List Char) : Option Nat := do
  let whole := text.takeWhile (· != '.')
  let places := (text.dropWhile (· != '.')).drop 1
  let digits ← Text.Decimal.nat? (whole ++ places)
  return (← Text.Binary.ofDecimal? digits (-(places.length : Int))).rounded

/-- A fractional number as an unsigned one of 64 bits: rounded, with the ends of the range for
what is outside it. -/
def wordOfText (text : String) : UInt64 :=
  if text = "inf" then .ofNat Text.Decimal.maxWord
  else if text = "NaN" || text.startsWith "-" then 0
  else .ofNat (min Text.Decimal.maxWord ((roundedText? text.toList).getD 0))

/-- A text from any single value. -/
def toText : Decoder String
  | .str s => .ok s
  | .bool b => .ok (if b then "true" else "false")
  | .int n => .ok (toString n)
  | .decimal text => .ok text
  | _ => .error .mismatched

/-- A truth value from any single value: numbers other than zero are true. -/
def toBoolean : Decoder Bool
  | .bool b => .ok b
  | .int n => .ok (n != 0)
  | .decimal text => .ok (text != "0" && text != "-0")
  | .str s =>
    if ("1" :: yes).contains (lower s) then .ok true
    else if ("0" :: no).contains (lower s) then .ok false
    else .error .mismatched
  | _ => .error .mismatched

/-- A number from any single value. -/
def toWord : Decoder UInt64
  | .bool b => .ok (if b then 1 else 0)
  | .int n => if 0 ≤ n then .ok (.ofNat n.toNat) else .error .mismatched
  | .decimal text => .ok (wordOfText text)
  | .str s =>
    if yes.contains (lower s) then .ok 1
    else if no.contains (lower s) then .ok 0
    else match Text.Decimal.word? s.toList with
      | some n => .ok n
      | none => .error .mismatched
  | _ => .error .mismatched

/-- Single values with conversions. Of numbers that are too long the last bits are taken. -/
def converting : Scalars where
  string := toText
  boolean := toBoolean
  word := toWord
  word32 j := (toWord j).map (·.toUInt32)
  word16 j := (toWord j).map (·.toUInt16)

end Scalars

namespace Settings

/-! ## Paths -/

/-- A step to a part of a value. -/
inductive Step
  | member (name : String)
  /-- The item of a position; below zero it is counted from the end. -/
  | item (position : Int)
deriving DecidableEq, Repr

/-- Characters of names in paths. -/
def isNameChar (c : Char) : Bool :=
  c.isAlphanum || c = '_' || c = '-' || c = ' '

/-- Blanks beside a position. -/
def blanks : Text.Scan Unit := do
  let _ ← Text.Scan.run fun c => c = ' ' || c = '\t'

/-- A name in a path. -/
def nameStep : Text.Scan Step := do
  let first ← Text.Scan.one isNameChar
  return .member (String.ofList (first :: (← Text.Scan.run isNameChar)))

/-- A position in a path. -/
def itemStep : Text.Scan Step := do
  Text.Scan.text "["
  blanks
  let sign : Int ← if ← Text.Scan.accept "-" then pure (-1) else do
    let _ ← Text.Scan.accept "+"
    pure 1
  let digits ← Text.Scan.run Char.isDigit
  blanks
  Text.Scan.text "]"
  match Text.Decimal.nat? digits with
  | some n => if n < 1 <<< 63 then return .item (sign * n) else failure
  | none => failure

/-- Further steps, up to the end. -/
def stepsFrom : (fuel : Nat) → List Char → Option (List Step)
  | _, [] => some []
  | 0, _ => none
  | fuel + 1, cs => do
    let (step, rest) ← ((do Text.Scan.text "."; nameStep) <|> itemStep) cs
    return step :: (← stepsFrom fuel rest)

/-- The path that a key writes. A key that writes none names a member. -/
def pathOf (key : String) : List Step :=
  let path := do
    let (first, rest) ← nameStep key.toList
    return first :: (← stepsFrom rest.length rest)
  path.getD [.member key]

/-! ## Layers -/

/-- The members of an object; other values have none. -/
def membersOf : Json → List (String × Json)
  | .obj members => members
  | _ => []

/-- The items of an array; other values have none. -/
def itemsOf : Json → List Json
  | .arr items => items
  | _ => []

/-- Change what an object has under a name. -/
def changeMember (name : String) (f : Option Json → Json) :
    List (String × Json) → List (String × Json)
  | [] => [(name, f none)]
  | member :: members =>
    if member.1 = name then (name, f (some member.2)) :: members
    else member :: changeMember name f members

mutual

/-- A value onto another: objects are merged, everything else is replaced. -/
def onto (value : Json) (before : Option Json) : Json :=
  match value with
  | .obj [] => before.getD (.obj [])
  | .obj members => .obj (membersOnto members (membersOf (before.getD .null)))
  | value => value

/-- Members onto those of another object. -/
def membersOnto : List (String × Json) → List (String × Json) → List (String × Json)
  | [], before => before
  | (name, value) :: members, before =>
    membersOnto members (changeMember name (onto value) before)

end

/-- Where a position is in a list of a length. -/
def indexOf (position : Int) (length : Nat) : Nat :=
  if 0 ≤ position then position.toNat else length - position.natAbs

/-- Change an item of a list, which grows if it is too short. -/
def changeItem (position : Int) (f : Json → Json) (items : List Json) : List Json :=
  let index := indexOf position items.length
  let items := items ++ List.replicate (index + 1 - items.length) .null
  items.modify index f

/-- Put a value at the end of a path. What stands in the way is replaced. -/
def put (value : Json) : List Step → Option Json → Json
  | [], before => onto value before
  | .member name :: path, before =>
    .obj (changeMember name (put value path) (membersOf (before.getD .null)))
  | .item position :: path, before =>
    let last := path.isEmpty
    .arr (changeItem position (fun item => if last then value else put value path (some item))
      (itemsOf (before.getD .null)))

/-- Put a member of one layer over all layers below. -/
def putMember (layers : Json) (key : String) (value : Json) : Json :=
  put value (pathOf key) (some layers)

/-- What the names of variables start with that are settings. -/
def variableStart : List Char := "bastion__".toList

/-- The key of a variable, if it is a setting. -/
def keyOf? (name : String) : Option String :=
  (Text.startsWith? variableStart (name.toList.map Char.toLower)).map fun rest =>
    (String.ofList rest).replace "__" "."

/-- The settings of the environment. -/
def ofEnvironment (environment : List (String × String)) : List (String × Json) :=
  environment.filterMap fun (name, value) => (keyOf? name).map fun key => (key, .str value)

/-- The settings of a file, if there is one, and of the environment. -/
def load? (file : Option String) (environment : List (String × String)) : Option Settings := do
  let base ← match file with
    | some text => Toml.read? text
    | none => some (.obj [])
  let layers := (membersOf base ++ ofEnvironment environment).foldl
    (fun layers (key, value) => putMember layers key value) (.obj [])
  ((Settings.fields .converting).decode layers).toOption

end Settings

end Rampart
