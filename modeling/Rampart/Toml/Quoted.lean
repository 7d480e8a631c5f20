import Rampart.Text.Blank
import Rampart.Text.Search

/-!
# Quoted texts in TOML

Texts in double quotes may have escapes, those in single quotes have none. Three quotes begin a
text of several lines, whose first line break is left out; one or two quotes may stand in it, also
just before its end.
-/

namespace Rampart.Toml

open Text (Scan)

/-- Blanks within a line. -/
def isBlank (c : Char) : Bool := c = ' ' || c = '\t'

/-- Characters that may stand in comments: all but control characters. -/
def isPrinted (c : Char) : Bool := c = '\t' || (' ' ≤ c && c != '\x7f')

/-- What follows a line break. -/
def afterBreak? : List Char → Option (List Char)
  | '\n' :: cs => some cs
  | '\r' :: '\n' :: cs => some cs
  | _ => none

/-- Drop blanks and line breaks. -/
def skipBreaks : List Char → List Char
  | '\n' :: cs => skipBreaks cs
  | '\r' :: '\n' :: cs => skipBreaks cs
  | c :: cs => if isBlank c then skipBreaks cs else c :: cs
  | [] => []

/-- The value of a digit of base sixteen. -/
def hexDigit? (c : Char) : Option Nat :=
  if '0' ≤ c && c ≤ '9' then some (c.toNat - 48)
  else if 'a' ≤ c && c ≤ 'f' then some (c.toNat - 87)
  else if 'A' ≤ c && c ≤ 'F' then some (c.toNat - 55)
  else none

/-- The character of a code point of so many digits. -/
def codePoint (width : Nat) : Scan Char := do
  let digits ← Scan.exactly (fun c => (hexDigit? c).isSome) width
  let point := digits.foldl (fun n c => 16 * n + (hexDigit? c).getD 0) 0
  if point.isValidChar then return Char.ofNat point else failure

/-- The character of an escape, after its backslash. -/
def escape : Scan Char := do
  match ← Scan.one fun _ => true with
  | 'b' => return '\x08'
  | 't' => return '\t'
  | 'n' => return '\n'
  | 'f' => return '\x0c'
  | 'r' => return '\r'
  | '"' => return '"'
  | '\\' => return '\\'
  | 'u' => codePoint 4
  | 'U' => codePoint 8
  | _ => failure

/-- The rest of a text in double quotes; what was read before is in reverse. -/
def basicFrom : (fuel : Nat) → (read : List Char) → Scan String
  | 0, _ => failure
  | fuel + 1, read => do
    match ← Scan.one isPrinted with
    | '"' => return String.ofList read.reverse
    | '\\' => basicFrom fuel ((← escape) :: read)
    | c => basicFrom fuel (c :: read)

/-- The rest of a text in single quotes. -/
def literal : Scan String := do
  let read ← Scan.run fun c => isPrinted c && c != '\''
  Scan.text "'"
  return String.ofList read

/-- The quotes at the front of a text of several lines: those that belong to it, and whether the
text ends there. -/
def quotes (mark : Char) : Scan (List Char × Bool) := do
  let found ← Scan.run (· = mark)
  if found.length < 3 then return (found, false)
  else if found.length ≤ 5 then return (found.drop 3, true)
  else failure

/-- The rest of a text of several lines, in quotes of a kind; what was read before is in reverse.
A backslash at the end of a line leaves out all blanks and line breaks that follow. -/
def linesFrom (mark : Char) (escapes : Bool) : (fuel : Nat) → (read : List Char) → Scan String
  | 0, _, _ => none
  | _ + 1, _, [] => none
  | fuel + 1, read, c :: cs =>
    if c = mark then do
      let ((found, isEnd), rest) ← quotes mark (c :: cs)
      if isEnd then return (String.ofList (read.reverse ++ found), rest)
      else linesFrom mark escapes fuel (found ++ read) rest
    else if escapes && c = '\\' then
      match afterBreak? (cs.dropWhile isBlank) with
      | some rest => linesFrom mark escapes fuel read (skipBreaks rest)
      | none => do
        let (c, rest) ← escape cs
        linesFrom mark escapes fuel (c :: read) rest
    else match afterBreak? (c :: cs) with
      | some rest => linesFrom mark escapes fuel ('\n' :: read) rest
      | none => if isPrinted c then linesFrom mark escapes fuel (c :: read) cs else none

/-- The rest of a text of several lines. -/
def linesOf (mark : Char) (escapes : Bool) : Scan String := fun cs =>
  linesFrom mark escapes (cs.length + 1) [] ((afterBreak? cs).getD cs)

/-- A text on one line. -/
def shortText : Scan String := do
  if ← Scan.accept "\"" then
    fun cs => basicFrom (cs.length + 1) [] cs
  else
    Scan.text "'"
    literal

/-- A text in quotes of any kind. -/
def quoted : Scan String := do
  if ← Scan.accept "\"\"\"" then linesOf '"' true
  else if ← Scan.accept "'''" then linesOf '\'' false
  else shortText

end Rampart.Toml
