/-!
# Searching and scanning texts

Substring tests and cuts on lists of characters, and scans that read something at the front of a
text.

* `startsWith?` gives what follows a leading text.
* `occursIn` tests whether one text stands somewhere in another.
* `cut?` cuts a text at the first place where another one stands.
* `Scan` gives what has been read and leaves what follows; when it fails, nothing has been read.
-/

namespace Rampart.Text

/-- What follows `start` in a text that starts with it. -/
def startsWith? : (start text : List Char) → Option (List Char)
  | [], text => some text
  | _ :: _, [] => none
  | s :: start, c :: text => if s = c then startsWith? start text else none

/-- Whether `part` stands somewhere in `text`. -/
def occursIn (part : List Char) : (text : List Char) → Bool
  | [] => part.isEmpty
  | c :: text => part.isPrefixOf (c :: text) || occursIn part text

/-- The text before and after the first place where `part` stands. -/
def cut? (part : List Char) : (text : List Char) → Option (List Char × List Char)
  | [] => if part.isEmpty then some ([], []) else none
  | c :: text => match startsWith? part (c :: text) with
    | some after => some ([], after)
    | none => match cut? part text with
      | some (before, after) => some (c :: before, after)
      | none => none

/-- Whether `part` stands somewhere in `text`. -/
def hasText (text part : String) : Bool :=
  occursIn part.toList text.toList

/-! ## Scans -/

/-- A scan of a text. -/
abbrev Scan := StateT (List Char) Option

namespace Scan

/-- The next character, which stays. -/
def peek : Scan (Option Char) := fun cs => some (cs.head?, cs)

/-- A character of a class. -/
def one (isWanted : Char → Bool) : Scan Char
  | [] => none
  | c :: cs => if isWanted c then some (c, cs) else none

/-- All characters of a class up to the first other one. -/
def run (isWanted : Char → Bool) : Scan (List Char) := fun cs =>
  some (cs.takeWhile isWanted, cs.dropWhile isWanted)

/-- Exactly a number of characters of a class. -/
def exactly (isWanted : Char → Bool) : (count : Nat) → Scan (List Char)
  | 0 => return []
  | count + 1 => return (← one isWanted) :: (← exactly isWanted count)

/-- A text. -/
def text (expected : String) : Scan Unit := fun cs =>
  (startsWith? expected.toList cs).map fun rest => ((), rest)

/-- Read a text if it is there; tells whether it was. -/
def accept (expected : String) : Scan Bool := fun cs =>
  some (match startsWith? expected.toList cs with
    | some rest => (true, rest)
    | none => (false, cs))

/-- What a scan reads, or nothing. -/
def optional {α : Type} (s : Scan α) : Scan (Option α) :=
  (some <$> s) <|> pure none

end Scan

end Rampart.Text
