/-!
# Blank characters

A character is blank when it has the Unicode property `White_Space`. Trimming and splitting in
this library always mean this set, so a no-break space is trimmed and a zero-width space is not.

* `trim` drops blanks from both ends.
* `fieldsBy` cuts at separators and keeps the non-empty pieces.
* `lines` cuts at line feeds; a carriage return before one belongs to the line break.
-/

namespace Rampart.Text

/-- The characters with the Unicode property `White_Space`. -/
def isBlank (c : Char) : Bool :=
  let n := c.toNat
  (9 ≤ n && n ≤ 13) || n == 0x20 || n == 0x85 || n == 0xA0 || n == 0x1680 ||
  (0x2000 ≤ n && n ≤ 0x200A) || n == 0x2028 || n == 0x2029 || n == 0x202F || n == 0x205F ||
  n == 0x3000

/-! ## Trimming -/

/-- Drop the blanks in front. -/
def trimLeft (cs : List Char) : List Char :=
  cs.dropWhile isBlank

/-- Drop the blanks at the end. -/
def trimRight (cs : List Char) : List Char :=
  (cs.reverse.dropWhile isBlank).reverse

/-- Drop the blanks at both ends. -/
def trim (cs : List Char) : List Char :=
  trimRight (trimLeft cs)

/-- `trim` on strings. -/
def trimmed (s : String) : String :=
  String.ofList (trim s.toList)

/-- A text of blanks only. -/
def isBlankText (s : String) : Bool :=
  s.toList.all isBlank

/-! ## Splitting -/

/-- Cut a text at every separator; adjacent separators leave empty pieces between them. -/
def splitBy (isSeparator : Char → Bool) : List Char → List (List Char)
  | [] => [[]]
  | c :: cs =>
    if isSeparator c then [] :: splitBy isSeparator cs
    else match splitBy isSeparator cs with
      | [] => [[c]]
      | piece :: pieces => (c :: piece) :: pieces

/-- The non-empty pieces between separators. -/
def fieldsBy (isSeparator : Char → Bool) (cs : List Char) : List (List Char) :=
  (splitBy isSeparator cs).filter (!·.isEmpty)

/-- The lines of a text: a final line feed ends the last line, and a carriage return in front of
a line feed belongs to the line break. -/
def lines (cs : List Char) : List (List Char) :=
  let pieces := splitBy (· == '\n') cs
  let broken := pieces.dropLast.map dropCarriageReturn
  match pieces.getLast? with
  | some last => if last.isEmpty then broken else broken ++ [last]
  | none => broken
where
  /-- Drop one carriage return at the end. -/
  dropCarriageReturn (line : List Char) : List Char :=
    if line.getLast? == some '\r' then line.dropLast else line

end Rampart.Text
