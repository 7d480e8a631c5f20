import Rampart.Yaml.Number

/-!
# YAML documents

Documents made of mappings from strings to strings, numbers, truth values and mappings, and their
text in block style.

* A string is written plain when it reads back as the same string, else in single quotes, else in
  double quotes with escapes (`styleOf`); a string with line feeds is a literal block where its
  characters and blanks allow one. Lines are never folded.
* A key is written in front of its colon if it is one line of at most 128 bytes, else after `?`.
-/

namespace Rampart

/-- A document or part of one. -/
inductive Yaml
  | text (s : String)
  /-- A number or truth value, by its text. -/
  | scalar (word : String)
  | mapping (entries : List (String × Yaml))
deriving Repr

namespace Yaml

/-! ## Characters -/

/-- Line breaks. -/
def isBreak (c : Char) : Bool :=
  c = '\n' || c = '\r' || c.toNat = 0x85 || c.toNat = 0x2028 || c.toNat = 0x2029

/-- Blanks, line breaks and the null character. -/
def isBlankOrBreak (c : Char) : Bool :=
  c = ' ' || c = '\t' || c.toNat = 0 || isBreak c

/-- Characters that need no escape. -/
def isPrintable (c : Char) : Bool :=
  let n := c.toNat
  n = 0x0A || (0x20 ≤ n && n ≤ 0x7E) || (0xA0 ≤ n && n ≤ 0xD7FF) ||
    (0xE000 ≤ n && n ≤ 0xFFFD && n != 0xFEFF) || 0x10000 ≤ n

/-! ## Choosing a style -/

/-- How a string is written. -/
inductive Style
  | plain
  | single
  | double
  | literal
deriving DecidableEq, Repr

/-- Characters that cannot begin a plain scalar. -/
def isIndicator (c : Char) : Bool :=
  "#,[]\x7b\x7d&*!|>'\"%@\x60".toList.contains c

/-- Whether what follows a character is blank or the end. -/
def endsHere : List Char → Bool
  | [] => true
  | c :: _ => isBlankOrBreak c

/-- Whether a text holds an indicator after its first character: a colon before a blank, or a
number sign after one. -/
def hasInnerIndicator (previous : Char) : List Char → Bool
  | [] => false
  | c :: cs =>
    (c = ':' && endsHere cs) || (c = '#' && isBlankOrBreak previous) || hasInnerIndicator c cs

/-- Whether a text means something else than itself as a plain scalar. -/
def hasIndicator (cs : List Char) : Bool :=
  ['-', '-', '-'].isPrefixOf cs || ['.', '.', '.'].isPrefixOf cs ||
    match cs with
    | [] => false
    | c :: rest =>
      isIndicator c || ((c = '?' || c = ':' || c = '-') && endsHere rest) ||
        hasInnerIndicator c rest

/-- Whether some character that meets `first` stands in front of one that meets `second`. -/
def hasPair (first second : Char → Bool) : List Char → Bool
  | c :: d :: cs => (first c && second d) || hasPair first second (d :: cs)
  | _ => false

/-- A space. -/
def isSpace (c : Char) : Bool := c = ' '

/-- Whether a text has characters or blanks that only double quotes keep. -/
def needsEscapes (cs : List Char) : Bool :=
  cs.any (!isPrintable ·) || hasPair isSpace isBreak cs

/-- Whether a text begins or ends with a character that meets a test. -/
def isEdged (test : Char → Bool) (cs : List Char) : Bool :=
  cs.head?.any test || cs.getLast?.any test

/-- Whether a text can stand without quotes. -/
def allowsPlain (cs : List Char) : Bool :=
  !needsEscapes cs && !cs.any isBreak && !isEdged isSpace cs && !hasIndicator cs

/-- Whether a text can stand in single quotes. -/
def allowsSingle (cs : List Char) : Bool :=
  !needsEscapes cs && !hasPair isBreak isSpace cs

/-- Whether a text can be a literal block. -/
def allowsLiteral (cs : List Char) : Bool :=
  !cs.isEmpty && !needsEscapes cs && !cs.getLast?.any isSpace

/-- The style of a string. -/
def styleOf (s : String) : Style :=
  let cs := s.toList
  if cs.contains '\n' then
    if allowsLiteral cs then .literal else .double
  else if isPlainString s && allowsPlain cs then .plain
  else if allowsSingle cs then .single
  else .double

/-! ## Writing strings -/

/-- A number of spaces. -/
def spaces (n : Nat) : List Char :=
  List.replicate n ' '

/-- Text lines behind an indent: each character after a line break is preceded by it, except
another line break. -/
def indentLines (indent : Nat) (write : Char → List Char) (broken : Bool) :
    List Char → List Char
  | [] => []
  | c :: cs =>
    if isBreak c then c :: indentLines indent write true cs
    else
      let rest := write c ++ indentLines indent write false cs
      if broken then spaces indent ++ rest else rest

/-- A character between single quotes. -/
def writeSingle (c : Char) : List Char :=
  if c = '\'' then ['\'', '\''] else [c]

/-- A digit of base sixteen, in upper case. -/
def hexDigit (n : Nat) : Char :=
  if n < 10 then Char.ofNat (48 + n) else Char.ofNat (55 + n)

/-- The last digits of a number in base sixteen. -/
def hexDigits : (width : Nat) → Nat → List Char
  | 0, _ => []
  | width + 1, n => hexDigit (n >>> (4 * width) % 16) :: hexDigits width n

/-- The letter that stands for a character after a backslash. -/
def escapeLetter? (n : Nat) : Option Char :=
  [(0, '0'), (7, 'a'), (8, 'b'), (9, 't'), (10, 'n'), (11, 'v'), (12, 'f'), (13, 'r'), (27, 'e'),
   (0x22, '"'), (0x5C, '\\'), (0x85, 'N'), (0xA0, '_'), (0x2028, 'L'), (0x2029, 'P')].lookup n

/-- A character between double quotes. -/
def writeDouble (c : Char) : List Char :=
  if isPrintable c && !isBreak c && c != '"' && c != '\\' then [c]
  else
    let n := c.toNat
    match escapeLetter? n with
    | some letter => ['\\', letter]
    | none =>
      if n ≤ 0xFF then '\\' :: 'x' :: hexDigits 2 n
      else if n ≤ 0xFFFF then '\\' :: 'u' :: hexDigits 4 n
      else '\\' :: 'U' :: hexDigits 8 n

/-- The marks of a literal block: an indent where the text does not show it, and what to do with
the line breaks at the end. -/
def literalMarks (cs : List Char) : List Char :=
  let indent := if cs.head?.any (fun c => isSpace c || isBreak c) then ['2'] else []
  let chomp := match cs.reverse with
    | [] => ['-']
    | last :: others =>
      if !isBreak last then ['-']
      else match others with
        | [] => ['+']
        | c :: _ => if isBreak c then ['+'] else []
  indent ++ chomp

/-- The indent of a closing quote, if the quote has a line of its own. -/
def closing (indent : Nat) (cs : List Char) : List Char :=
  if cs.getLast?.any isBreak then spaces indent else []

/-- A string, given the indent of its further lines. -/
def writeText (indent : Nat) (s : String) : List Char :=
  let cs := s.toList
  match styleOf s with
  | .plain => cs
  | .single => '\'' :: indentLines indent writeSingle false cs ++ closing indent cs ++ ['\'']
  | .double => '"' :: cs.flatMap writeDouble ++ ['"']
  | .literal => '|' :: literalMarks cs ++ '\n' :: indentLines indent (fun c => [c]) true cs

/-- End a line, unless it has ended. -/
def endLine (cs : List Char) : List Char :=
  if cs.getLast?.any isBreak then cs else cs ++ ['\n']

/-! ## Writing documents -/

/-- Whether a key can stand in front of its colon. -/
def isSimpleKey (key : String) : Bool :=
  !key.toList.any isBreak && key.utf8ByteSize ≤ 128

/-- A key with its colon. -/
def writeKey (level : Nat) (key : String) : List Char :=
  if isSimpleKey key then spaces level ++ writeText (level + 2) key ++ [':']
  else
    spaces level ++ ['?', ' '] ++ endLine (writeText (level + 2) key) ++ spaces level ++ [':']

mutual

/-- What follows a colon, to the end of its last line. -/
def writeValue (level : Nat) : Yaml → List Char
  | .text s => endLine (' ' :: writeText (level + 2) s)
  | .scalar word => ' ' :: word.toList ++ ['\n']
  | .mapping [] => " \x7b\x7d\n".toList
  | .mapping (entry :: entries) => '\n' :: writeEntries (level + 2) (entry :: entries)

/-- The entries of a mapping. -/
def writeEntries (level : Nat) : List (String × Yaml) → List Char
  | [] => []
  | (key, value) :: entries =>
    writeKey level key ++ writeValue level value ++ writeEntries level entries

end

/-- The text of a document. -/
def document (entries : List (String × Yaml)) : String :=
  String.ofList (writeEntries 0 entries)

end Yaml

end Rampart
