import Rampart.Yaml

/-!
# Reading YAML documents

A strict reader of documents in block style, with the line breaks, the escapes and the folding of
YAML 1.1. A part is read at the front of a text, together with what follows it. What the reader does
not know it refuses: sequences, comments, tags, anchors, keys after `?`, folded blocks, and scalars
that go on in the next line without quotes or within double quotes.

* `resolve` tells what a plain scalar stands for: a word such as `yes` is a string, and so is
  everything in quotes or in a block.
* `fold`: what the breaks within single quotes stand for. `doubleFrom`: escapes.
* `literalFrom`: a literal block, whose indent is given or found out.
* `entriesFrom`: a mapping is as long as its lines have one indent. No key stands there twice.
-/

namespace Rampart.Yaml

/-- What a document says. -/
inductive Value
  | null
  | boolean (b : Bool)
  | integer (n : Int)
  /-- A number that is no integer, by its text. -/
  | decimal (digits : String)
  | text (s : String)
  | mapping (entries : List (String × Value))
deriving Repr

/-- A mapping; nothing stands for the empty value. -/
def Value.ofEntries : List (String × Value) → Value
  | [] => .null
  | entry :: entries => .mapping (entry :: entries)

/-! ## Characters -/

/-- Characters that can stand in a document. -/
def isReadable (c : Char) : Bool :=
  let n := c.toNat
  n = 0x09 || n = 0x0A || n = 0x0D || (0x20 ≤ n && n ≤ 0x7E) || n = 0x85 ||
    (0xA0 ≤ n && n ≤ 0xD7FF) || (0xE000 ≤ n && n ≤ 0xFFFD) || 0x10000 ≤ n

/-- Every end of a line as a line feed, but for the separators of lines and paragraphs, which stay
what they are. -/
def lineFeeds : List Char → List Char
  | '\r' :: '\n' :: cs => '\n' :: lineFeeds cs
  | c :: cs => (if c = '\r' || c.toNat = 0x85 then '\n' else c) :: lineFeeds cs
  | [] => []

/-- Space and tab. -/
def isWhite (c : Char) : Bool := c = ' ' || c = '\t'

/-- Leave out what is at the end of a text and meets a test. -/
def dropEnd (test : Char → Bool) (cs : List Char) : List Char :=
  (cs.reverse.dropWhile test).reverse

/-- The number of spaces at the front of a line. -/
def depth (line : List Char) : Nat :=
  (line.takeWhile isSpace).length

/-- The next line, where nothing more stands on this one. -/
def nextLine? (cs : List Char) : Option (List Char) :=
  match cs.dropWhile isWhite with
  | [] => some []
  | c :: rest => if isBreak c then some rest else none

/-! ## Plain scalars -/

/-- The number that an integer stands for. -/
def integerValue (cs : List Char) : Int :=
  let (isNegative, unsigned) := match cs with
    | '-' :: rest => (true, rest)
    | '+' :: rest => (false, rest)
    | _ => (false, cs)
  let (base, digits) := (based? unsigned).getD (10, unsigned)
  let n := digits.foldl (fun n c => base * n + (digitOf? base c).getD 0) 0
  if isNegative then -n else n

/-- What a plain scalar stands for. Digits after a leading zero are a string. -/
def resolve (s : String) : Value :=
  if isNull s then .null
  else if isBoolean s then .boolean (["true", "True", "TRUE"].contains s)
  else if isInteger s.toList then .integer (integerValue s.toList)
  else if isDigitsOnly s.toList then .text s
  else if isFloat s then .decimal s
  else .text s

/-- The rest of a plain scalar after one of its characters. It ends with the line, or with a colon
before a blank, or with a number sign after one. -/
def plainFrom (previous : Char) : List Char → List Char × List Char
  | [] => ([], [])
  | c :: cs =>
    if isBreak c || (c = ':' && endsHere cs) || (c = '#' && isBlankOrBreak previous) then
      ([], c :: cs)
    else
      let (read, rest) := plainFrom c cs
      (c :: read, rest)

/-- Whether a text marks the beginning or the end of a document. -/
def isMarker (cs : List Char) : Bool :=
  ['-', '-', '-'].isPrefixOf cs || ['.', '.', '.'].isPrefixOf cs

/-- A plain scalar. -/
def plain? : List Char → Option (Value × List Char)
  | [] => none
  | c :: cs =>
    if isBlankOrBreak c || isIndicator c ||
        ((c = '?' || c = ':' || c = '-') && endsHere cs) then none
    else
      let (read, rest) := plainFrom c cs
      let scalar := dropEnd isWhite (c :: read)
      if isMarker scalar then none else some (resolve (String.ofList scalar), rest)

/-! ## Single quotes -/

/-- Put a character in front of what has been read. -/
def prepend (c : Char) : List Char × List Char → List Char × List Char
  | (read, rest) => (c :: read, rest)

/-- The inside of single quotes, up to the closing one. Two quotes stand for one. -/
def singleFrom : List Char → Option (List Char × List Char)
  | [] => none
  | '\'' :: '\'' :: cs => (singleFrom cs).map (prepend '\'')
  | '\'' :: cs => some ([], cs)
  | c :: cs => (singleFrom cs).map (prepend c)

/-- What the breaks between two lines stand for: a space, if it is one line feed; a first line feed
does not count otherwise. -/
def joint : List Char → List Char
  | ['\n'] => [' ']
  | '\n' :: breaks => breaks
  | breaks => breaks

/-- What `breaks` and `blanks` since the last other character stand for. -/
def held (breaks blanks : List Char) : List Char :=
  if breaks.isEmpty then blanks else joint breaks

/-- Fold what follows `breaks` and `blanks`. Blanks next to a break do not count. -/
def foldFrom (breaks blanks : List Char) : List Char → List Char
  | [] => held breaks blanks
  | c :: cs =>
    if isBreak c then foldFrom (breaks ++ [c]) [] cs
    else if isWhite c then foldFrom breaks (blanks ++ [c]) cs
    else held breaks blanks ++ c :: foldFrom [] [] cs

/-- The lines within quotes as one text. -/
def fold (cs : List Char) : List Char :=
  foldFrom [] [] cs

/-- What no line begins with that is indented or has nothing on it. -/
def isOuter (c : Char) : Bool := !isSpace c && !isBreak c

/-- Whether a line other than the first is neither indented nor empty. -/
def hasOuterLine (cs : List Char) : Bool :=
  hasPair isBreak isOuter cs

/-- A scalar after its opening quote. All lines after the first are indented, the one of the closing
quote too. -/
def single? (cs : List Char) : Option (Value × List Char) :=
  match singleFrom cs with
  | none => none
  | some (read, rest) =>
    if hasOuterLine (read ++ ['\'']) then none
    else some (.text (String.ofList (fold read)), rest)

/-! ## Double quotes -/

/-- Where a reader within double quotes is. -/
inductive Inside
  /-- Not in an escape. -/
  | between
  /-- After a backslash. -/
  | escape
  /-- In front of the last digits of a character's number, of which `value` has been read. -/
  | digits (left value : Nat)

/-- The number of digits that an escape has after its letter. -/
def digitsAfter? (letter : Char) : Option Nat :=
  if letter = 'x' then some 2
  else if letter = 'u' then some 4
  else if letter = 'U' then some 8
  else none

/-- The number of the character that a letter after a backslash stands for. -/
def escaped? (letter : Char) : Option Nat :=
  [('0', 0x00), ('a', 0x07), ('b', 0x08), ('t', 0x09), ('\t', 0x09), ('n', 0x0A), ('v', 0x0B),
   ('f', 0x0C), ('r', 0x0D), ('e', 0x1B), (' ', 0x20), ('"', 0x22), ('/', 0x2F), ('\\', 0x5C),
   ('N', 0x85), ('_', 0xA0), ('L', 0x2028), ('P', 0x2029)].lookup letter

/-- The inside of double quotes, up to the closing one. -/
def doubleFrom : Inside → List Char → Option (List Char × List Char)
  | _, [] => none
  | .between, c :: cs =>
    if c = '"' then some ([], cs)
    else if c = '\\' then doubleFrom .escape cs
    else if isBreak c then none
    else (doubleFrom .between cs).map (prepend c)
  | .escape, c :: cs =>
    match digitsAfter? c, escaped? c with
    | some count, _ => doubleFrom (.digits count 0) cs
    | none, some n => (doubleFrom .between cs).map (prepend (Char.ofNat n))
    | none, none => none
  | .digits left value, c :: cs =>
    match digitOf? 16 c with
    | none => none
    | some digit =>
      let value := 16 * value + digit
      if 1 < left then doubleFrom (.digits (left - 1) value) cs
      else if value.isValidChar then (doubleFrom .between cs).map (prepend (Char.ofNat value))
      else none

/-- A scalar after its opening double quote. -/
def double? (cs : List Char) : Option (Value × List Char) :=
  (doubleFrom .between cs).map fun (read, rest) => (.text (String.ofList read), rest)

/-! ## Literal blocks -/

/-- What becomes of the breaks at the end of a block. -/
inductive Chomp
  | strip
  /-- The first one stays, if the block has more than breaks. -/
  | clip
  | keep

/-- The mark of a way to deal with the breaks at the end. -/
def Chomp.ofMark? (c : Char) : Option Chomp :=
  if c = '-' then some .strip else if c = '+' then some .keep else none

/-- The text of a block. -/
def Chomp.apply (chomp : Chomp) (cs : List Char) : List Char :=
  let content := dropEnd isBreak cs
  match chomp with
  | .strip => content
  | .clip => if content.isEmpty then [] else cs.take (content.length + 1)
  | .keep => cs

/-- The marks of a block, in any order: the number of spaces by which it is indented further, and
what becomes of the breaks at its end. -/
def marks? : List Char → Option (Option Nat × Chomp)
  | [] => some (none, .clip)
  | [c] => match indent? c with
    | some n => some (some n, .clip)
    | none => (Chomp.ofMark? c).map fun chomp => (none, chomp)
  | [c, d] => match indent? c, Chomp.ofMark? d with
    | some n, some chomp => some (some n, chomp)
    | _, _ => match Chomp.ofMark? c, indent? d with
      | some chomp, some n => some (some n, chomp)
      | _, _ => none
  | _ => none
where
  /-- An indent is one digit and not zero. -/
  indent? (c : Char) : Option Nat := (digitOf? 10 c).filter (0 < ·)

/-- The largest indent of the first lines of a block, up to one that is not blank. -/
def indentFrom (column deepest : Nat) : List Char → Nat
  | [] => max column deepest
  | c :: cs =>
    if isSpace c then indentFrom (column + 1) deepest cs
    else if isBreak c then indentFrom 0 (max column deepest) cs
    else max column deepest

/-- The indent of a block's lines, as the marks tell it or as they show it. -/
def blockIndent (level : Nat) (further : Option Nat) (lines : List Char) : Nat :=
  match further with
  | some n => level + n
  | none => max (indentFrom 0 0 lines) (level + 1)

/-- The lines of a block, without the indent, of which `due` spaces have not been read yet. It ends
in front of a line that is not blank and has less of it. -/
def blockFrom (indent : Nat) : (due : Nat) → List Char → List Char × List Char
  | due, [] => ([], spaces (indent - due))
  | due, c :: cs =>
    if isBreak c then prepend c (blockFrom indent indent cs)
    else match due with
      | 0 => prepend c (blockFrom indent 0 cs)
      | left + 1 =>
        if isSpace c then blockFrom indent left cs
        else ([], spaces (indent - (left + 1)) ++ c :: cs)

/-- A literal block after its first mark, as a value in a mapping of a level. -/
def literalFrom (level : Nat) (cs : List Char) : Option (Value × List Char) :=
  match marks? (cs.takeWhile (!isBreak ·)) with
  | none => none
  | some (further, chomp) =>
    let lines := (cs.dropWhile (!isBreak ·)).drop 1
    let indent := blockIndent level further lines
    let (read, rest) := blockFrom indent indent lines
    some (.text (String.ofList (chomp.apply read)), rest)

/-! ## Mappings -/

/-- A value that is written in one piece, in quotes or without. -/
def inline? : List Char → Option (Value × List Char)
  | '\'' :: cs => single? cs
  | '"' :: cs => double? cs
  | '\x7b' :: '\x7d' :: cs => some (.mapping [], cs)
  | cs => plain? cs

/-- The largest number of characters of a key. -/
def keyLimit : Nat := 1024

/-- A key on one line, and what follows its colon. -/
def key? (cs : List Char) : Option (String × List Char) :=
  match inline? cs with
  | some (.text key, ':' :: rest) =>
    let written := cs.take (cs.length - (rest.length + 1))
    if endsHere rest && written.length ≤ keyLimit && !written.any isBreak then some (key, rest)
    else none
  | _ => none

mutual

/-- The value after the colon of a key that stands behind an indent of `level` spaces. -/
def valueFrom : (fuel level : Nat) → List Char → Option (Value × List Char)
  | 0, _, _ => none
  | fuel + 1, level, cs =>
    match nextLine? cs with
    | some rest =>
      if level < depth rest then
        (entriesFrom fuel (depth rest) rest).map fun (entries, rest) =>
          (Value.ofEntries entries, rest)
      else some (.null, rest)
    | none => match cs.dropWhile isWhite with
      | '|' :: rest => literalFrom level rest
      | start => do
        let (value, rest) ← inline? start
        return (value, ← nextLine? rest)

/-- The entries of a mapping at a level, up to a line with less indent. -/
def entriesFrom : (fuel level : Nat) → List Char → Option (List (String × Value) × List Char)
  | 0, _, _ => none
  | fuel + 1, level, cs =>
    let line := cs.dropWhile isSpace
    if line.isEmpty then some ([], [])
    else if depth cs < level then some ([], cs)
    else if level < depth cs then none
    else do
      let (key, rest) ← key? line
      let (value, rest) ← valueFrom fuel level rest
      let (entries, rest) ← entriesFrom fuel level rest
      if (entries.map (·.1)).contains key then none
      else some ((key, value) :: entries, rest)

end

/-- What a document says. -/
def read? (text : String) : Option Value :=
  let cs := lineFeeds text.toList
  if cs.all isReadable then
    match entriesFrom (cs.length + 1) 0 cs with
    | some (entries, []) => some (Value.ofEntries entries)
    | _ => none
  else none

end Rampart.Yaml
