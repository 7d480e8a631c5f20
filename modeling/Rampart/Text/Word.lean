import Rampart.Text.Search

/-!
# Words of a command line

One argument is one word to a POSIX shell: `Word.quote` writes an argument so that it is read
back as a single word, and `Word.split` is the reader, for command lines in which nothing is
expanded.

* A non-empty argument of `isPlain` characters is written as it is.
* Any other argument stands in single quotes; a single quote inside it is written as
  `quoteMark`, which leaves the quotes, writes a double-quoted quote and enters them again.
-/

namespace Rampart.Text.Word

/-- Characters that mean themselves in every place of a word. -/
def isPlain (c : Char) : Bool :=
  c.isAlphanum || "-_./:=@,+%".toList.contains c

/-- A single quote, written between two single-quoted parts of a word. -/
def quoteMark : List Char :=
  ['\'', '"', '\'', '"', '\'']

/-- The inside of a single-quoted word. -/
def quoteBody : List Char → List Char
  | [] => []
  | c :: cs => if c = '\'' then quoteMark ++ quoteBody cs else c :: quoteBody cs

/-- An argument as one word. -/
def quoteChars (cs : List Char) : List Char :=
  if !cs.isEmpty && cs.all isPlain then cs else '\'' :: quoteBody cs ++ ['\'']

/-- An argument as one word. -/
def quote (s : String) : String :=
  String.ofList (quoteChars s.toList)

/-- A command line of quoted arguments. -/
def line (arguments : List String) : String :=
  " ".intercalate (arguments.map quote)

/-! ## Reading a command line -/

/-- Where the reader of a command line is. -/
inductive Mode
  /-- Between words. -/
  | between
  /-- In the unquoted part of a word. -/
  | bare
  /-- Inside single quotes. -/
  | single
  /-- Inside double quotes. -/
  | double
deriving DecidableEq, Repr

/-- Blanks and line ends separate words. -/
def isSeparator (c : Char) : Bool :=
  c = ' ' || c = '\t' || c = '\n'

/-- Characters that would mean something else than themselves outside quotes. -/
def isSpecial (c : Char) : Bool :=
  "|&;<>()$\x60\\*?[]#~\x7b\x7d!".toList.contains c

/-- Read words from `cs`; `word` is the word being read, last character first. The reader gives
up on an open quote and on any character that a shell would expand or act on. -/
def splitFrom (mode : Mode) (word : List Char) : List Char → Option (List (List Char))
  | [] => match mode with
    | .between => some []
    | .bare => some [word.reverse]
    | .single | .double => none
  | c :: cs => match mode with
    | .between =>
      if isSeparator c then splitFrom .between [] cs
      else if c = '\'' then splitFrom .single [] cs
      else if c = '"' then splitFrom .double [] cs
      else if isSpecial c then none
      else splitFrom .bare [c] cs
    | .bare =>
      if isSeparator c then (splitFrom .between [] cs).map (word.reverse :: ·)
      else if c = '\'' then splitFrom .single word cs
      else if c = '"' then splitFrom .double word cs
      else if isSpecial c then none
      else splitFrom .bare (c :: word) cs
    | .single =>
      if c = '\'' then splitFrom .bare word cs else splitFrom .single (c :: word) cs
    | .double =>
      if c = '"' then splitFrom .bare word cs
      else if c = '$' || c = '\x60' || c = '\\' then none
      else splitFrom .double (c :: word) cs

/-- The words of a command line in which nothing is expanded. -/
def split (line : String) : Option (List String) :=
  (splitFrom .between [] line.toList).map (·.map String.ofList)

end Rampart.Text.Word
