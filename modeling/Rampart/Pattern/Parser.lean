import Rampart.Pattern
import Rampart.Pattern.Property
import Rampart.Text.Blank
import Rampart.Text.Letter

/-!
# Reading patterns

A recursive reader of the pattern language. `Pattern.isValid` is what the compiler of rules asks:
the text is a pattern, it is nested no deeper than `Pattern.maxDepth`, it matches whole characters
only, and its automaton stays within `Pattern.maxCost`.

The reader fails without saying why: no answer shows the reason.
-/

namespace Rampart.Pattern

/-- Where the reader is. -/
structure Cursor where
  rest : List Char
  /-- Blanks and comments between the parts of a pattern are skipped. -/
  spaced : Bool
  /-- The names of the groups so far. -/
  names : List (List Char)

/-- A reader of part of a pattern. -/
abbrev Reader := StateT Cursor Option

/-! ## Steps -/

/-- Skip blanks and comments; a comment runs to the end of its line. -/
def skipIgnored (inComment : Bool) : List Char → List Char
  | [] => []
  | c :: cs =>
    if inComment then skipIgnored (c != '\n') cs
    else if Text.isBlank c then skipIgnored false cs
    else if c = '#' then skipIgnored true cs
    else c :: cs

/-- Skip what is ignored here. -/
def skip : Reader Unit :=
  modify fun s => if s.spaced then { s with rest := skipIgnored false s.rest } else s

/-- The next character; fails at the end. -/
def peek : Reader Char := do
  match (← get).rest with
  | c :: _ => return c
  | [] => failure

/-- Whether the reader is at the end. -/
def atEnd : Reader Bool :=
  return (← get).rest.isEmpty

/-- Step over a character. -/
def bump : Reader Unit :=
  modify fun s => { s with rest := s.rest.tail }

/-- Step over a character and what is ignored after it. -/
def bumpSkip : Reader Unit := do
  bump
  skip

/-- Whether the next character is the given one. -/
def isNext (c : Char) : Reader Bool :=
  return (← get).rest.head? == some c

/-- Step over a text if it comes next. -/
def bumpIf (text : String) : Reader Bool := do
  let rest := (← get).rest
  let text := text.toList
  if text.isPrefixOf rest then
    modify fun s => { s with rest := rest.drop text.length }
    return true
  else return false

/-- The character after the next one, and after what is ignored between them. -/
def peekAfter : Reader (Option Char) := do
  let s ← get
  let rest := s.rest.tail
  return (if s.spaced then skipIgnored false rest else rest).head?

/-- Take characters while a test holds, skipping what is ignored after each. -/
def takeSkip (test : Char → Bool) : (fuel : Nat) → Reader (List Char)
  | 0 => return []
  | fuel + 1 => do
    match (← get).rest with
    | c :: _ =>
      if test c then
        bumpSkip
        return c :: (← takeSkip test fuel)
      else return []
    | [] => return []

/-- Enough steps for what is left. -/
def steps : Reader Nat :=
  return (← get).rest.length + 1

/-! ## Escapes -/

/-- What a single character or an escape stands for. -/
inductive Primitive
  | literal (c : Char) (isByte : Bool)
  | dot
  | assertion
  | property
  | letterClass (kind : LetterClass) (negated : Bool)

/-- Characters with a meaning of their own, which an escape takes from them. -/
def isMeta (c : Char) : Bool :=
  "\\.+*?()|[]\x7b\x7d^$#&-~".toList.contains c

/-- Characters that an escape leaves as they are. -/
def isEscapable (c : Char) : Bool :=
  isMeta c || (isAscii c && !c.isAlphanum && c != '<' && c != '>')

/-- A digit of base sixteen. -/
def hexValue? (c : Char) : Option Nat :=
  if '0' ≤ c && c ≤ '9' then some (c.toNat - 48)
  else if 'a' ≤ c && c ≤ 'f' then some (c.toNat - 87)
  else if 'A' ≤ c && c ≤ 'F' then some (c.toNat - 55)
  else none

/-- The character of a number of base sixteen. -/
def ofHex (digits : List Char) : Reader Char :=
  let n := digits.foldl (fun n c => 16 * n + (hexValue? c).getD 0) 0
  if n.isValidChar then return Char.ofNat n else failure

/-- A given number of digits of base sixteen. -/
def hexDigits : (count : Nat) → Reader (List Char)
  | 0 => return []
  | count + 1 => do
    let c ← peek
    if (hexValue? c).isSome then
      bumpSkip
      return c :: (← hexDigits count)
    else failure

/-- A character by its number, after the letter of the escape. -/
def hexEscape (letter : Char) : Reader Primitive := do
  bumpSkip
  if ← isNext '\x7b' then
    bumpSkip
    let digits ← takeSkip (fun c => (hexValue? c).isSome) (← steps)
    if digits.isEmpty || !(← isNext '\x7d') then failure
    bumpSkip
    return .literal (← ofHex digits) false
  else
    let count := if letter = 'x' then 2 else if letter = 'u' then 4 else 8
    return .literal (← ofHex (← hexDigits count)) (letter = 'x')

/-- Cut a text at the first of two characters. -/
def cutAt (test : Char → Bool) (cs : List Char) : Option (List Char × List Char) :=
  match cs.dropWhile (!test ·) with
  | _ :: after => some (cs.takeWhile (!test ·), after)
  | [] => none

/-- Cut the name of a class at its relation to a value: "!=" comes first, then a colon. -/
def cutRelation (cs : List Char) : Option (List Char × List Char) :=
  match cutUnequal cs with
  | some cut => some cut
  | none => match cutAt (· = ':') cs with
    | some cut => some cut
    | none => cutAt (· = '=') cs
where
  /-- Cut at "!=". -/
  cutUnequal : List Char → Option (List Char × List Char)
    | '!' :: '=' :: after => some ([], after)
    | c :: cs => (cutUnequal cs).map fun (before, after) => (c :: before, after)
    | [] => none

/-- A class of characters with a property, after the backslash. -/
def propertyEscape : Reader Primitive := do
  bumpSkip
  if ← isNext '\x7b' then
    bumpSkip
    let name ← takeSkip (· != '\x7d') (← steps)
    let _ ← peek
    bump
    let known := match cutRelation name with
      | some (name, value) => Property.hasValue name value
      | none => Property.isKnown name
    if known then return .property else failure
  else
    let c ← peek
    if c = '\\' then failure
    bumpSkip
    if Property.isKnown [c] then return .property else failure

/-- Characters of the name of a word boundary. -/
def isBoundaryChar (c : Char) : Bool :=
  c.isAlpha || c = '-'

/-- The name of a word boundary in braces, unless the braces hold something else. -/
def boundaryName : Reader Unit := do
  let before ← get
  bumpSkip
  let c ← peek
  if !isBoundaryChar c then set before
  else
    let name ← takeSkip isBoundaryChar (← steps)
    if !(← isNext '\x7d') then failure
    bump
    if !(["start", "end", "start-half", "end-half"].contains (String.ofList name)) then failure

/-- An escape, at its backslash. -/
def escape : Reader Primitive := do
  bump
  let c ← peek
  if c.isDigit then failure
  else if c = 'x' || c = 'u' || c = 'U' then hexEscape c
  else if c = 'p' || c = 'P' then propertyEscape
  else
    bump
    if c = 'd' || c = 'D' then return .letterClass .digit (c = 'D')
    else if c = 's' || c = 'S' then return .letterClass .space (c = 'S')
    else if c = 'w' || c = 'W' then return .letterClass .word (c = 'W')
    else if isEscapable c then return .literal c false
    else if c = 'a' then return .literal '\x07' false
    else if c = 'f' then return .literal '\x0c' false
    else if c = 't' then return .literal '\t' false
    else if c = 'n' then return .literal '\n' false
    else if c = 'r' then return .literal '\r' false
    else if c = 'v' then return .literal '\x0b' false
    else if c = 'b' then
      if ← isNext '\x7b' then boundaryName
      return .assertion
    else if c = 'A' || c = 'z' || c = 'B' || c = '<' || c = '>' then return .assertion
    else failure

/-! ## Bracketed classes -/

/-- The names that can stand between colons. -/
def classNames : List String :=
  ["alnum", "alpha", "ascii", "blank", "cntrl", "digit", "graph", "lower", "print", "punct",
   "space", "upper", "word", "xdigit"]

/-- A class with a name between colons, at its bracket; gives nothing and stays if it is none. -/
def namedClass? : Reader (Option ClassItem) := do
  let s ← get
  match s.rest with
  | '[' :: ':' :: rest =>
    let (negated, rest) := match rest with
      | '^' :: rest => (true, rest)
      | _ => (false, rest)
    let name := rest.takeWhile (· != ':')
    match rest.dropWhile (· != ':') with
    | ':' :: ']' :: rest =>
      if classNames.contains (String.ofList name) then
        set { s with rest }
        return some (.named negated)
      else return none
    | _ => return none
  | _ => return none

/-- A single item of a class. -/
def classPrimitive : Reader Primitive := do
  let c ← peek
  if c = '\\' then escape
  else
    bump
    return .literal c false

/-- An item of a class, as a set. -/
def itemOf : Primitive → Reader ClassItem
  | .literal c isByte => return .literal c isByte
  | .property => return .property
  | .letterClass kind negated => return .letterClass kind negated
  | .dot | .assertion => failure

/-- An item of a class, as one end of a range. -/
def endOf : Primitive → Reader Char
  | .literal c _ => return c
  | _ => failure

/-- A single character, a class letter or a range. -/
def classRange : Reader ClassItem := do
  let low ← classPrimitive
  skip
  let c ← peek
  if c != '-' then itemOf low
  else
    let after ← peekAfter
    if after == some ']' || after == some '-' then itemOf low
    else
      bumpSkip
      let _ ← peek
      let high ← classPrimitive
      let low ← endOf low
      let high ← endOf high
      if low ≤ high then return .range low high else failure

/-- Hyphens at the start of a class are themselves. -/
def leadingHyphens : (fuel : Nat) → Reader (List ClassItem)
  | 0 => return []
  | fuel + 1 => do
    if ← isNext '-' then
      bumpSkip
      let _ ← peek
      return .literal '-' false :: (← leadingHyphens fuel)
    else return []

/-- The union of items that stand side by side. -/
def unionOf : List ClassItem → ClassItem
  | [item] => item
  | items => .union items

/-- Combine what stands before an operator with what stands after it. -/
def settle (pending : Option (SetOperation × ClassItem)) (items : List ClassItem) : ClassItem :=
  let set := unionOf items.reverse
  match pending with
  | some (operation, left) => .combine operation left set
  | none => set

mutual

/-- A class, at its opening bracket. -/
def classAt : (fuel : Nat) → Reader ClassItem
  | 0 => failure
  | fuel + 1 => do
    bumpSkip
    let _ ← peek
    let negated ← isNext '^'
    if negated then
      bumpSkip
      let _ ← peek
    let hyphens ← leadingHyphens fuel
    let closing ← isNext ']'
    if hyphens.isEmpty && closing then
      bumpSkip
      let _ ← peek
      classItems fuel negated none [.literal ']' false]
    else classItems fuel negated none hyphens

/-- The items of a class up to its closing bracket; `items` are those so far, last one first. -/
def classItems : (fuel : Nat) → (negated : Bool) → Option (SetOperation × ClassItem) →
    (items : List ClassItem) → Reader ClassItem
  | 0, _, _, _ => failure
  | fuel + 1, negated, pending, items => do
    skip
    let c ← peek
    if c = '[' then
      match ← namedClass? with
      | some item => classItems fuel negated pending (item :: items)
      | none =>
        let item ← classAt fuel
        classItems fuel negated pending (item :: items)
    else if c = ']' then
      bump
      return .nested negated (settle pending items)
    else if ← bumpIf "&&" then
      classItems fuel negated (some (.intersection, settle pending items)) []
    else if ← bumpIf "--" then
      classItems fuel negated (some (.difference, settle pending items)) []
    else if ← bumpIf "~~" then
      classItems fuel negated (some (.symmetricDifference, settle pending items)) []
    else
      let item ← classRange
      classItems fuel negated pending (item :: items)

end

/-! ## Repetitions -/

/-- A number in the braces of a repetition, with blanks around it. -/
def count : Reader (Option Nat) := do
  modify fun s => { s with rest := s.rest.dropWhile Text.isBlank }
  let digits ← takeSkip Char.isDigit (← steps)
  let _ ← takeSkip Text.isBlank (← steps)
  if digits.isEmpty then return none
  else
    let n := digits.foldl (fun n c => 10 * n + (c.toNat - 48)) 0
    if n < UInt32.size then return some n else failure

/-- A number that has to be there. -/
def someCount : Reader Nat := do
  match ← count with
  | some n => return n
  | none => failure

/-- Step over the mark of a lazy repetition. -/
def lazyMark : Reader Unit := do
  if ← isNext '?' then bump

/-- The bounds in the braces of a repetition, at the opening brace. -/
def bounds : Reader (Nat × Option Nat) := do
  bumpSkip
  let _ ← peek
  let low ← count
  let c ← peek
  let range ← (do
    if c = ',' then
      bumpSkip
      let c ← peek
      match low with
      | none => failure
      | some low =>
        if c = '\x7d' then return (low, none)
        else return (low, some (← someCount))
    else match low with
      | some low => return (low, some low)
      | none => failure : Reader (Nat × Option Nat))
  let c ← peek
  if c != '\x7d' then failure
  bumpSkip
  lazyMark
  match range with
  | (low, some high) => if low ≤ high then return range else failure
  | _ => return range

/-- Repeat the last of the patterns so far. -/
def repeatLast (low : Nat) (high : Option Nat) : List Pattern → Reader (List Pattern)
  | [] => failure
  | .setFlags _ :: _ => failure
  | .empty :: _ => failure
  | p :: ps => return .repetition low high p :: ps

/-! ## Groups -/

/-- Flags up to the end of their list; `on` tells whether they are switched on. -/
def flagsFrom : (fuel : Nat) → (on : Bool) → FlagSettings → Reader FlagSettings
  | 0, _, _ => failure
  | fuel + 1, on, settings => do
    let c ← peek
    if c = ':' || c = ')' then return settings
    else if c = '-' then
      if !on then failure
      bump
      let next ← peek
      if next = ':' || next = ')' then failure
      flagsFrom fuel false settings
    else if "imsUuRx".toList.contains c then
      if settings.any (·.1 == c) then failure
      bump
      flagsFrom fuel on (settings ++ [(c, on)])
    else failure

/-- Characters of the name of a group. -/
def isNameChar (first : Bool) (c : Char) : Bool :=
  if first then c = '_' || Text.isLetter c
  else c = '_' || c = '.' || c = '[' || c = ']' || Text.isLetterOrNumber c

/-- The name of a group, up to its closing bracket. -/
def groupName : Reader Unit := do
  let s ← get
  let name := s.rest.takeWhile (· != '>')
  match name, s.rest.dropWhile (· != '>') with
  | first :: others, _ :: rest =>
    if isNameChar true first && others.all (isNameChar false) && !s.names.contains name then
      set { s with rest, names := name :: s.names }
    else failure
  | _, _ => failure

/-- How a group begins, at its opening parenthesis: its kind and flags, or a flag setting that
makes no group. -/
def groupStart : Reader (Bool × FlagSettings ⊕ FlagSettings) := do
  bump
  skip
  let looks ← ["?=", "?!", "?<=", "?<!"].anyM bumpIf
  if looks then failure
  let withLetter ← bumpIf "?P<"
  let isNamed ← if withLetter then pure true else bumpIf "?<"
  if isNamed then
    groupName
    return .inl (true, [])
  else if ← bumpIf "?" then
    let settings ← flagsFrom (← steps) true []
    let c ← peek
    bump
    if c = ')' then
      if settings.isEmpty then failure else return .inr settings
    else return .inl (false, settings)
  else return .inl (true, [])

/-! ## Patterns -/

/-- Patterns one after the other. -/
def concatOf : List Pattern → Pattern
  | [] => .empty
  | [p] => p
  | ps => .concat ps

/-- Patterns to choose from. -/
def alternationOf : List Pattern → Pattern
  | [p] => p
  | ps => .alternation ps

/-- The pattern of a single character or an escape. -/
def ofPrimitive : Primitive → Pattern
  | .literal c isByte => .literal c isByte
  | .dot => .dot
  | .assertion => .assertion
  | .property => .property
  | .letterClass kind negated => .letterClass kind negated

/-- A single character or an escape. -/
def primitive : Reader Primitive := do
  let c ← peek
  if c = '\\' then escape
  else
    bump
    if c = '.' then return .dot
    else if c = '^' || c = '$' then return .assertion
    else return .literal c false

mutual

/-- Alternatives up to the end of their group. -/
def alternatives : (fuel : Nat) → Reader (List Pattern)
  | 0 => failure
  | fuel + 1 => do
    let first ← sequence fuel []
    if ← isNext '|' then
      bump
      return concatOf first :: (← alternatives fuel)
    else return [concatOf first]

/-- Patterns up to the end of their alternative; `ps` are those so far, last one first. -/
def sequence : (fuel : Nat) → (ps : List Pattern) → Reader (List Pattern)
  | 0, _ => failure
  | fuel + 1, ps => do
    skip
    if ← atEnd then return ps.reverse
    else
      let c ← peek
      if c = ')' || c = '|' then return ps.reverse
      else if c = '(' then
        let p ← groupAt fuel
        sequence fuel (p :: ps)
      else if c = '[' then
        let set ← classAt (2 * (← steps))
        sequence fuel (.bracketed set :: ps)
      else if c = '?' || c = '*' || c = '+' then
        bump
        lazyMark
        let low := if c = '+' then 1 else 0
        let high := if c = '?' then some 1 else none
        sequence fuel (← repeatLast low high ps)
      else if c = '\x7b' then
        let (low, high) ← bounds
        sequence fuel (← repeatLast low high ps)
      else
        let p ← primitive
        sequence fuel (ofPrimitive p :: ps)

/-- A group or a flag setting, at its opening parenthesis. -/
def groupAt : (fuel : Nat) → Reader Pattern
  | 0 => failure
  | fuel + 1 => do
    let spaced := (← get).spaced
    match ← groupStart with
    | .inr settings =>
      modify fun s => { s with spaced := flagAfter 'x' s.spaced settings }
      return .setFlags settings
    | .inl (captures, settings) =>
      modify fun s => { s with spaced := flagAfter 'x' s.spaced settings }
      let ps ← alternatives fuel
      if !(← isNext ')') then failure
      modify fun s => { s with spaced }
      bump
      return .group captures settings (alternationOf ps)

end

/-- The pattern that makes up a whole text. -/
def parse? (text : String) : Option Pattern :=
  let cs := text.toList
  match (alternatives (3 * cs.length + 3)).run ⟨cs, false, []⟩ with
  | some (ps, s) => if s.rest.isEmpty then some (alternationOf ps) else none
  | none => none

/-- Whether a text is a pattern that the engine accepts. -/
def isValid (text : String) : Bool :=
  match parse? text with
  | some p => p.depth ≤ maxDepth && (p.checkText true).isSome && p.cost ≤ maxCost
  | none => false

end Rampart.Pattern
