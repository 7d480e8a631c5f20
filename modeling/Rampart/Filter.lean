import Rampart.Text.Search

/-!
# Engine filters

The boolean expressions that the engine evaluates on an event, as trees, with their text.

* A comparison is `accessor comparator 'literal'`; `||` binds weaker than `&&`, and `!` strongest.
* `Filter.quote` writes a literal, escaping the quote, the backslash and line breaks;
  `Filter.unquote?` undoes it.
* `Filter.render` writes a tree; parentheses are part of the tree, as `group`.
* `Filter.holds` evaluates a tree on an event.
-/

namespace Rampart

/-- How a comparison relates the value of an accessor to its literal. -/
inductive Comparator
  | equal
  | notEqual
  | contains
  | startsWith
  | endsWith
  | matching
deriving DecidableEq, Repr

/-- The comparator in a filter. -/
def Comparator.text : Comparator → String
  | equal => "=="
  | notEqual => "!="
  | contains => "contains"
  | startsWith => "startsWith"
  | endsWith => "endsWith"
  | matching => "matches"

/-- An expression of a filter. -/
inductive Filter
  | compare (accessor : String) (comparator : Comparator) (literal : String)
  | negate (e : Filter)
  | both (l r : Filter)
  | either (l r : Filter)
  /-- An expression in parentheses. -/
  | group (e : Filter)
deriving DecidableEq, Repr

namespace Filter

/-! ## Literals -/

/-- A character inside a literal. -/
def escapeChar (c : Char) : List Char :=
  if c = '\\' then ['\\', '\\']
  else if c = '\'' then ['\\', '\'']
  else if c = '\n' then ['\\', 'n']
  else if c = '\r' then ['\\', 'r']
  else [c]

/-- A literal with its quotes. -/
def quoteChars (cs : List Char) : List Char :=
  '\'' :: cs.flatMap escapeChar ++ ['\'']

/-- A literal with its quotes. -/
def quote (s : String) : String :=
  String.ofList (quoteChars s.toList)

/-- What a character after a backslash means. -/
def unescape (c : Char) : Char :=
  if c = 'n' then '\n' else if c = 'r' then '\r' else c

/-- The value of what stands between the quotes of a literal; a quote does not stand there
alone. -/
def unquoteBody? : List Char → Option (List Char)
  | [] => some []
  | '\\' :: c :: cs => (unquoteBody? cs).map (unescape c :: ·)
  | c :: cs => if c = '\\' || c = '\'' then none else (unquoteBody? cs).map (c :: ·)

/-- The value of a literal that makes up a whole text. -/
def unquote? : List Char → Option (List Char)
  | '\'' :: rest => if rest.getLast? = some '\'' then unquoteBody? rest.dropLast else none
  | _ => none

/-! ## Text and meaning -/

/-- The text of an expression. -/
def render : Filter → String
  | compare accessor comparator literal => s!"{accessor} {comparator.text} {quote literal}"
  | negate e => "!" ++ render e
  | both l r => render l ++ " && " ++ render r
  | either l r => render l ++ " || " ++ render r
  | group e => "(" ++ render e ++ ")"

/-- Whether an expression holds on an event, which gives a text for every accessor; `found`
decides whether a pattern matches a text. -/
def holds (event : String → String) (found : String → String → Bool) : Filter → Bool
  | compare accessor comparator literal =>
    let value := event accessor
    match comparator with
    | .equal => value == literal
    | .notEqual => value != literal
    | .contains => Text.hasText value literal
    | .startsWith => literal.toList.isPrefixOf value.toList
    | .endsWith => literal.toList.isSuffixOf value.toList
    | .matching => found literal value
  | negate e => !holds event found e
  | both l r => holds event found l && holds event found r
  | either l r => holds event found l || holds event found r
  | group e => holds event found e

end Filter

end Rampart
