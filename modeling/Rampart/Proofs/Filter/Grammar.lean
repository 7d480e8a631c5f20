import Rampart.Filter

/-!
# The grammar of filters

How the engine reads the text of a filter. The text is cut into tokens (`tokens?`), and the
grammar `Derives` says which lists of tokens stand for which trees: a comparison is an accessor, a
comparator and a literal, `!` binds strongest, then `&&`, then `||`, both to the left.

* `Reads text e`: a text stands for a tree.
* `parse?`: a reader with a stack, one frame for every open parenthesis.
* **`parse?_of_derives`**: the reader finds every tree that the grammar derives, so
  **`reads_unique`**: a text stands for at most one tree.
-/

namespace Rampart.Filter

/-! ## Tokens -/

/-- A token of a filter. -/
inductive Token
  | accessor (name : String)
  | comparator (c : Comparator)
  /-- A literal, with its escapes undone. -/
  | literal (value : String)
  | bang
  | conj
  | disj
  | opening
  | closing
deriving DecidableEq, Repr

/-- Characters of accessors and of the comparators that are words. -/
def isWordChar (c : Char) : Bool :=
  c.isAlphanum || c = '.' || c = '_'

/-- Characters between tokens. -/
def isSpace (c : Char) : Bool :=
  c = ' ' || c = '\t' || c = '\n' || c = '\r'

/-- The token of a word: the comparators that are words cannot be accessors. -/
def Token.ofWord (word : List Char) : Token :=
  if word = "contains".toList then .comparator .contains
  else if word = "startsWith".toList then .comparator .startsWith
  else if word = "endsWith".toList then .comparator .endsWith
  else if word = "matches".toList then .comparator .matching
  else .accessor (String.ofList word)

/-- Where the reader of tokens is. -/
inductive Scan
  | between
  /-- In a word; its last character comes first. -/
  | word (read : List Char)
  /-- In a literal; the last character of its text comes first. -/
  | literal (read : List Char)
  /-- In a literal, after a backslash. -/
  | escape (read : List Char)
  /-- After a character that may be the first of two. -/
  | half (c : Char)
deriving DecidableEq, Repr

namespace Scan

/-- What a character between tokens is: a token or the start of one. -/
def start? (c : Char) : Option (List Token × Scan) :=
  if isSpace c then some ([], between)
  else if c = '(' then some ([.opening], between)
  else if c = ')' then some ([.closing], between)
  else if c = '\'' then some ([], literal [])
  else if isWordChar c then some ([], word [c])
  else if c = '!' || c = '=' || c = '&' || c = '|' then some ([], half c)
  else none

/-- A token, and then what a character between tokens is. -/
def endWith? (t : Token) (c : Char) : Option (List Token × Scan) :=
  (start? c).map fun (ts, after) => (t :: ts, after)

/-- What a character is after the first half of a token. Only `!` is also a token alone. -/
def second? (first c : Char) : Option (List Token × Scan) :=
  if first = '!' then if c = '=' then some ([.comparator .notEqual], between) else endWith? .bang c
  else if first = '=' && c = '=' then some ([.comparator .equal], between)
  else if first = '&' && c = '&' then some ([.conj], between)
  else if first = '|' && c = '|' then some ([.disj], between)
  else none

/-- The token of a literal's text, without the quotes and last character first. -/
def literal? (read : List Char) : Option (List Token × Scan) :=
  (unquote? ('\'' :: (read.reverse ++ ['\'']))).map fun value =>
    ([.literal (String.ofList value)], between)

/-- What a character is: the tokens that it ends, and where the reader is after it. -/
def step? : Scan → Char → Option (List Token × Scan)
  | between, c => start? c
  | word read, c =>
    if isWordChar c then some ([], word (c :: read)) else endWith? (.ofWord read.reverse) c
  | literal read, c =>
    if c = '\\' then some ([], escape read)
    else if c = '\'' then literal? read
    else some ([], literal (c :: read))
  | escape read, c => some ([], literal (c :: '\\' :: read))
  | half first, c => second? first c

/-- Read characters: the tokens that end in them, and where the reader is then. -/
def run? (m : Scan) : List Char → Option (List Token × Scan)
  | [] => some ([], m)
  | c :: cs => do
    let (ts, m) ← m.step? c
    let (us, m) ← run? m cs
    return (ts ++ us, m)

/-- The token that the end of the text ends. -/
def finish? : Scan → Option (List Token)
  | between => some []
  | word read => some [.ofWord read.reverse]
  | _ => none

end Scan

/-- The tokens of a text. -/
def tokens? (text : String) : Option (List Token) := do
  let (ts, m) ← Scan.between.run? text.toList
  return ts ++ (← m.finish?)

/-! ## The grammar -/

/-- The levels of the grammar, the one that binds strongest first. -/
inductive Level
  | operand
  | conjunction
  | disjunction
deriving DecidableEq, Repr

/-- **The grammar**: which tokens stand for which tree, at each level. -/
inductive Derives : Level → List Token → Filter → Prop
  | compare (accessor : String) (comparator : Comparator) (literal : String) :
    Derives .operand [.accessor accessor, .comparator comparator, .literal literal]
      (.compare accessor comparator literal)
  | negate {ts : List Token} {e : Filter} (h : Derives .operand ts e) :
    Derives .operand (.bang :: ts) (.negate e)
  | group {ts : List Token} {e : Filter} (h : Derives .disjunction ts e) :
    Derives .operand (.opening :: (ts ++ [.closing])) (.group e)
  | operand {ts : List Token} {e : Filter} (h : Derives .operand ts e) :
    Derives .conjunction ts e
  | both {ts us : List Token} {l r : Filter} (hl : Derives .conjunction ts l)
    (hr : Derives .operand us r) : Derives .conjunction (ts ++ .conj :: us) (.both l r)
  | conjunction {ts : List Token} {e : Filter} (h : Derives .conjunction ts e) :
    Derives .disjunction ts e
  | either {ts us : List Token} {l r : Filter} (hl : Derives .disjunction ts l)
    (hr : Derives .conjunction us r) : Derives .disjunction (ts ++ .disj :: us) (.either l r)

/-- A text stands for a tree. -/
def Reads (text : String) (e : Filter) : Prop :=
  ∃ ts, tokens? text = some ts ∧ Derives .disjunction ts e

/-! ## The reader -/

/-- What was read since a parenthesis was opened: the disjunction before the last `||`, the
conjunction before the last `&&` or the end, and how many `!` the next operand comes after. -/
structure Frame where
  disjunction : Option Filter := none
  conjunction : Option Filter := none
  bangs : Nat := 0
deriving DecidableEq, Repr

namespace Frame

/-- A tree after an operand of a conjunction. -/
def conjoin : Option Filter → Filter → Filter
  | some l, r => .both l r
  | none, r => r

/-- A tree after a conjunction of a disjunction. -/
def disjoin : Option Filter → Filter → Filter
  | some l, r => .either l r
  | none, r => r

/-- A tree behind some `!`. -/
def behind : Nat → Filter → Filter
  | 0, e => e
  | n + 1, e => .negate (behind n e)

/-- The frame after its next operand. -/
def push (f : Frame) (e : Filter) : Frame :=
  ⟨f.disjunction, some (conjoin f.conjunction (behind f.bangs e)), 0⟩

/-- The tree of everything that was read, once an operand was. -/
def value? (f : Frame) : Option Filter :=
  f.conjunction.map (disjoin f.disjunction)

end Frame

/-- Read tokens into the innermost frame `f`, inside of the frames `outer`; `due` tells that an
operand has to come next. -/
def parseFrom (due : Bool) (f : Frame) (outer : List Frame) : List Token → Option Filter
  | [] => if due || !outer.isEmpty then none else f.value?
  | .accessor a :: .comparator c :: .literal v :: ts =>
    if due then parseFrom false (f.push (.compare a c v)) outer ts else none
  | .bang :: ts => if due then parseFrom true { f with bangs := f.bangs + 1 } outer ts else none
  | .opening :: ts => if due then parseFrom true {} (f :: outer) ts else none
  | .conj :: ts => if due then none else parseFrom true f outer ts
  | .disj :: ts => if due then none else parseFrom true ⟨f.value?, none, 0⟩ outer ts
  | .closing :: ts => match due, outer, f.value? with
    | false, g :: outer, some e => parseFrom false (g.push (.group e)) outer ts
    | _, _, _ => none
  | _ :: _ => none

/-- The tree of a list of tokens. -/
def parse? (ts : List Token) : Option Filter :=
  parseFrom true {} [] ts

/-! ## Completeness -/

/-- What reading the tokens of a tree does to the reader, at each level. -/
def Parses (ts : List Token) (e : Filter) : Level → Prop
  | .operand => ∀ f outer rest,
      parseFrom true f outer (ts ++ rest) = parseFrom false (f.push e) outer rest
  | .conjunction => ∀ d outer rest,
      parseFrom true ⟨d, none, 0⟩ outer (ts ++ rest) = parseFrom false ⟨d, some e, 0⟩ outer rest
  | .disjunction => ∀ outer rest, ∃ f : Frame, f.value? = some e ∧
      parseFrom true {} outer (ts ++ rest) = parseFrom false f outer rest

theorem behind_succ (n : Nat) (e : Filter) :
    Frame.behind (n + 1) e = Frame.behind n (.negate e) := by
  induction n with
  | zero => rfl
  | succ n ih => rw [Frame.behind, ih, Frame.behind]

theorem push_negate (f : Frame) (e : Filter) :
    ({ f with bangs := f.bangs + 1 } : Frame).push e = f.push (.negate e) := by
  simp only [Frame.push, behind_succ]

/-- **The reader follows the grammar.** -/
theorem parses_of_derives {l : Level} {ts : List Token} {e : Filter} (h : Derives l ts e) :
    Parses ts e l := by
  induction h with
  | compare a c v =>
    intro f outer rest
    rfl
  | @negate ts e _ ih =>
    intro f outer rest
    have hstep : parseFrom true f outer (.bang :: ts ++ rest) =
        parseFrom true { f with bangs := f.bangs + 1 } outer (ts ++ rest) := rfl
    rw [hstep, ih, push_negate]
  | @group ts e _ ih =>
    intro f outer rest
    obtain ⟨g, hg, hread⟩ := ih (f :: outer) (.closing :: rest)
    have hopen : parseFrom true f outer (.opening :: (ts ++ [.closing]) ++ rest) =
        parseFrom true {} (f :: outer) (ts ++ .closing :: rest) := by
      simp [parseFrom]
    rw [hopen, hread]
    simp [parseFrom, hg]
  | operand _ ih =>
    intro d outer rest
    exact ih ⟨d, none, 0⟩ outer rest
  | @both ts us l r _ _ ihl ihr =>
    intro d outer rest
    rw [List.append_assoc, ihl d outer]
    have hconj : parseFrom false ⟨d, some l, 0⟩ outer (.conj :: us ++ rest) =
        parseFrom true ⟨d, some l, 0⟩ outer (us ++ rest) := rfl
    rw [hconj, ihr]
    rfl
  | @conjunction ts e _ ih =>
    intro outer rest
    exact ⟨⟨none, some e, 0⟩, rfl, ih none outer rest⟩
  | @either ts us l r _ _ ihl ihr =>
    intro outer rest
    obtain ⟨f, hf, hread⟩ := ihl outer (.disj :: us ++ rest)
    refine ⟨⟨some l, some r, 0⟩, rfl, ?_⟩
    have hdisj : parseFrom false f outer (.disj :: us ++ rest) =
        parseFrom true ⟨f.value?, none, 0⟩ outer (us ++ rest) := rfl
    rw [List.append_assoc, hread, hdisj, hf, ihr]

theorem parse?_of_derives {ts : List Token} {e : Filter} (h : Derives .disjunction ts e) :
    parse? ts = some e := by
  obtain ⟨f, hf, hread⟩ := parses_of_derives h [] []
  rw [List.append_nil] at hread
  rw [parse?, hread]
  exact hf

/-- **A list of tokens stands for at most one tree.** -/
theorem derives_unique {ts : List Token} {e e' : Filter} (h : Derives .disjunction ts e)
    (h' : Derives .disjunction ts e') : e' = e := by
  have hsome := parse?_of_derives h
  rw [parse?_of_derives h'] at hsome
  exact Option.some.inj hsome

/-- **A text stands for at most one tree.** -/
theorem reads_unique {text : String} {e e' : Filter} (h : Reads text e) (h' : Reads text e') :
    e' = e := by
  obtain ⟨ts, hts, hd⟩ := h
  obtain ⟨us, hus, hd'⟩ := h'
  obtain rfl := Option.some.inj (hts.symm.trans hus)
  exact derives_unique hd hd'

end Rampart.Filter
