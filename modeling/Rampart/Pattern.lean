/-!
# Patterns

The trees of the pattern language that the engine's `matches` takes: no look-around, no
back-references, Unicode classes.

* `Pattern.depth` is how deeply a pattern is nested.
* `Pattern.checkText` decides whether a pattern can only match whole characters where Unicode
  matching is switched off.
* `Pattern.cost` bounds the size of the automaton that a pattern stands for.
-/

namespace Rampart

/-- Classes written by a backslash and a letter. -/
inductive LetterClass
  | digit
  | space
  | word
deriving DecidableEq, Repr

/-- How two sets of a bracketed class are combined. -/
inductive SetOperation
  | intersection
  | difference
  | symmetricDifference
deriving DecidableEq, Repr

/-- Part of a bracketed class. -/
inductive ClassItem
  /-- A character; `isByte` tells that it is written as a byte of two digits. -/
  | literal (c : Char) (isByte : Bool)
  | range (low high : Char)
  /-- A class with a name between colons. -/
  | named (negated : Bool)
  /-- A class of characters with a Unicode property. -/
  | property
  | letterClass (kind : LetterClass) (negated : Bool)
  | nested (negated : Bool) (set : ClassItem)
  | union (items : List ClassItem)
  | combine (operation : SetOperation) (l r : ClassItem)
deriving Repr

/-- The flags that a group or a flag setting switches: each with whether it is switched on. -/
abbrev FlagSettings := List (Char × Bool)

/-- A pattern. -/
inductive Pattern
  | empty
  | setFlags (settings : FlagSettings)
  | literal (c : Char) (isByte : Bool)
  | dot
  | assertion
  | property
  | letterClass (kind : LetterClass) (negated : Bool)
  | bracketed (set : ClassItem)
  | repetition (low : Nat) (high : Option Nat) (p : Pattern)
  | group (captures : Bool) (settings : FlagSettings) (p : Pattern)
  | alternation (ps : List Pattern)
  | concat (ps : List Pattern)
deriving Repr

/-! ## Nesting -/

mutual

/-- How deeply a class is nested. -/
def ClassItem.depth : ClassItem → Nat
  | .nested _ set => set.depth + 1
  | .union items => ClassItem.depths items + 1
  | .combine _ l r => max l.depth r.depth + 1
  | _ => 0

/-- The largest depth of several class items. -/
def ClassItem.depths : List ClassItem → Nat
  | [] => 0
  | item :: items => max item.depth (ClassItem.depths items)

end

mutual

/-- How deeply a pattern is nested. -/
def Pattern.depth : Pattern → Nat
  | .bracketed set => set.depth + 1
  | .repetition _ _ p => p.depth + 1
  | .group _ _ p => p.depth + 1
  | .alternation ps => Pattern.depths ps + 1
  | .concat ps => Pattern.depths ps + 1
  | _ => 0

/-- The largest depth of several patterns. -/
def Pattern.depths : List Pattern → Nat
  | [] => 0
  | p :: ps => max p.depth (Pattern.depths ps)

end

/-! ## Matching whole characters -/

namespace Pattern

/-- The state of a flag after some settings. -/
def flagAfter (flag : Char) (before : Bool) (settings : FlagSettings) : Bool :=
  match settings.reverse.find? (·.1 == flag) with
  | some (_, on) => on
  | none => before

/-- ASCII characters. -/
def isAscii (c : Char) : Bool :=
  c.toNat < 128

end Pattern

mutual

/-- Whether a class of bytes holds ASCII only. -/
def ClassItem.isAsciiOnly : ClassItem → Bool
  | .literal c _ => Pattern.isAscii c
  | .range low high => Pattern.isAscii low && Pattern.isAscii high
  | .named negated => !negated
  | .property => false
  | .letterClass _ negated => !negated
  | .nested negated set => !negated && set.isAsciiOnly
  | .union items => ClassItem.areAsciiOnly items
  | .combine _ l r => l.isAsciiOnly && r.isAsciiOnly

/-- `isAsciiOnly` on several items. -/
def ClassItem.areAsciiOnly : List ClassItem → Bool
  | [] => true
  | item :: items => item.isAsciiOnly && ClassItem.areAsciiOnly items

end

mutual

/-- Whether a pattern only matches whole characters. Gives the state of the Unicode flag after
the pattern, which a flag setting changes up to the end of its group. -/
def Pattern.checkText (unicode : Bool) : Pattern → Option Bool
  | .setFlags settings => some (Pattern.flagAfter 'u' unicode settings)
  | .literal c isByte =>
    if !unicode && isByte && !Pattern.isAscii c then none else some unicode
  | .dot => if unicode then some unicode else none
  | .property => if unicode then some unicode else none
  | .letterClass _ negated => if unicode || !negated then some unicode else none
  | .bracketed set => if unicode || set.isAsciiOnly then some unicode else none
  | .repetition _ _ p => (p.checkText unicode).map fun _ => unicode
  | .group _ settings p =>
    (p.checkText (Pattern.flagAfter 'u' unicode settings)).map fun _ => unicode
  | .alternation ps => Pattern.checkTexts unicode ps
  | .concat ps => Pattern.checkTexts unicode ps
  | _ => some unicode

/-- `checkText` on one pattern after the other. -/
def Pattern.checkTexts (unicode : Bool) : List Pattern → Option Bool
  | [] => some unicode
  | p :: ps => match p.checkText unicode with
    | some unicode => Pattern.checkTexts unicode ps
    | none => none

end

/-! ## Size of the automaton -/

namespace Pattern

/-- Bytes of one state of an automaton. -/
def stateCost : Nat := 32

/-- Bytes of the automaton of one class letter. -/
def letterClassCost : LetterClass → (negated : Bool) → Nat
  | .word, false => 48168
  | .word, true => 45064
  | .digit, false => 4640
  | .digit, true => 11656
  | .space, false => 680
  | .space, true => 1924

/-- Bytes of the automaton of any character or of most of them. -/
def dotCost : Nat := 1000

/-- Bytes of the automaton of a Unicode property, roughly. -/
def propertyCost : Nat := 10000

/-- States of one character: its bytes. -/
def charStates (c : Char) : Nat := c.utf8Size

end Pattern

mutual

/-- Bytes of the automaton of a class, roughly. -/
def ClassItem.cost : ClassItem → Nat
  | .literal c _ => if Pattern.isAscii c then 8 else 32 * Pattern.charStates c
  | .range low high => if Pattern.isAscii low && Pattern.isAscii high then 8 else 300
  | .named negated => if negated then Pattern.dotCost else 64
  | .property => Pattern.propertyCost
  | .letterClass kind negated => Pattern.letterClassCost kind negated
  | .nested negated set => if negated then Pattern.dotCost + set.cost else set.cost
  | .union items => ClassItem.costs items
  | .combine _ l _ => l.cost

/-- The sum of the costs of several items. -/
def ClassItem.costs : List ClassItem → Nat
  | [] => 0
  | item :: items => item.cost + ClassItem.costs items

end

mutual

/-- Bytes of the automaton of a pattern, roughly. -/
def Pattern.cost : Pattern → Nat
  | .empty => Pattern.stateCost
  | .setFlags _ => 0
  | .literal c _ => Pattern.stateCost * Pattern.charStates c
  | .dot => Pattern.dotCost
  | .assertion => Pattern.stateCost
  | .property => Pattern.propertyCost
  | .letterClass kind negated => Pattern.letterClassCost kind negated
  | .bracketed set => 2 * Pattern.stateCost + set.cost
  | .repetition low high p =>
    let one := p.cost
    match high with
    | some high => low * one + (high - low) * (one + Pattern.stateCost + 8)
    | none => if low = 0 then one + 2 * Pattern.stateCost else low * one + Pattern.stateCost + 8
  | .group captures _ p => p.cost + if captures then 2 * Pattern.stateCost else 0
  | .alternation ps => Pattern.costs ps + 2 * Pattern.stateCost + 4 * ps.length
  | .concat ps => Pattern.costs ps

/-- The sum of the costs of several patterns. -/
def Pattern.costs : List Pattern → Nat
  | [] => 0
  | p :: ps => p.cost + Pattern.costs ps

end

/-- The largest automaton that is accepted. -/
def Pattern.maxCost : Nat := 10 <<< 20

/-- The deepest nesting that is accepted. -/
def Pattern.maxDepth : Nat := 250

end Rampart
