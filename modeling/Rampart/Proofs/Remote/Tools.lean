import Rampart.Proofs.Remote.Files
import Rampart.Proofs.Remote.Shell
import Rampart.Proofs.Scenario.Isolation
import Rampart.Proofs.Text.Line

/-!
# Tools that work line by line

`grep -qF` looks for a text in the lines of a file, `sed` with its command `a` puts a line after
those that match a pattern, and a shell runs one command where another fails. Only what is written
below is read of all this. Where a pattern, a script or a command line has something else in it, the
readers give up.

* `LinePattern.Matches`: a part of the line is what the pattern says, character by character.
  **`occurs_iff`**: the search for it.
* `Insertion.apply` is `sed`'s command, `hasInLine` is `grep`'s search. **`hasInLine_iff`**: what is
  found in a line is what stands in the file.
* `Files.tool?`, `Files.firstOf?`, `Files.runs?`: what a command, commands joined by `||` and a
  sequence of command lines do to the files of a server, and whether they succeed.
* **`alternatives?_line`**: two lines of arguments, joined by `||`, are read as these commands.
-/

namespace Rampart.Remote

open Text (addAfter fileLines)

/-! ## Patterns -/

/-- A pattern of characters and dots. A dot, which is `none` here, stands for any character. -/
abbrev LinePattern := List (Option Char)

namespace LinePattern

/-- Characters other than a dot that do not stand for themselves. -/
def isSpecial (c : Char) : Bool :=
  "\\*[^$".toList.contains c

/-- Read a pattern. The empty one would stand for the last one that was used. -/
def read? (cs : List Char) : Option LinePattern :=
  if cs.isEmpty || cs.any isSpecial then none
  else some (cs.map fun c => if c = '.' then none else some c)

/-- A place of a pattern stands for a character. -/
def Accepts (place : Option Char) (c : Char) : Prop :=
  ∀ d ∈ place, d = c

/-- **A line matches a pattern** if a part of it is as the pattern says. -/
def Matches (pattern : LinePattern) (line : List Char) : Prop :=
  ∃ part, part <:+: line ∧ List.Forall₂ Accepts pattern part

/-- Whether a text begins as a pattern says. -/
def begins : LinePattern → List Char → Bool
  | [], _ => true
  | _ :: _, [] => false
  | place :: pattern, c :: cs => place.all (· == c) && begins pattern cs

/-- Whether there is a place in a line where it goes on as a pattern says. -/
def occurs (pattern : LinePattern) : List Char → Bool
  | [] => pattern.isEmpty
  | c :: cs => begins pattern (c :: cs) || occurs pattern cs

theorem begins_iff {pattern : LinePattern} {cs : List Char} :
    begins pattern cs = true ↔ ∃ part, part <+: cs ∧ List.Forall₂ Accepts pattern part := by
  induction pattern generalizing cs with
  | nil => exact ⟨fun _ => ⟨[], List.nil_prefix, .nil⟩, fun _ => rfl⟩
  | cons place pattern ih =>
    cases cs with
    | nil => simp [begins]
    | cons c cs =>
      have hplace : place.all (· == c) = true ↔ Accepts place c := by
        cases place <;> simp [Accepts]
      rw [begins, Bool.and_eq_true, hplace, ih]
      constructor
      · rintro ⟨hc, part, hpart, hall⟩
        exact ⟨c :: part, List.cons_prefix_cons.mpr ⟨rfl, hpart⟩, .cons hc hall⟩
      · rintro ⟨whole, hwhole, hall⟩
        obtain ⟨d, part, hd, hrest, rfl⟩ := List.forall₂_cons_left_iff.mp hall
        obtain ⟨rfl, hpart⟩ := List.cons_prefix_cons.mp hwhole
        exact ⟨hd, part, hpart, hrest⟩

/-- **The search finds what matches.** -/
theorem occurs_iff {pattern : LinePattern} {line : List Char} :
    occurs pattern line = true ↔ pattern.Matches line := by
  induction line with
  | nil => simp [occurs, Matches, List.infix_nil]
  | cons c cs ih =>
    rw [occurs, Bool.or_eq_true, begins_iff, ih]
    simp only [Matches, List.infix_cons_iff, or_and_right, exists_or]

instance (pattern : LinePattern) (line : List Char) : Decidable (pattern.Matches line) :=
  decidable_of_iff _ occurs_iff

end LinePattern

/-! ## Tools -/

/-- Put a line after every line that matches a pattern. -/
structure Insertion where
  pattern : LinePattern
  added : List Char

namespace Insertion

/-- Read a script of the form `/pattern/a\line`. -/
def read? (script : String) : Option Insertion :=
  match script.toList with
  | '/' :: cs => match Text.cut? ['/'] cs with
    | some (pattern, 'a' :: '\\' :: added) =>
      if added.isEmpty || added.any (fun c => c = '\\' || c = '\n') then none
      else (LinePattern.read? pattern).map (⟨·, added⟩)
    | _ => none
  | _ => none

/-- The text of a file after the edit. -/
def apply (edit : Insertion) (text : String) : String :=
  String.ofList (addAfter (fun line => decide (edit.pattern.Matches line)) edit.added text.toList)

/-- A dot stands for any character. A last line without a line feed gets one first. -/
example : ((read? "/a.c/a\\  - x").map fun edit => (edit.apply "abc\r\na.\nxa.cx").toList) =
    some "abc\r\n  - x\na.\nxa.cx\n  - x\n".toList := by
  decide

end Insertion

/-- Whether a text stands in some line of a file. -/
def hasInLine (text part : String) : Bool :=
  (fileLines text.toList).any (Text.occursIn part.toList)

/-- **What stands in a file stands in a line of it.** -/
theorem hasInLine_iff {part : String} (h : '\n' ∉ part.toList) (hne : part ≠ "") (text : String) :
    hasInLine text part = true ↔ Text.hasText text part = true := by
  have hnil : part.toList ≠ [] := fun hnil => hne (String.toList_eq_nil_iff.mp hnil)
  rw [hasInLine, List.any_eq_true, Text.hasText_iff, Text.infix_iff_exists_fileLines h hnil]
  simp only [Text.occursIn_iff]

/-- An argument that begins with a dash is an option, or stands for the standard input. -/
def isOption (argument : String) : Bool :=
  argument.toList.head? == some '-'

namespace Files

/-- What a command does to the files, and whether it succeeds. -/
def tool? (fs : Files) : List String → Option (Files × Bool)
  | ["grep", "-qF", "--", part, path] =>
    if isOption path then none else some (fs, (fs path).any (hasInLine · part))
  | ["sed", "-i", script, path] =>
    if isOption script || isOption path then none
    else match fs path with
      | some text =>
        (Insertion.read? script).map fun edit => (fs.write path (edit.apply text), true)
      | none => some (fs, false)
  | _ => none

/-- What is done by commands of which each is run if those before it fail. -/
def firstOf? (fs : Files) : List (List String) → Option (Files × Bool)
  | [] => some (fs, false)
  | words :: others => match fs.tool? words with
    | some (fs, false) => firstOf? fs others
    | done => done

end Files

end Rampart.Remote

/-! ## Commands that stand in for one another -/

namespace Rampart.Shell

open Text.Word (Apart isSeparator line)

/-- The commands of tokens that are joined by `||`, where `words` stand before them. -/
def alternativesFrom (words : List String) : List Token → Option (List (List String))
  | [] => if words.isEmpty then none else simple? words
  | .word text :: rest => alternativesFrom (words ++ [String.ofList text]) rest
  | .operator text :: rest =>
    if words.isEmpty || text != ['|', '|'] then none
    else (simple? words).bind fun first => (alternativesFrom [] rest).map (first ++ ·)
  | .newline :: _ => none

/-- **The commands of a line** that are joined by `||`. -/
def alternatives? (line : String) : Option (List (List String)) :=
  (tokens line).bind (alternativesFrom [])

theorem alternativesFrom_words (words arguments : List String) (rest : List Token) :
    alternativesFrom words (arguments.map (.word ·.toList) ++ rest) =
      alternativesFrom (words ++ arguments) rest := by
  induction arguments generalizing words with
  | nil => simp
  | cons a as ih =>
    rw [List.map_cons, List.cons_append, alternativesFrom, ih, String.ofList_toList]
    simp

/-- An operator between blanks is a token. -/
theorem tokensFrom_bars (rest : List Char) :
    tokensFrom .between (" || ".toList ++ rest) =
      (tokensFrom .between rest).map (.operator ['|', '|'] :: ·) := by
  have hblank : State.between.step ' ' = some ([], .between) := rfl
  have hbar : State.between.step '|' = some ([], .operator ['|']) := rfl
  have hbars : (State.operator ['|']).step '|' = some ([], .operator ['|', '|']) := rfl
  have hend : (State.operator ['|', '|']).step ' ' =
      some ([.operator ['|', '|']], .between) := rfl
  calc tokensFrom .between (' ' :: '|' :: '|' :: ' ' :: rest)
      = tokensFrom .between ('|' :: '|' :: ' ' :: rest) := tokensFrom_of_step hblank _
    _ = tokensFrom (.operator ['|']) ('|' :: ' ' :: rest) := tokensFrom_of_step hbar _
    _ = tokensFrom (.operator ['|', '|']) (' ' :: rest) := tokensFrom_of_step hbars _
    _ = (tokensFrom .between rest).map ([.operator ['|', '|']] ++ ·) := tokensFrom_cons hend _

/-- **Two lines of arguments, joined by `||`, are two commands.** -/
theorem alternatives?_line {first second : List String} (hfirst : IsCommand first)
    (hsecond : IsCommand second) (hne : first ≠ []) (hne' : second ≠ []) :
    alternatives? (line first ++ " || " ++ line second) = some [first, second] := by
  have hapart : Apart (" || ".toList ++ (line second).toList) :=
    (by decide : isSeparator ' ' = true)
  have hlast := tokens_line hsecond.nulFree
  rw [tokens] at hlast
  rw [alternatives?, tokens, String.toList_append, String.toList_append, List.append_assoc,
    tokensFrom_line hfirst.nulFree hapart, tokensFrom_bars, hlast, Option.map_some, Option.map_some,
    Option.bind_some, alternativesFrom_words, List.nil_append, alternativesFrom, hfirst.simple]
  have hwords := alternativesFrom_words [] second []
  rw [List.append_nil, List.nil_append] at hwords
  rw [hwords, alternativesFrom, hsecond.simple]
  simp [hne, hne']

end Rampart.Shell

/-! ## Sequences of command lines -/

namespace Rampart.Remote.Files

/-- What command lines do that are run in order, up to the first that fails. -/
def runs? (fs : Files) : List String → Option (Files × Bool)
  | [] => some (fs, true)
  | line :: lines => match (Shell.alternatives? line).bind fs.firstOf? with
    | some (fs, true) => runs? fs lines
    | done => done

end Rampart.Remote.Files
