import Rampart.Engine.Client
import Rampart.Proofs.Text.Word

/-!
# What a shell makes of a script

The tokens that a POSIX shell recognizes, and the simple commands that they make. `Word.split` reads
the words of one line; here line ends and operators are tokens of their own, so that it is known
where a command ends and that nothing but words is in it.

* `State.step` is what one character does, one case for each state of the reader; `tokens` goes
  through a text. The reader gives up where a shell would expand something.
* `commands?`: the commands of a script of simple commands, one a line.
* `tokensFrom_single`, **`tokensFrom_quote`**, **`tokensFrom_line`**: a quoted argument is one word,
  whatever it contains, and a line of them is these words.
* **`arguments_survive_quoting`**: lines of arguments, commands of the engine's client, and scripts
  of such commands.
-/

namespace Rampart.Shell

open Text.Word (Apart behind isPlain isSeparator line plain_is_bare quote quoteBody
  quoteChars quoteMark toList_line_cons)

/-! ## Tokens -/

/-- A token of a shell. -/
inductive Token
  /-- A word, once its quotes are removed. -/
  | word (text : List Char)
  | operator (text : List Char)
  | newline
deriving DecidableEq, Repr

/-- Characters that begin an operator, and are one. -/
def beginsOperator (c : Char) : Bool :=
  "&|;<>()".toList.contains c

/-- The operators of several characters. -/
def longOperators : List (List Char) :=
  [['&', '&'], ['|', '|'], [';', ';'], ['<', '<'], ['>', '>'], ['<', '&'], ['>', '&'], ['<', '>'],
   ['<', '<', '-'], ['>', '|']]

/-- Blanks separate tokens. -/
def isBlank (c : Char) : Bool :=
  c = ' ' || c = '\t'

/-- Characters that ask for an expansion where they are not quoted. -/
def expands (c : Char) : Bool :=
  "$\x60*?[~".toList.contains c

/-- Where the reader is. What has been read of a word is kept last character first. -/
inductive State
  | between
  | comment
  | operator (text : List Char)
  /-- In the unquoted part of a word. -/
  | bare (read : List Char)
  /-- Inside single quotes. -/
  | single (read : List Char)
  /-- Inside double quotes. -/
  | double (read : List Char)
  /-- Behind a backslash, in a word or where one may begin. -/
  | escaped (read : Option (List Char))
  /-- Behind a backslash inside double quotes. -/
  | escapedDouble (read : List Char)
deriving DecidableEq, Repr

/-- What a character outside quotes does after `read`, the word that it follows directly, if it
follows one. -/
def unquoted (read : Option (List Char)) (c : Char) : Option (List Token × State) :=
  let word := read.toList.map fun cs => Token.word cs.reverse
  if isBlank c then some (word, .between)
  else if c = '\n' then some (word ++ [.newline], .between)
  else if beginsOperator c then some (word, .operator [c])
  else if c = '#' && read.isNone then some ([], .comment)
  else if c = '\'' then some ([], .single (read.getD []))
  else if c = '"' then some ([], .double (read.getD []))
  else if c = '\\' then some ([], .escaped read)
  else if expands c then none
  else some ([], .bare (c :: read.getD []))

/-- What a character does: the tokens that end before it or with it, and where the reader is then.
No text that is sent to a shell contains the null character. -/
def State.step (s : State) (c : Char) : Option (List Token × State) :=
  if c = '\x00' then none else match s with
  | .between => unquoted none c
  | .comment => some (if c = '\n' then ([.newline], .between) else ([], .comment))
  | .operator text =>
    if longOperators.contains (text ++ [c]) then some ([], .operator (text ++ [c]))
    else (unquoted none c).map fun (tokens, s) => (.operator text :: tokens, s)
  | .bare read => unquoted (some read) c
  | .single read => some ([], if c = '\'' then .bare read else .single (c :: read))
  | .double read =>
    if c = '"' then some ([], .bare read)
    else if c = '\\' then some ([], .escapedDouble read)
    else if c = '$' || c = '\x60' then none
    else some ([], .double (c :: read))
  -- A backslash joins a line with the next one, and stands for nothing then.
  | .escaped read =>
    if c = '\n' then some ([], (read.map State.bare).getD .between)
    else some ([], .bare (c :: read.getD []))
  | .escapedDouble read =>
    if c = '\n' then some ([], .double read)
    else if "$\x60\"\\".toList.contains c then some ([], .double (c :: read))
    else some ([], .double (c :: '\\' :: read))

/-- The token that the end of a text ends; no quote may be open. -/
def State.finish : State → Option (List Token)
  | .between | .comment => some []
  | .operator text => some [.operator text]
  | .bare read => some [.word read.reverse]
  | .single _ | .double _ | .escaped _ | .escapedDouble _ => none

/-- The tokens of a text, read from a state on. -/
def tokensFrom : State → List Char → Option (List Token)
  | s, [] => s.finish
  | s, c :: cs => (s.step c).bind fun (ended, next) => (tokensFrom next cs).map (ended ++ ·)

/-- The tokens of a text. -/
def tokens (text : String) : Option (List Token) :=
  tokensFrom .between text.toList

/-! ## Commands -/

/-- Words that do not name a command, but belong to a compound one. -/
def reserved : List String :=
  ["!", "\x7b", "\x7d", "case", "do", "done", "elif", "else", "esac", "fi", "for", "if", "in",
   "then", "until", "while"]

/-- The command of the words of a line, if there are any. The first has to name it: it is not
reserved, and cannot be an assignment. -/
def simple? : List String → Option (List (List String))
  | [] => some []
  | name :: arguments =>
    if reserved.contains name || name.toList.contains '=' then none else some [name :: arguments]

/-- The commands of tokens, where `words` stand before them in the first line. -/
def commandsFrom (words : List String) : List Token → Option (List (List String))
  | [] => simple? words
  | .word text :: rest => commandsFrom (words ++ [String.ofList text]) rest
  | .newline :: rest => (simple? words).bind fun first => (commandsFrom [] rest).map (first ++ ·)
  | .operator _ :: _ => none

/-- **The commands of a script** that consists of simple commands without redirections, one a
line. -/
def commands? (script : String) : Option (List (List String)) :=
  (tokens script).bind (commandsFrom [])

/-! ## Quoted words -/

/-- A text that can be sent to a shell. -/
def IsNulFree (text : String) : Prop :=
  '\x00' ∉ text.toList

instance (text : String) : Decidable (IsNulFree text) := by
  unfold IsNulFree; infer_instance

theorem tokensFrom_cons {s next : State} {c : Char} {ended : List Token}
    (h : s.step c = some (ended, next)) (cs : List Char) :
    tokensFrom s (c :: cs) = (tokensFrom next cs).map (ended ++ ·) := by
  rw [tokensFrom, h]
  rfl

/-- A character that ends no token. -/
theorem tokensFrom_of_step {s next : State} {c : Char} (h : s.step c = some ([], next))
    (cs : List Char) : tokensFrom s (c :: cs) = tokensFrom next cs := by
  rw [tokensFrom_cons h]
  exact Option.map_id'

/-- A plain character is no other character. -/
theorem ne_of_isPlain {c d : Char} (h : isPlain c = true) (hd : isPlain d = false) : c ≠ d := by
  rintro rfl
  rw [h] at hd
  cases hd

/-- A plain character begins a word or continues it. -/
theorem unquoted_of_isPlain {c : Char} (h : isPlain c = true) (read : Option (List Char)) :
    unquoted read c = some ([], .bare (c :: read.getD [])) := by
  obtain ⟨hseparator, hsingle, hdouble, -⟩ := plain_is_bare h
  have hblank : isBlank c = false := by
    simp [isBlank, ne_of_isPlain h (d := ' ') (by decide), ne_of_isPlain h (d := '\t') (by decide)]
  have hnone : ∀ cs : List Char, cs.all (!isPlain ·) = true → cs.contains c = false := by
    intro cs hall
    rw [Bool.eq_false_iff, Ne, List.contains_iff_mem]
    exact fun hmem => ne_of_isPlain h (by simpa using List.all_eq_true.mp hall c hmem) rfl
  have hoperator : beginsOperator c = false := hnone _ (by decide)
  have hexpands : expands c = false := hnone _ (by decide)
  simp only [unquoted, hblank, hoperator, hexpands, Bool.false_eq_true, if_false,
    ne_of_isPlain h (d := '\n') (by decide), ne_of_isPlain h (d := '#') (by decide), hsingle,
    hdouble, ne_of_isPlain h (d := '\\') (by decide), decide_false, Bool.false_and]

theorem step_of_isPlain {c : Char} (h : isPlain c = true) :
    State.between.step c = some ([], .bare [c]) ∧
      ∀ read, (State.bare read).step c = some ([], .bare (c :: read)) := by
  have hnul : c ≠ '\x00' := ne_of_isPlain h (by decide)
  simp only [State.step, if_neg hnul, unquoted_of_isPlain h]
  exact ⟨rfl, fun _ => rfl⟩

theorem tokensFrom_plain {cs : List Char} (h : cs.all isPlain = true) (read rest : List Char) :
    tokensFrom (.bare read) (cs ++ rest) = tokensFrom (.bare (cs.reverse ++ read)) rest := by
  induction cs generalizing read with
  | nil => rfl
  | cons c cs ih =>
    rw [List.all_cons, Bool.and_eq_true] at h
    rw [List.cons_append, tokensFrom_of_step ((step_of_isPlain h.1).2 read), ih h.2]
    simp

/-- A quote mark leaves the single quotes, writes a quote and enters them again. -/
theorem tokensFrom_quoteMark (read rest : List Char) :
    tokensFrom (.single read) (quoteMark ++ rest) = tokensFrom (.single ('\'' :: read)) rest := by
  have hleave : (State.single read).step '\'' = some ([], .bare read) := rfl
  have hopen : (State.bare read).step '"' = some ([], .double read) := rfl
  have hwrite : (State.double read).step '\'' = some ([], .double ('\'' :: read)) := rfl
  have hclose : (State.double ('\'' :: read)).step '"' = some ([], .bare ('\'' :: read)) := rfl
  have henter : (State.bare ('\'' :: read)).step '\'' = some ([], .single ('\'' :: read)) := rfl
  calc tokensFrom (.single read) (quoteMark ++ rest)
      = tokensFrom (.bare read) ('"' :: '\'' :: '"' :: '\'' :: rest) := tokensFrom_of_step hleave _
    _ = tokensFrom (.double read) ('\'' :: '"' :: '\'' :: rest) := tokensFrom_of_step hopen _
    _ = tokensFrom (.double ('\'' :: read)) ('"' :: '\'' :: rest) := tokensFrom_of_step hwrite _
    _ = tokensFrom (.bare ('\'' :: read)) ('\'' :: rest) := tokensFrom_of_step hclose _
    _ = tokensFrom (.single ('\'' :: read)) rest := tokensFrom_of_step henter _

/-- Single quotes keep every character. -/
theorem tokensFrom_single {cs : List Char} (h : '\x00' ∉ cs) (read rest : List Char) :
    tokensFrom (.single read) (quoteBody cs ++ '\'' :: rest) =
      tokensFrom (.bare (cs.reverse ++ read)) rest := by
  induction cs generalizing read with
  | nil => exact tokensFrom_of_step (s := .single read) rfl rest
  | cons c cs ih =>
    rw [List.mem_cons, not_or] at h
    by_cases hc : c = '\''
    · subst hc
      rw [quoteBody, if_pos rfl, List.append_assoc, tokensFrom_quoteMark, ih h.2]
      simp
    · have hstep : (State.single read).step c = some ([], .single (c :: read)) := by
        simp only [State.step, if_neg (Ne.symm h.1), if_neg hc]
      rw [quoteBody, if_neg hc, List.cons_append, tokensFrom_of_step hstep, ih h.2]
      simp

/-- A word ends where a blank, a line end or the end of the text follows. -/
theorem tokensFrom_bare_of_apart {rest : List Char} (h : Apart rest) (read : List Char) :
    tokensFrom (.bare read) rest =
      (tokensFrom .between rest).map (.word read.reverse :: ·) := by
  cases rest with
  | nil => rfl
  | cons c rest =>
    have hc : isSeparator c = true := h
    simp only [isSeparator, Bool.or_eq_true, decide_eq_true_eq] at hc
    have hboth : ∃ ended, (State.bare read).step c = some (.word read.reverse :: ended, .between) ∧
        State.between.step c = some (ended, .between) := by
      rcases hc with (rfl | rfl) | rfl
      · exact ⟨[], rfl, rfl⟩
      · exact ⟨[], rfl, rfl⟩
      · exact ⟨[.newline], rfl, rfl⟩
    obtain ⟨ended, hbare, hbetween⟩ := hboth
    rw [tokensFrom_cons hbare, tokensFrom_cons hbetween, Option.map_map]
    rfl

/-- **A quoted argument is one word.** -/
theorem tokensFrom_quote {argument : String} (hargument : IsNulFree argument) {rest : List Char}
    (h : Apart rest) :
    tokensFrom .between ((quote argument).toList ++ rest) =
      (tokensFrom .between rest).map (.word argument.toList :: ·) := by
  rw [quote, String.toList_ofList, quoteChars]
  split
  · rename_i hplain
    rw [Bool.and_eq_true] at hplain
    cases hcs : argument.toList with
    | nil => simp [hcs] at hplain
    | cons c cs =>
      rw [hcs, List.all_cons, Bool.and_eq_true] at hplain
      rw [List.cons_append, tokensFrom_of_step (step_of_isPlain hplain.2.1).1,
        tokensFrom_plain hplain.2.2, tokensFrom_bare_of_apart h]
      simp
  · have hopen : State.between.step '\'' = some ([], .single []) := rfl
    rw [List.cons_append, List.cons_append, tokensFrom_of_step hopen, List.append_assoc,
      List.singleton_append, tokensFrom_single hargument, tokensFrom_bare_of_apart h]
    simp

/-! ## Lines of arguments -/

theorem apart_behind_append (arguments : List String) {rest : List Char} (h : Apart rest) :
    Apart (behind arguments ++ rest) := by
  cases arguments with
  | nil => exact h
  | cons a as => exact (by decide : isSeparator ' ' = true)

theorem tokensFrom_behind {arguments : List String} (hfree : ∀ a ∈ arguments, IsNulFree a)
    {rest : List Char} (h : Apart rest) :
    tokensFrom .between (behind arguments ++ rest) =
      (tokensFrom .between rest).map (arguments.map (.word ·.toList) ++ ·) := by
  induction arguments with
  | nil => simp [behind]
  | cons a as ih =>
    have hblank : State.between.step ' ' = some ([], .between) := rfl
    have hcons : behind (a :: as) ++ rest =
        ' ' :: ((quote a).toList ++ (behind as ++ rest)) := by simp [behind]
    rw [hcons, tokensFrom_of_step hblank,
      tokensFrom_quote (hfree a List.mem_cons_self) (apart_behind_append as h),
      ih fun b hb => hfree b (List.mem_cons_of_mem a hb), Option.map_map]
    rfl

/-- **A line of quoted arguments is these words**, whatever follows it in another line. -/
theorem tokensFrom_line {arguments : List String} (hfree : ∀ a ∈ arguments, IsNulFree a)
    {rest : List Char} (h : Apart rest) :
    tokensFrom .between ((line arguments).toList ++ rest) =
      (tokensFrom .between rest).map (arguments.map (.word ·.toList) ++ ·) := by
  cases arguments with
  | nil => simp [line]
  | cons a as =>
    rw [toList_line_cons, List.append_assoc,
      tokensFrom_quote (hfree a List.mem_cons_self) (apart_behind_append as h),
      tokensFrom_behind (fun b hb => hfree b (List.mem_cons_of_mem a hb)) h, Option.map_map]
    rfl

theorem tokens_line {arguments : List String} (hfree : ∀ a ∈ arguments, IsNulFree a) :
    tokens (line arguments) = some (arguments.map (.word ·.toList)) := by
  have hend : Apart [] := trivial
  have h := tokensFrom_line hfree hend
  rw [List.append_nil] at h
  rw [tokens, h]
  simp [tokensFrom, State.finish]

/-! ## Lines that are commands -/

theorem commandsFrom_words (words arguments : List String) (rest : List Token) :
    commandsFrom words (arguments.map (.word ·.toList) ++ rest) =
      commandsFrom (words ++ arguments) rest := by
  induction arguments generalizing words with
  | nil => simp
  | cons a as ih =>
    rw [List.map_cons, List.cons_append, commandsFrom, ih, String.ofList_toList]
    simp

/-- A line of arguments whose first names a command. -/
structure IsCommand (arguments : List String) : Prop where
  simple : simple? arguments = some [arguments]
  nulFree : ∀ a ∈ arguments, IsNulFree a

theorem commands?_line {arguments : List String} (h : IsCommand arguments) :
    commands? (line arguments) = some [arguments] := by
  have hwords := commandsFrom_words [] arguments []
  rw [List.append_nil, List.nil_append] at hwords
  rw [commands?, tokens_line h.nulFree, Option.bind_some, hwords, commandsFrom, h.simple]

/-- The text of commands, each in a line of its own. -/
def linesOf (commands : List String) : List Char :=
  commands.flatMap fun command => command.toList ++ ['\n']

theorem toList_script (commands : List String) :
    (Remote.script commands).toList = "set -e\n".toList ++ linesOf commands := by
  have hfold : ∀ start : String,
      (commands.foldl (fun text command => text ++ command ++ "\n") start).toList =
        start.toList ++ linesOf commands := by
    induction commands with
    | nil => intro start; simp [linesOf]
    | cons command commands ih =>
      intro start
      rw [List.foldl_cons, ih]
      simp [linesOf]
  exact hfold _

/-- One command after another. -/
theorem commandsFrom_lines {lists : List (List String)} (h : ∀ list ∈ lists, IsCommand list) :
    (tokensFrom .between (linesOf (lists.map line))).bind (commandsFrom []) = some lists := by
  induction lists with
  | nil => rfl
  | cons list lists ih =>
    obtain ⟨hsimple, hfree⟩ := h list List.mem_cons_self
    have hcons : linesOf ((list :: lists).map line) =
        (line list).toList ++ '\n' :: linesOf (lists.map line) := by simp [linesOf]
    have hnewline : State.between.step '\n' = some ([.newline], .between) := rfl
    have hapart : Apart ('\n' :: linesOf (lists.map line)) := (by decide : isSeparator '\n' = true)
    have hrest := ih fun other hother => h other (List.mem_cons_of_mem list hother)
    obtain ⟨rest, htokens, hcommands⟩ := Option.bind_eq_some_iff.mp hrest
    rw [hcons, tokensFrom_line hfree hapart, tokensFrom_cons hnewline, htokens]
    simp only [Option.map_some, Option.bind_some]
    rw [commandsFrom_words, List.nil_append, List.singleton_append, commandsFrom, hsimple,
      Option.bind_some, hcommands]
    rfl

/-- **A script is its commands**, after the one that has it stop at the first that fails. -/
theorem commands?_script {lists : List (List String)} (h : ∀ list ∈ lists, IsCommand list) :
    commands? (Remote.script (lists.map line)) = some (["set", "-e"] :: lists) := by
  have hset : IsCommand ["set", "-e"] := ⟨by decide, by decide⟩
  have hall : ∀ list ∈ ["set", "-e"] :: lists, IsCommand list :=
    List.forall_mem_cons.mpr ⟨hset, h⟩
  have hfirst : "set -e\n".toList = (line ["set", "-e"]).toList ++ ['\n'] := by decide
  rw [commands?, tokens, toList_script, hfirst, ← commandsFrom_lines hall]
  rfl

/-! ## The engine's client -/

theorem isCommand_words {c : Engine.Client} {arguments : List String}
    (hcontainer : IsNulFree c.settings.container) (hfree : ∀ a ∈ arguments, IsNulFree a) :
    IsCommand (c.words arguments) := by
  refine ⟨rfl, fun a ha => ?_⟩
  simp only [Engine.Client.words, List.mem_append, List.mem_cons, List.not_mem_nil, or_false] at ha
  rcases ha with (rfl | rfl | rfl | rfl) | ha
  · decide
  · decide
  · exact hcontainer
  · decide
  · exact hfree a ha

/-- **Arguments survive quoting.** For texts without the null character:

* a line of quoted arguments is read back as these words, one for each argument;
* a command of the engine's client is one simple command, and its words are those that run the
  client in its container and the arguments;
* a script of such commands is these commands, one after the other, and stops at the first that
  fails. -/
theorem arguments_survive_quoting :
    (∀ arguments : List String, (∀ a ∈ arguments, IsNulFree a) →
      tokens (line arguments) = some (arguments.map (.word ·.toList))) ∧
    ∀ c : Engine.Client, IsNulFree c.settings.container →
      (∀ arguments : List String, (∀ a ∈ arguments, IsNulFree a) →
        commands? (c.command arguments) =
          some [["docker", "exec", c.settings.container, "cscli"] ++ arguments]) ∧
      ∀ lists : List (List String), (∀ arguments ∈ lists, ∀ a ∈ arguments, IsNulFree a) →
        commands? (Remote.script (lists.map c.command)) =
          some (["set", "-e"] :: lists.map c.words) := by
  refine ⟨fun arguments hfree => tokens_line hfree, fun c hcontainer =>
    ⟨fun arguments hfree => commands?_line (isCommand_words hcontainer hfree),
      fun lists hfree => ?_⟩⟩
  have hlists : ∀ list ∈ lists.map c.words, IsCommand list := by
    intro list hlist
    obtain ⟨arguments, harguments, rfl⟩ := List.mem_map.mp hlist
    exact isCommand_words hcontainer (hfree arguments harguments)
  have hscript := commands?_script hlists
  rwa [List.map_map] at hscript

/-- Arguments that would be more than words without quotes: none at all, a quote and blanks, lines
of their own, expansions, operators and a comment. -/
def hostile : List String :=
  ["", "it's  here", "a\nrm -rf /", "$(reboot)", "x; y && z", "\\", "\"`~*", "#"]

/-- They are read back. -/
theorem arguments_survive_quoting_hostile :
    (∀ a ∈ hostile, IsNulFree a) ∧
    tokens (line hostile) = some (hostile.map (.word ·.toList)) ∧
    commands? (Remote.script [(⟨{}⟩ : Engine.Client).command hostile]) =
      some [["set", "-e"], ["docker", "exec", "crowdsec", "cscli"] ++ hostile] := by
  have hfree : ∀ a ∈ hostile, IsNulFree a := by decide
  obtain ⟨hline, hclient⟩ := arguments_survive_quoting
  refine ⟨hfree, hline hostile hfree, ?_⟩
  exact (hclient ⟨{}⟩ (by decide)).2 [hostile] fun arguments harguments => by
    rw [List.mem_singleton.mp harguments]
    exact hfree

end Rampart.Shell
