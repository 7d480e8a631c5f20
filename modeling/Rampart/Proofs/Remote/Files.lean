import Mathlib.Logic.Function.Basic
import Rampart.Proofs.Text.Word
import Rampart.Remote

/-!
# The files of a server

What calls to a server do to its files, which are texts at paths. Of the commands only `mv -f`,
`rm -f` and `rm -rf` change files; a command line that is more than words, such as one with a
redirection, changes none of the files that are looked at here.

* `Files.script`: commands are run in order, up to the first that fails.
* `Files.after`: the files after a call.
* **`script_append`**, `line?_move`, `line?_remove`, `line?_removeAll`: what scripts of such commands
  do.
* `Ignores`: command lines that succeed and change no files.
-/

namespace Rampart.Remote

open Text (Word.quote Word.line Word.split)

/-- The files of a server: the text at every path. -/
abbrev Files := String → Option String

namespace Files

/-- Put a text at a path. -/
def write (fs : Files) (path contents : String) : Files :=
  Function.update fs path (some contents)

/-- Remove what is at a path. -/
def erase (fs : Files) (path : String) : Files :=
  Function.update fs path none

/-- Whether a path is a directory or lies in it. -/
def IsUnder (directory path : String) : Prop :=
  path = directory ∨ (directory ++ "/").toList <+: path.toList

instance (directory path : String) : Decidable (IsUnder directory path) := by
  unfold IsUnder; infer_instance

/-- Remove a directory with everything in it. -/
def eraseUnder (fs : Files) (directory : String) : Files := fun path =>
  if IsUnder directory path then none else fs path

/-- What a command does; nothing if it fails. A file that is not there cannot be moved. -/
def command? (fs : Files) : List String → Option Files
  | ["mv", "-f", source, target] =>
    (fs source).map fun contents => (fs.erase source).write target contents
  | ["rm", "-f", path] => some (fs.erase path)
  | ["rm", "-rf", directory] => some (fs.eraseUnder directory)
  | _ => some fs

/-- What a command line does. -/
def line? (fs : Files) (line : String) : Option Files :=
  match Word.split line with
  | some words => fs.command? words
  | none => some fs

/-- The files after commands that are run in order up to the first that fails, and whether none
failed. -/
def script (fs : Files) : List String → Files × Bool
  | [] => (fs, true)
  | line :: lines => match fs.line? line with
    | some fs => script fs lines
    | none => (fs, false)

/-- The files after a call that is carried out, and whether it succeeds. -/
def after (fs : Files) : Call → Files × Bool
  | .run commands => fs.script commands
  | .upload path contents => (fs.write path contents, true)

/-! ## Scripts -/

theorem script_append (fs : Files) (lines others : List String) :
    fs.script (lines ++ others) =
      if (fs.script lines).2 then (fs.script lines).1.script others else fs.script lines := by
  induction lines generalizing fs with
  | nil => rfl
  | cons line lines ih =>
    rw [List.cons_append, script, script]
    cases fs.line? line with
    | none => rfl
    | some fs => exact ih fs

theorem script_append_of_ok {fs : Files} {lines : List String} (h : (fs.script lines).2 = true)
    (others : List String) :
    fs.script (lines ++ others) = (fs.script lines).1.script others := by
  rw [script_append, if_pos h]

/-! ## Commands -/

theorem line?_line (fs : Files) (words : List String) :
    fs.line? (Word.line words) = fs.command? words := by
  rw [line?, Text.Word.split_line]

theorem move_eq_line (source target : String) :
    s!"mv -f {Word.quote source} {Word.quote target}" =
      Word.line ["mv", "-f", source, target] := by
  have hmv : Word.quote "mv" = "mv" := by decide
  have hf : Word.quote "-f" = "-f" := by decide
  apply String.toList_inj.mp
  have h : s!"mv -f {Word.quote source} {Word.quote target}" =
      "mv -f " ++ Word.quote source ++ " " ++ Word.quote target := rfl
  rw [h, Text.Word.toList_line_cons, hmv]
  simp [Text.Word.behind, hf]

theorem remove_eq_line (path : String) :
    s!"rm -f {Word.quote path}" = Word.line ["rm", "-f", path] := by
  have hrm : Word.quote "rm" = "rm" := by decide
  have hf : Word.quote "-f" = "-f" := by decide
  apply String.toList_inj.mp
  have h : s!"rm -f {Word.quote path}" = "rm -f " ++ Word.quote path := rfl
  rw [h, Text.Word.toList_line_cons, hrm]
  simp [Text.Word.behind, hf]

theorem removeAll_eq_line (directory : String) :
    s!"rm -rf {Word.quote directory}" = Word.line ["rm", "-rf", directory] := by
  have hrm : Word.quote "rm" = "rm" := by decide
  have hrf : Word.quote "-rf" = "-rf" := by decide
  apply String.toList_inj.mp
  have h : s!"rm -rf {Word.quote directory}" = "rm -rf " ++ Word.quote directory := rfl
  rw [h, Text.Word.toList_line_cons, hrm]
  simp [Text.Word.behind, hrf]

theorem line?_move {fs : Files} {source contents : String} (h : fs source = some contents)
    (target : String) :
    fs.line? s!"mv -f {Word.quote source} {Word.quote target}" =
      some ((fs.erase source).write target contents) := by
  rw [move_eq_line, line?_line, command?, h, Option.map_some]

theorem line?_remove (fs : Files) (path : String) :
    fs.line? s!"rm -f {Word.quote path}" = some (fs.erase path) := by
  rw [remove_eq_line, line?_line, command?]

theorem line?_removeAll (fs : Files) (directory : String) :
    fs.line? s!"rm -rf {Word.quote directory}" = some (fs.eraseUnder directory) := by
  rw [removeAll_eq_line, line?_line, command?]

/-! ## Commands that change no files -/

/-- A command line that succeeds and changes no files. -/
def Ignores (line : String) : Prop :=
  ∀ fs : Files, fs.line? line = some fs

theorem script_of_ignores {lines : List String} (h : ∀ line ∈ lines, Ignores line) (fs : Files) :
    fs.script lines = (fs, true) := by
  induction lines with
  | nil => rfl
  | cons line lines ih =>
    rw [script, h line List.mem_cons_self fs]
    exact ih fun l hl => h l (List.mem_cons_of_mem line hl)

/-- A command line whose first word is plain and not one of the commands on files. -/
theorem ignores_of_program {line : String} (name rest : List Char)
    (h : line.toList = name ++ ' ' :: rest) (hplain : name.all Text.Word.isPlain = true)
    (hname : name ≠ [] ∧ String.ofList name ≠ "mv" ∧ String.ofList name ≠ "rm") :
    Ignores line := by
  intro fs
  obtain ⟨hne, hmv, hrm⟩ := hname
  have hread : Text.Word.splitFrom .between [] (name ++ ' ' :: rest) =
      (Text.Word.splitFrom .between [] (' ' :: rest)).map (name :: ·) := by
    have hquote := @Text.Word.splitFrom_quote (String.ofList name) (' ' :: rest)
      (by decide : Text.Word.isSeparator ' ' = true)
    have htext : (Word.quote (String.ofList name)).toList = name := by
      simp [Word.quote, Text.Word.quoteChars, hne, hplain]
    rwa [htext, String.toList_ofList] at hquote
  unfold line? Word.split
  rw [h, hread]
  cases Text.Word.splitFrom .between [] (' ' :: rest) with
  | none => rfl
  | some words =>
    simp only [Option.map_some, List.map_cons]
    unfold command?
    split <;> simp_all

/-- Commands of a program of the name `docker`. -/
theorem ignores_docker {line : String} (rest : List Char)
    (h : line.toList = "docker".toList ++ ' ' :: rest) : Ignores line :=
  ignores_of_program "docker".toList rest h (by decide) (by decide)

end Files

end Rampart.Remote
