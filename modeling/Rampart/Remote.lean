import Rampart.Server
import Rampart.Text.Blank
import Rampart.Text.Word

/-!
# Remote calls

What is asked of a managed server: to run commands in order, up to the first that fails, or to
replace a file as a whole.

* `script` is the text that runs commands.
* `parentOf` is the directory of a path.
-/

namespace Rampart.Remote

/-- A call to a server. -/
inductive Call
  /-- Run commands in order, up to the first that fails. -/
  | run (commands : List String)
  /-- Replace a file as a whole. -/
  | upload (path contents : String)
deriving DecidableEq, Repr

/-- The script that runs commands up to the first that fails. -/
def script (commands : List String) : String :=
  commands.foldl (fun text command => text ++ command ++ "\n") "set -e\n"

/-- What stands before the last slash of a text that has one. -/
def beforeLastSlash? : List Char → Option (List Char)
  | [] => none
  | c :: cs => match beforeLastSlash? cs with
    | some before => some (c :: before)
    | none => if c = '/' then some [] else none

/-- The directory of a path. -/
def parentOf (path : String) : String :=
  match beforeLastSlash? path.toList with
  | some [] => "/"
  | some before => String.ofList before
  | none => "."

end Rampart.Remote
