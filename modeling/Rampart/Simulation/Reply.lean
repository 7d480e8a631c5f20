import Rampart.Remote
import Rampart.Failure
import Rampart.Text.Search

/-!
# Scripted servers

A server that answers by a script: the first reply that fits a call and is not used up. A call
that no reply fits succeeds, with nothing to say.
-/

namespace Rampart.Simulation

/-- The kinds of calls. -/
inductive CallKind
  | run
  | upload
deriving DecidableEq, Repr

/-- A reply of a script. -/
structure Reply where
  /-- A part of the commands or of the path. -/
  pattern : String := ""
  /-- The only kind of calls that it is for. -/
  kind : Option CallKind := none
  output : String := ""
  failure : Option Failure := none
  /-- How often it may still be given. -/
  times : Option Nat := none
  /-- Seconds that the call takes. -/
  delay : Nat := 0
deriving DecidableEq, Repr

/-- The kind of a call. -/
def kindOf : Remote.Call → CallKind
  | .run _ => .run
  | .upload _ _ => .upload

/-- The text of a call in which a reply looks for its part. -/
def subjectOf : Remote.Call → String
  | .run commands => "\n".intercalate commands
  | .upload path _ => path

namespace Reply

/-- Whether a reply is for a call. -/
def fits (r : Reply) (c : Remote.Call) : Bool :=
  (r.kind.isNone || r.kind = some (kindOf c)) && r.times != some 0 &&
    Text.hasText (subjectOf c) r.pattern

/-- The answer of a reply. -/
def answer (r : Reply) : Except Failure String :=
  match r.failure with
  | some failure => .error failure
  | none => .ok r.output

/-- A reply that was given once more. -/
def use (r : Reply) : Reply :=
  { r with times := r.times.map (· - 1) }

end Reply

/-- An answer, with the seconds that it takes. -/
structure Answer where
  delay : Nat
  result : Except Failure String

/-- The answer of a script, and what is left of the script. -/
def answerFrom (c : Remote.Call) : List Reply → Answer × List Reply
  | [] => (⟨0, .ok ""⟩, [])
  | r :: rs =>
    if r.fits c then (⟨r.delay, r.answer⟩, r.use :: rs)
    else
      let (answer, rs) := answerFrom c rs
      (answer, r :: rs)

end Rampart.Simulation
