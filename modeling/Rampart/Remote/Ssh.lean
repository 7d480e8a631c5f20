import Rampart.Failure
import Rampart.Remote
import Rampart.Settings

/-!
# Calls by SSH

A call is carried out by one run of an SSH client. Commands travel as its input, so that nothing is
quoted twice; a file is written under a name of its own and then moved to its place.

* `Ssh.invocation` is the run of the client for a call.
* `Ssh.answer` reads what became of it.
-/

namespace Rampart.Ssh

open Remote (Call parentOf script)

/-- A run of the client. -/
structure Invocation where
  arguments : List String
  input : String
deriving DecidableEq, Repr

/-- What became of a run of the client. -/
inductive Ending
  /-- It ended with a status; what it said is in two parts. -/
  | exited (status : Nat) (output errors : String)
  /-- It did not end in time. -/
  | overdue
  /-- It could not be started. -/
  | notStarted (reason : String)
deriving DecidableEq, Repr

/-- The arguments up to the remote command. -/
def options (s : Settings.Ssh) (server : Server) : List String :=
  let hostKeys := if s.strictHostKeys then "yes" else "accept-new"
  let identity := match s.identityFile with
    | some file => ["-i", file]
    | none => []
  ["-o", "BatchMode=yes", "-o", s!"ConnectTimeout={s.connectTimeout}",
    "-o", s!"StrictHostKeyChecking={hostKeys}", "-p", toString server.port] ++ identity ++
    [s!"{server.user}@{server.host}"]

/-- The remote command that writes its input to a file and then moves it to its place. -/
def replaceCommand (path token : String) : String :=
  let directory := Text.Word.quote (parentOf path)
  let staged := Text.Word.quote s!"{path}.tmp.{token}"
  s!"mkdir -p {directory} && cat > {staged} && mv -f {staged} {Text.Word.quote path}"

/-- The run of the client for a call; the token is for the name of a staged file. -/
def invocation (s : Settings.Ssh) (server : Server) (token : String) : Call → Invocation
  | .run commands => ⟨options s server ++ ["sh -s"], script commands⟩
  | .upload path contents => ⟨options s server ++ [replaceCommand path token], contents⟩

/-- The answer to a call. -/
def answer (s : Settings.Ssh) (server : Server) : Ending → Except Failure String
  | .exited status output errors =>
    let said := output ++ errors
    if status = 0 then .ok said
    else .error (.transport
      s!"ssh to {server.host} exited with exit status: {status}: {Text.trimmed said}")
  | .overdue => .error (.transport s!"ssh to {server.host} timed out after {s.commandTimeout}s")
  | .notStarted reason => .error (.transport reason)

end Rampart.Ssh
