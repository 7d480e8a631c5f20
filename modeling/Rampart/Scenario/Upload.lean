import Rampart.Metric
import Rampart.Process
import Rampart.Scenario.Document

/-!
# Scenario files on a server

The scenario files of an application on a server are replaced as a set: the new files are written
to a directory of their own, moved into place, and then the files that are left over are removed.
All of it happens under the lock of application and server. When it fails, the new directory is
removed again.

* `ScenarioDir.replace` makes the application's files those that are given, unless they are out of
  date by the time the lock is held.
* `ScenarioDir.list` gives the names of the application's files.
* Only names that start with `ownedStart` belong to an application.
-/

namespace Rampart

open Text (trim)
open Text.Word (quote)

/-- What the names of an application's files start with. -/
def ownedStart (uuid : String) : String :=
  uuid ++ "."

/-- Whether a file name is that of a scenario of an application. -/
def isOwned (uuid name : String) : Bool :=
  (ownedStart uuid).toList.isPrefixOf name.toList && ".yaml".toList.isSuffixOf name.toList

/-- A directory of scenario files. -/
structure ScenarioDir where
  path : String
deriving DecidableEq, Repr

namespace ScenarioDir

variable {σ : Type}

/-- A directory, without slashes at the end of its path. -/
def ofPath (path : String) : ScenarioDir :=
  ⟨String.ofList (path.toList.reverse.dropWhile (· = '/')).reverse⟩

/-- The path of a file of the directory. -/
def file (d : ScenarioDir) (name : String) : String :=
  s!"{d.path}/{name}"

/-- The path of a new file. -/
def staged (staging name : String) : String :=
  s!"{staging}/{name}"

/-- The directory of the new files. -/
def staging (d : ScenarioDir) (uuid token : String) : String :=
  s!"{d.path}/.staging-{uuid}-{token}"

/-- The command that lists the directory; one that does not exist is empty. -/
def listCommand (d : ScenarioDir) : String :=
  s!"ls -1A {quote d.path} 2>/dev/null || true"

/-- The application's files in the output of `listCommand`. -/
def ownedIn (uuid output : String) : List String :=
  ((Text.lines output.toList).map fun line => String.ofList (trim line)).filter (isOwned uuid)

/-- The names of the application's files, by one who holds the lock. -/
def present (d : ScenarioDir) (server : Server) (uuid : String) : Task σ (List String) := do
  return ownedIn uuid (← Task.run server [d.listCommand])

/-- The commands that put the new files into place and remove those that are left over. -/
def activation (d : ScenarioDir) (staging : String) (existing : List String)
    (files : List ScenarioFile) : List String :=
  let stale := existing.filter fun name => !(files.map (·.name)).contains name
  files.map (fun f => s!"mv -f {quote (staged staging f.name)} {quote (d.file f.name)}") ++
    stale.map (fun name => s!"rm -f {quote (d.file name)}") ++ [s!"rm -rf {quote staging}"]

/-- Write the new files. -/
def uploadAll (server : Server) (staging : String) : List ScenarioFile → Task σ Unit
  | [] => return
  | f :: files => do
    Task.upload server (staged staging f.name) f.contents
    uploadAll server staging files

/-- Write the new files and put them into place. -/
def activate (d : ScenarioDir) (server : Server) (staging : String) (existing : List String)
    (files : List ScenarioFile) : Task σ Unit := do
  uploadAll server staging files
  let _ ← Task.run server (d.activation staging existing files)

/-- Replace the application's files, by one who holds the lock. -/
def replaceHeld (d : ScenarioDir) (server : Server) (uuid : String)
    (files : List ScenarioFile) : Task σ Unit := do
  let existing ← d.present server uuid
  let staging := d.staging uuid (← Task.fresh)
  match ← Task.attempt (d.activate server staging existing files) with
  | .ok () => return
  | .error failure =>
    let _ ← Task.attempt (Task.run server [s!"rm -rf {quote staging}"])
    throw failure

/-- Do a task while holding a lock. -/
def locked {α : Type} (lock : Lock) (t : Task σ α) : Task σ α :=
  .ofProcess (.acquire lock (t.process.bind fun result => .release lock (.done result)))

/-- Make the application's files on a server those that are given. `isCurrent` is asked once the
lock is held; if it says no, nothing is done. Tells whether it said yes. -/
def replace (d : ScenarioDir) (server : Server) (uuid : String) (files : List ScenarioFile)
    (isCurrent : σ → Bool) (count : Counter → Nat → σ → σ) : Task σ Bool :=
  locked ⟨uuid, server.id⟩ do
    if ← Task.read fun s => .ok (isCurrent s) then
      d.replaceHeld server uuid files
      Task.modify (count .scenariosUploaded files.length)
      return true
    else return false

/-- The names of the application's files. -/
def list (d : ScenarioDir) (server : Server) (uuid : String) : Task σ (List String) :=
  locked ⟨uuid, server.id⟩ (d.present server uuid)

end ScenarioDir

end Rampart
