import Rampart.Simulation.Machine

/-!
# Scripted jobs

Jobs that follow a script: what each attempt takes and how it ends. They show how the scheduler
works.
-/

namespace Rampart.Simulation

/-- What an attempt does. -/
structure ScriptStep where
  /-- Seconds that the attempt takes. -/
  takes : Nat := 0
  failure : Option Failure := none
deriving DecidableEq, Repr

/-- A job that follows a script; past its end it succeeds. -/
structure ScriptedJob where
  name : String
  script : List ScriptStep := []
deriving DecidableEq, Repr

/-- What scripted jobs note. -/
inductive JobNote
  | began (name : String) (attempt : Nat)
  | failed (name : String) (failure : Failure)
deriving DecidableEq, Repr

/-- A scheduler of scripted jobs. -/
structure Bench where
  scheduler : Scheduler ScriptedJob := {}
  counters : Counters := {}
  /-- What was noted, with the time, the last first. -/
  notes : List (Nat × JobNote) := []
deriving Repr

namespace Bench

/-- Note something. -/
def note (n : JobNote) (b : Bench) : Bench :=
  { b with notes := (b.scheduler.now, n) :: b.notes }

/-- An attempt of a scripted job. -/
def handle (job : ScriptedJob) (attempt : Nat) : Task Bench Unit :=
  let step := (job.script[attempt - 1]?).getD {}
  let result : Except Failure Unit := match step.failure with
    | some failure => .error failure
    | none => .ok ()
  .ofProcess do
    Process.modify (note (.began job.name attempt))
    Process.wait step.takes (.done result)

/-- How scripted jobs are run. -/
def host : Host Bench ScriptedJob where
  works := {
    scheduler := (·.scheduler)
    setScheduler := fun scheduler b => { b with scheduler }
    count := fun c b => { b with counters := b.counters.tick c }
    name := (·.name)
    handle := handle
    failed := fun job failure => Process.modify (note (.failed job.name failure)) }

/-- What was noted since the last time, in order, and a bench that has forgotten it. -/
def takeNotes (b : Bench) : List (Nat × JobNote) × Bench :=
  (b.notes.reverse, { b with notes := [] })

end Bench

end Rampart.Simulation
