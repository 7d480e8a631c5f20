import Rampart.Job.Scheduler
import Rampart.Metric
import Rampart.Process

/-!
# Attempts

What happens to a job that was picked. An attempt that fails is followed by another only if the
failure is one of transport and the policy allows it; a configuration failure means that there was
nothing to do. Anything else ends the job for good, and is reported once.

* `Works` says what a scheduler has to know about jobs.
* `Works.settle` is the step at the end of an attempt, `Works.attempt` an attempt as a whole.
-/

namespace Rampart

/-- Jobs `J` that work on a state `σ`, of which their scheduler is a part. -/
structure Works (σ J : Type) where
  scheduler : σ → Scheduler J
  setScheduler : Scheduler J → σ → σ
  count : Counter → σ → σ
  /-- The name of a job. -/
  name : J → String
  /-- An attempt of a number, counted from one. -/
  handle : J → Nat → Task σ Unit
  /-- What follows when a job has failed for good. -/
  failed : J → Failure → Process σ Unit

namespace Works

variable {σ J : Type}

/-- Change the scheduler of a state. -/
def reschedule (w : Works σ J) (f : Scheduler J → Scheduler J) (s : σ) : σ :=
  w.setScheduler (f (w.scheduler s)) s

/-- The step at the end of an attempt; gives what is to be reported. -/
def settle (w : Works σ J) (e : Entry J) (result : Except Failure Unit) (s : σ) :
    Option Failure × σ :=
  match result with
  | .ok () => (none, w.reschedule .finish (w.count (.jobs .completed) s))
  | .error failure =>
    if failure.isConfiguration then
      (none, w.reschedule .finish (w.count (.jobs .skipped) s))
    else
      let again := if failure.isRetryable then e.next? (w.scheduler s).now else none
      match again with
      | some due => (none, w.reschedule (·.delayUntil due e) (w.count (.jobs .retried) s))
      | none =>
        (some (.permanent
          s!"{w.name e.job} failed after {e.attempts} attempt(s): {failure.message}"),
         w.count (.jobs .failed) s)

/-- An attempt of a job that was picked. -/
def attempt (w : Works σ J) (e : Entry J) : Process σ Unit := do
  let e ← Process.read fun s => e.begin (w.scheduler s).now
  let result ← (w.handle e.job e.attempts).process
  match ← Process.modifyGet (w.settle e result) with
  | none => return
  | some failure =>
    w.failed e.job failure
    Process.modify (w.reschedule .finish)

end Works

end Rampart
