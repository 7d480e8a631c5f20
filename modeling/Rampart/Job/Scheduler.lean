import Rampart.Job.Retry

/-!
# The scheduler of jobs

Jobs wait for their time, then queue up, and are picked in order: the high queue before the
security queue before the default queue, and the oldest first within a queue.

* `Scheduler.dispatch` takes a job in, `Scheduler.arrive` queues one whose time has come, and
  `Scheduler.pick?` hands one out.
* `Scheduler.pending` is the number of jobs that were taken in and have not ended.
* A closed scheduler drops what arrives, and hands out what is queued.
-/

namespace Rampart

/-- Where a job queues up. -/
inductive Queue
  /-- For servers that have just become reachable. -/
  | high
  | security
  | default
deriving DecidableEq, Repr, Inhabited

namespace Queue

/-- The name of a queue. -/
def name : Queue → String
  | high => "high"
  | security => "security"
  | default => "default"

/-- All queues, the first to be served first. -/
def inOrder : List Queue := [high, security, default]

/-- Every queue with its name. -/
def named : List (String × Queue) :=
  inOrder.map fun queue => (queue.name, queue)

end Queue

/-- A job with how it is to be run. -/
structure Entry (J : Type) where
  job : J
  queue : Queue
  retry : RetryPolicy
  /-- Attempts that were begun. -/
  attempts : Nat := 0
  /-- When the first attempt began. -/
  first : Option Nat := none
deriving DecidableEq, Repr

namespace Entry

variable {J : Type}

/-- The entry once its next attempt has begun. -/
def begin (e : Entry J) (now : Nat) : Entry J :=
  { e with attempts := e.attempts + 1, first := some (e.first.getD now) }

/-- When the attempt after a failed one begins, if there is one. -/
def next? (e : Entry J) (now : Nat) : Option Nat :=
  e.retry.next? e.attempts (e.first.getD now) now

end Entry

/-- A job that waits for its time. -/
structure Waiting (J : Type) where
  /-- In the order in which the jobs began to wait. -/
  number : Nat
  due : Nat
  entry : Entry J
deriving DecidableEq, Repr

/-- The jobs that have not begun, and a clock. Times are in seconds. -/
structure Scheduler (J : Type) where
  now : Nat := 0
  /-- The number of the next job to wait. -/
  issued : Nat := 0
  waiting : List (Waiting J) := []
  /-- Jobs whose time has come, oldest first. -/
  queued : List (Entry J) := []
  /-- Jobs that have not ended. -/
  pending : Nat := 0
  isClosed : Bool := false
deriving DecidableEq, Repr

namespace Scheduler

variable {J : Type}

/-- Let a job wait until a time. -/
def delayUntil (s : Scheduler J) (due : Nat) (e : Entry J) : Scheduler J :=
  { s with issued := s.issued + 1, waiting := s.waiting ++ [⟨s.issued, due, e⟩] }

/-- Take a job in, to be run after a delay at the earliest. -/
def dispatch (s : Scheduler J) (e : Entry J) (delay : Nat) : Scheduler J :=
  let s := s.delayUntil (s.now + delay) e
  { s with pending := s.pending + 1 }

/-- A job has ended. -/
def finish (s : Scheduler J) : Scheduler J :=
  { s with pending := s.pending - 1 }

/-- Queue up the job of a number. -/
def arrive (s : Scheduler J) (number : Nat) : Scheduler J :=
  match s.waiting.find? (·.number == number) with
  | none => s
  | some w =>
    let s := { s with waiting := s.waiting.filter (·.number != number) }
    if s.isClosed then s.finish else { s with queued := s.queued ++ [w.entry] }

/-- Take the first entry of a queue out of a list. -/
def takeFirst? (queue : Queue) : List (Entry J) → Option (Entry J × List (Entry J))
  | [] => none
  | e :: es =>
    if e.queue = queue then some (e, es)
    else (takeFirst? queue es).map fun (found, rest) => (found, e :: rest)

/-- The next job to run. -/
def pick? (s : Scheduler J) : Option (Entry J × Scheduler J) :=
  (Queue.inOrder.findSome? fun queue => takeFirst? queue s.queued).map fun (e, rest) =>
    (e, { s with queued := rest })

/-- Let nothing more in. -/
def close (s : Scheduler J) : Scheduler J :=
  { s with isClosed := true }

end Scheduler

end Rampart
