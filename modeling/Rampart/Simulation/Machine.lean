import Rampart.Job.Attempt
import Rampart.Simulation.Reply
import Rampart.Table

/-!
# Running processes on simulated time

A machine runs the jobs of a scheduler on a clock that moves only when everybody waits. Whoever
has something to do takes a turn, one after another; a turn ends where its process has to wait.

* `Machine.drain` gives turns until nobody has anything to do at this time.
* `Machine.advance` and `Machine.settle` move the clock: by a number of seconds, or until no job is
  pending.
* `Machine.perform` runs a process in front of all others, and the others while it waits.
* Whoever waits for the same time goes on in the order in which they began to wait.
-/

namespace Rampart.Simulation

/-- What happened, besides changes of the state. -/
inductive Happening
  /-- A call to a server began. -/
  | called (server : UInt64) (c : Remote.Call)
  /-- The outside was told something. -/
  | told (notice : Notice)
deriving DecidableEq, Repr

/-- Something to do for one who takes turns. -/
inductive Turn (σ : Type)
  /-- The job of a number queues up. -/
  | arrive (number : Nat)
  /-- A worker looks for a job. -/
  | look
  /-- A worker goes on with a job. -/
  | work (rest : Process σ Unit)
  /-- A listener reads its events. -/
  | listen (name : String)
  /-- Something is done now, and again and again after a number of seconds. -/
  | tick (period : Nat)

/-- Where a process stands after a turn. -/
inductive Stop (σ α : Type)
  | finished (a : α)
  | asleep (wake : Nat) (rest : Process σ α)
  | blocked (lock : Lock) (rest : Process σ α)

/-- What a machine has to know about the state that it works on. -/
structure Host (σ J : Type) where
  works : Works σ J
  /-- Whether there is something to read for a listener. -/
  hasMail : String → σ → Bool := fun _ _ => false
  /-- What a listener does with the next thing that it reads. -/
  hear : String → σ → σ := fun _ s => s
  /-- What is done again and again. -/
  tick : σ → σ := id

/-- A machine. -/
structure Machine (σ : Type) where
  state : σ
  replies : List Reply := []
  /-- The answer to notices. -/
  noticeResult : Notice → Except Failure Unit := fun _ => .ok ()
  /-- The time of day, which stands still. -/
  timeOfDay : Instant
  /-- The name that is given as a fresh one. -/
  token : String
  /-- What happened, with the time, the last first. -/
  history : List (Nat × Happening) := []
  freeWorkers : Nat
  /-- Who has something to do, in order. -/
  ready : List (Turn σ) := []
  /-- Who waits for a time, in the order in which they began to wait. -/
  asleep : List (Nat × Turn σ) := []
  /-- The locks that are held, each with who waits for it. -/
  locks : Table Lock (List (Process σ Unit)) := {}
  /-- How many jobs have begun to wait so far. -/
  seen : Nat := 0
  /-- Listeners who have read everything. -/
  listening : List String := []

namespace Machine

variable {σ J α : Type}

/-- Note that something happens. -/
def note (now : Nat) (m : Machine σ) (h : Happening) : Machine σ :=
  { m with history := (now, h) :: m.history }

/-- Call a server. -/
def call (now : Nat) (m : Machine σ) (server : Server) (c : Remote.Call) : Answer × Machine σ :=
  let (answer, replies) := answerFrom c m.replies
  (answer, { m.note now (.called server.id c) with replies })

/-- Call servers, one after the other, without waiting. -/
def callEach (now : Nat) (m : Machine σ) :
    List (Server × Remote.Call) → List Answer × Machine σ
  | [] => ([], m)
  | (server, c) :: calls =>
    let (answer, m) := m.call now server c
    let (answers, m) := callEach now m calls
    (answer :: answers, m)

/-- Take a lock that nobody holds. -/
def take (m : Machine σ) (lock : Lock) : Machine σ :=
  { m with locks := m.locks.insert lock [] }

/-- Give a lock to the one who has waited longest. -/
def handOver (m : Machine σ) (lock : Lock) : Machine σ :=
  match m.locks.get? lock with
  | some (next :: others) =>
    { m with
      locks := m.locks.insert lock others
      ready := m.ready ++ [.work next] }
  | _ => { m with locks := m.locks.erase lock }

/-- Go on with a process until it has to wait. -/
def goOn (now : Nat) (m : Machine σ) : Process σ α → Stop σ α × Machine σ
  | .done a => (.finished a, m)
  | .atomic update next => goOn now { m with state := update m.state } (next m.state)
  | .call server c next =>
    let (answer, m) := m.call now server c
    if answer.delay = 0 then goOn now m (next answer.result)
    else (.asleep (now + answer.delay) (next answer.result), m)
  | .callAll calls next =>
    let (answers, m) := m.callEach now calls
    let delay := (answers.map (·.delay)).foldl max 0
    let results := answers.map (·.result)
    if delay = 0 then goOn now m (next results) else (.asleep (now + delay) (next results), m)
  | .tell notice next => goOn now (m.note now (.told notice)) (next (m.noticeResult notice))
  | .clock next => goOn now m (next m.timeOfDay)
  | .fresh next => goOn now m (next m.token)
  | .wait seconds next =>
    if seconds = 0 then goOn now m next else (.asleep (now + seconds) next, m)
  | .acquire lock next =>
    if (m.locks.get? lock).isNone then goOn now (m.take lock) next else (.blocked lock next, m)
  | .release lock next => goOn now (m.handOver lock) next

/-! ## Turns -/

variable (h : Host σ J)

/-- The present time. -/
def now (m : Machine σ) : Nat :=
  (h.works.scheduler m.state).now

/-- Change the scheduler. -/
def reschedule (m : Machine σ) (f : Scheduler J → Scheduler J) : Machine σ :=
  { m with state := h.works.reschedule f m.state }

/-- When a job arrives that has begun to wait. -/
def expect (m : Machine σ) (w : Waiting J) : Machine σ :=
  if w.due ≤ m.now h then { m with ready := m.ready ++ [.arrive w.number] }
  else { m with asleep := m.asleep ++ [(w.due, .arrive w.number)] }

/-- Let a listener read who has something to read. -/
def rouse (m : Machine σ) (name : String) : Machine σ :=
  if h.hasMail name m.state then
    { m with
      listening := m.listening.filter (· != name)
      ready := m.ready ++ [.listen name] }
  else m

/-- Take notice of jobs that have begun to wait, and of what there is to read. -/
def attend (m : Machine σ) : Machine σ :=
  let s := h.works.scheduler m.state
  let m := (s.waiting.filter (m.seen ≤ ·.number)).foldl (expect h) m
  m.listening.foldl (rouse h) { m with seen := s.issued }

/-- Let a free worker look for a job. -/
def hire (m : Machine σ) : Machine σ :=
  if m.freeWorkers = 0 then m
  else { m with freeWorkers := m.freeWorkers - 1, ready := m.ready ++ [.look] }

/-- Go on with a job. The worker looks for the next one as soon as it is done. -/
def proceed (m : Machine σ) (p : Process σ Unit) : Machine σ :=
  match goOn (m.now h) m p with
  | (.finished (), m) => let m := m.attend h; { m with ready := .look :: m.ready }
  | (.asleep wake rest, m) => ({ m with asleep := m.asleep ++ [(wake, .work rest)] } : Machine σ).attend h
  | (.blocked lock rest, m) =>
    let others := (m.locks.get? lock).getD []
    ({ m with locks := m.locks.insert lock (others ++ [rest]) } : Machine σ).attend h

/-- Read everything there is to read. -/
def readAll (name : String) : (fuel : Nat) → σ → σ
  | 0, s => s
  | fuel + 1, s => if h.hasMail name s then readAll name fuel (h.hear name s) else s

/-- More turns than are ever taken without the clock moving. -/
def turnLimit : Nat := 1000000

/-- Take a turn. -/
def takeTurn (m : Machine σ) : Turn σ → Machine σ
  | .arrive number =>
    let m := m.reschedule h (·.arrive number)
    if (h.works.scheduler m.state).queued.isEmpty then m else m.hire
  | .look => match (h.works.scheduler m.state).pick? with
    | some (e, s) => (m.reschedule h fun _ => s).proceed h (h.works.attempt e)
    | none => { m with freeWorkers := m.freeWorkers + 1 }
  | .work rest => m.proceed h rest
  | .listen name =>
    let state := readAll h name turnLimit m.state
    ({ m with state, listening := m.listening ++ [name] } : Machine σ).attend h
  | .tick period =>
    let m := ({ m with state := h.tick m.state } : Machine σ).attend h
    { m with asleep := m.asleep ++ [(m.now h + period, .tick period)] }

/-- Give turns until nobody has anything to do. -/
def drainFor : (fuel : Nat) → Machine σ → Machine σ
  | 0, m => m
  | fuel + 1, m => match m.ready with
    | [] => m
    | turn :: turns => drainFor fuel (({ m with ready := turns } : Machine σ).takeTurn h turn)

/-- Give turns until nobody has anything to do. -/
def drain (m : Machine σ) : Machine σ :=
  drainFor h turnLimit (m.attend h)

/-! ## Time -/

/-- Set the clock, and wake who waits for that time. -/
def wakeAt (m : Machine σ) (time : Nat) : Machine σ :=
  let (due, later) := m.asleep.partition (·.1 ≤ time)
  let m := m.reschedule h fun s => { s with now := time }
  { m with ready := m.ready ++ due.map (·.2), asleep := later }

/-- The next time for which somebody waits. -/
def nextWake? (m : Machine σ) : Option Nat :=
  (m.asleep.map (·.1)).min?

/-- Move the clock to a time, with everything that happens before it; those who wait for that time
have not had their turn. -/
def passFor : (fuel : Nat) → (time : Nat) → Machine σ → Machine σ
  | 0, time, m => m.wakeAt h time
  | fuel + 1, time, m =>
    let m := m.drain h
    match m.nextWake? with
    | some wake => if wake < time then passFor fuel time (m.wakeAt h wake) else m.wakeAt h time
    | none => m.wakeAt h time

/-- Move the clock to a time. -/
def passUntil (m : Machine σ) (time : Nat) : Machine σ :=
  passFor h turnLimit time m

/-- Move the clock by a number of seconds. -/
def advance (m : Machine σ) (seconds : Nat) : Machine σ :=
  (m.passUntil h (m.now h + seconds)).drain h

/-- Move the clock until no job is pending. -/
def settleFor : (fuel : Nat) → Machine σ → Machine σ
  | 0, m => m
  | fuel + 1, m =>
    let m := m.drain h
    if (h.works.scheduler m.state).pending = 0 then m
    else match m.nextWake? with
      | some wake => settleFor fuel (m.wakeAt h wake)
      | none => m

/-- Move the clock until no job is pending. -/
def settle (m : Machine σ) : Machine σ :=
  settleFor h turnLimit m

/-- Run a process in front of all others; they go on while it waits. -/
def performFor : (fuel : Nat) → Machine σ → Process σ α → Option α × Machine σ
  | 0, m, _ => (none, m)
  | fuel + 1, m, p => match goOn (m.now h) m p with
    | (.finished a, m) => (some a, m.attend h)
    | (.asleep wake rest, m) => performFor fuel ((m.attend h).passUntil h wake) rest
    | (.blocked lock rest, m) =>
      let m := m.drain h
      if (m.locks.get? lock).isNone then performFor fuel m (.acquire lock rest)
      else match m.nextWake? with
        | some wake => performFor fuel (m.wakeAt h wake) (.acquire lock rest)
        | none => (none, m)

/-- Run a process in front of all others; they go on while it waits. -/
def perform (m : Machine σ) (p : Process σ α) : Option α × Machine σ :=
  m.performFor h turnLimit p

/-- Change the state at once. -/
def change (m : Machine σ) (f : σ → α × σ) : α × Machine σ :=
  let (a, state) := f m.state
  (a, ({ m with state } : Machine σ).attend h)

/-- Let somebody listen. -/
def addListener (m : Machine σ) (name : String) : Machine σ :=
  { m with ready := m.ready ++ [.listen name] }

/-- Do something now, and again and again after a number of seconds. -/
def addTicker (m : Machine σ) (period : Nat) : Machine σ :=
  if period = 0 then m else { m with ready := m.ready ++ [.tick period] }

/-- What happened since the last time, in order, and a machine that has forgotten it. -/
def takeHistory (m : Machine σ) : List (Nat × Happening) × Machine σ :=
  (m.history.reverse, { m with history := [] })

end Machine

end Rampart.Simulation
