import Rampart.Failure
import Rampart.Remote

/-!
# Processes

What a job does, as a value: steps on a state that it shares with others, and effects outside of
it. A step is atomic; between two steps others may take theirs.

* `Process σ α` works on a shared state of type `σ` and ends with a value of type `α`.
* `Task σ α` is a process that may fail: what follows a failure is skipped.
* Effects are calls to servers, notices to the outside, the time of day, fresh names, waiting, and
  locks that one process holds at a time.
-/

namespace Rampart

/-- What is told to the outside. -/
inductive Notice
  /-- Deploy an application again. -/
  | redeploy (application : UInt64) (rebuild : Bool)
  /-- A component could not be installed. -/
  | failed (server : Server) (component : Component) (failure : Failure)
deriving DecidableEq, Repr

/-- A lock is for one application on one server. -/
structure Lock where
  uuid : String
  server : UInt64
deriving DecidableEq, Repr

/-- A process on a shared state. -/
inductive Process (σ α : Type)
  /-- The end. -/
  | done (a : α)
  /-- Change the state; what follows depends on the state before. -/
  | atomic (update : σ → σ) (next : σ → Process σ α)
  /-- Call a server. -/
  | call (server : Server) (c : Remote.Call) (next : Except Failure String → Process σ α)
  /-- Call servers side by side; the answers are in the order of the calls. -/
  | callAll (calls : List (Server × Remote.Call))
      (next : List (Except Failure String) → Process σ α)
  /-- Tell the outside. -/
  | tell (notice : Notice) (next : Except Failure Unit → Process σ α)
  /-- Ask for the time of day. -/
  | clock (next : Instant → Process σ α)
  /-- Ask for a name that nobody else has. -/
  | fresh (next : String → Process σ α)
  /-- Wait for a number of seconds. -/
  | wait (seconds : Nat) (next : Process σ α)
  /-- Wait for a lock, and hold it. -/
  | acquire (lock : Lock) (next : Process σ α)
  /-- Give a lock back. -/
  | release (lock : Lock) (next : Process σ α)

namespace Process

variable {σ α β : Type}

/-- One process after another. -/
def bind : Process σ α → (α → Process σ β) → Process σ β
  | done a, f => f a
  | atomic update next, f => atomic update fun s => (next s).bind f
  | call server c next, f => call server c fun answer => (next answer).bind f
  | callAll calls next, f => callAll calls fun answers => (next answers).bind f
  | tell notice next, f => tell notice fun answer => (next answer).bind f
  | clock next, f => clock fun time => (next time).bind f
  | fresh next, f => fresh fun name => (next name).bind f
  | wait seconds next, f => wait seconds (next.bind f)
  | acquire lock next, f => acquire lock (next.bind f)
  | release lock next, f => release lock (next.bind f)

instance : Monad (Process σ) where
  pure := done
  bind := bind

@[simp] theorem pure_bind (a : α) (f : α → Process σ β) : (done a).bind f = f a := rfl

@[simp] theorem bind_pure (p : Process σ α) : p.bind done = p := by
  induction p with
  | done => rfl
  | atomic _ _ ih => simp [bind, ih]
  | call _ _ _ ih => simp [bind, ih]
  | callAll _ _ ih => simp [bind, ih]
  | tell _ _ ih => simp [bind, ih]
  | clock _ ih => simp [bind, ih]
  | fresh _ ih => simp [bind, ih]
  | wait _ _ ih => simp [bind, ih]
  | acquire _ _ ih => simp [bind, ih]
  | release _ _ ih => simp [bind, ih]

theorem bind_assoc {γ : Type} (p : Process σ α) (f : α → Process σ β) (g : β → Process σ γ) :
    (p.bind f).bind g = p.bind fun a => (f a).bind g := by
  induction p with
  | done => rfl
  | atomic _ _ ih => simp [bind, ih]
  | call _ _ _ ih => simp [bind, ih]
  | callAll _ _ ih => simp [bind, ih]
  | tell _ _ ih => simp [bind, ih]
  | clock _ ih => simp [bind, ih]
  | fresh _ ih => simp [bind, ih]
  | wait _ _ ih => simp [bind, ih]
  | acquire _ _ ih => simp [bind, ih]
  | release _ _ ih => simp [bind, ih]

/-- One step that gives a value and changes the state. -/
def modifyGet (f : σ → α × σ) : Process σ α :=
  atomic (fun s => (f s).2) fun s => done (f s).1

/-- One step that changes the state. -/
def modify (f : σ → σ) : Process σ Unit :=
  atomic f fun _ => done ()

/-- One step that looks at the state. -/
def read (f : σ → α) : Process σ α :=
  atomic id fun s => done (f s)

end Process

/-- A process that may fail. -/
abbrev Task (σ : Type) := ExceptT Failure (Process σ)

namespace Task

variable {σ α : Type}

/-- A task made of a process that tells how it ended. -/
def ofProcess (p : Process σ (Except Failure α)) : Task σ α :=
  ExceptT.mk p

/-- A task that is a result. -/
def ofExcept (r : Except Failure α) : Task σ α :=
  ExceptT.mk (.done r)

/-- One step that may fail. -/
def modifyGet (f : σ → Except Failure α × σ) : Task σ α :=
  ExceptT.mk (Process.modifyGet f)

/-- One step that looks at the state, and may fail. -/
def read (f : σ → Except Failure α) : Task σ α :=
  ExceptT.mk (Process.read f)

/-- One step that changes the state. -/
def modify (f : σ → σ) : Task σ Unit :=
  ExceptT.mk (Process.atomic f fun _ => .done (.ok ()))

/-- Run commands on a server. -/
def run (server : Server) (commands : List String) : Task σ String :=
  ExceptT.mk (.call server (.run commands) .done)

/-- Replace a file on a server. -/
def upload (server : Server) (path contents : String) : Task σ Unit :=
  ExceptT.mk (.call server (.upload path contents) fun answer => .done (answer.map fun _ => ()))

/-- Call servers side by side; every answer is given, also a failure. -/
def callAll (calls : List (Server × Remote.Call)) : Task σ (List (Except Failure String)) :=
  ExceptT.mk (.callAll calls fun answers => .done (.ok answers))

/-- Tell the outside. -/
def tell (notice : Notice) : Task σ Unit :=
  ExceptT.mk (.tell notice .done)

/-- The time of day. -/
def clock : Task σ Instant :=
  ExceptT.mk (.clock fun time => .done (.ok time))

/-- A name that nobody else has. -/
def fresh : Task σ String :=
  ExceptT.mk (.fresh fun name => .done (.ok name))

/-- Do a task, and go on when it fails. -/
def attempt (t : Task σ α) : Task σ (Except Failure α) :=
  ExceptT.mk ((ExceptT.run t).bind fun result => .done (.ok result))

/-- The process of a task, which tells how it ended. -/
def process (t : Task σ α) : Process σ (Except Failure α) :=
  ExceptT.run t

end Task

end Rampart
