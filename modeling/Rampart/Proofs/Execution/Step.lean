import Mathlib.Logic.Function.Basic
import Rampart.Simulation.World

/-!
# Runs of the orchestrator

The orchestrator together with everything that is on the way, and the steps that can come next, in
any order: the scheduler of `Simulation.Machine` is one way to choose among them.

* `Outside`: how the servers answer; it is a relation, so that they may fail or answer differently.
* `Advance`: one step of a process.
* `Step`: one step of the orchestrator. A change of the store and its announcement are two steps,
  and so are the arrival of a job, its start and everything that its attempt does.
* `Run n c d`: `n` steps lead from `c` to `d`.
-/

namespace Rampart.Execution

/-- Letters and digits, of which fresh names are made. -/
def IsToken (name : String) : Prop :=
  ∀ c ∈ name.toList, c.isAlphanum = true

instance (name : String) : Decidable (IsToken name) :=
  decidable_of_decidable_of_iff (p := name.toList.all Char.isAlphanum = true) List.all_eq_true

/-- How the servers answer, and what becomes of them. -/
structure Outside (ρ : Type) where
  answers : Server → Remote.Call → ρ → Except Failure String → ρ → Prop

/-- What the processes share. -/
structure Shared (ρ : Type) where
  state : Orchestrator
  held : List Lock
  outside : ρ

/-- One call after another is answered. -/
inductive Answered {ρ : Type} (o : Outside ρ) :
    List (Server × Remote.Call) → ρ → List (Except Failure String) → ρ → Prop
  | nil (x : ρ) : Answered o [] x [] x
  | cons {server : Server} {c : Remote.Call} {calls : List (Server × Remote.Call)} {x y z : ρ}
    {answer : Except Failure String} {answers : List (Except Failure String)}
    (h : o.answers server c x answer y) (hs : Answered o calls y answers z) :
    Answered o ((server, c) :: calls) x (answer :: answers) z

/-- **One step of a process.** Notices may be answered in any way, and the time of day may be any. -/
inductive Advance {ρ α : Type} (o : Outside ρ) :
    Shared ρ → Process Orchestrator α → Shared ρ → Process Orchestrator α → Prop
  | atomic (w : Shared ρ) (update : Orchestrator → Orchestrator)
    (next : Orchestrator → Process Orchestrator α) :
    Advance o w (.atomic update next) { w with state := update w.state } (next w.state)
  | call (w : Shared ρ) {server : Server} {c : Remote.Call}
    (next : Except Failure String → Process Orchestrator α) {answer : Except Failure String}
    {after : ρ} (h : o.answers server c w.outside answer after) :
    Advance o w (.call server c next) { w with outside := after } (next answer)
  | callAll (w : Shared ρ) {calls : List (Server × Remote.Call)}
    (next : List (Except Failure String) → Process Orchestrator α)
    {answers : List (Except Failure String)} {after : ρ}
    (h : Answered o calls w.outside answers after) :
    Advance o w (.callAll calls next) { w with outside := after } (next answers)
  | tell (w : Shared ρ) (notice : Notice) (next : Except Failure Unit → Process Orchestrator α)
    (answer : Except Failure Unit) : Advance o w (.tell notice next) w (next answer)
  | clock (w : Shared ρ) (next : Instant → Process Orchestrator α) (time : Instant) :
    Advance o w (.clock next) w (next time)
  | fresh (w : Shared ρ) (next : String → Process Orchestrator α) {name : String}
    (h : IsToken name) : Advance o w (.fresh next) w (next name)
  | wait (w : Shared ρ) (seconds : Nat) (next : Process Orchestrator α) :
    Advance o w (.wait seconds next) w next
  | acquire (w : Shared ρ) {lock : Lock} (next : Process Orchestrator α)
    (h : lock ∉ w.held) :
    Advance o w (.acquire lock next) { w with held := lock :: w.held } next
  | release (w : Shared ρ) (lock : Lock) (next : Process Orchestrator α) :
    Advance o w (.release lock next) { w with held := w.held.erase lock } next

namespace Advance

variable {ρ α : Type} {o : Outside ρ} {w w' : Shared ρ} {p' : Process Orchestrator α}

theorem of_atomic {update : Orchestrator → Orchestrator}
    {next : Orchestrator → Process Orchestrator α}
    (h : Advance o w (.atomic update next) w' p') :
    w' = { w with state := update w.state } ∧ p' = next w.state := by
  cases h
  exact ⟨rfl, rfl⟩

theorem of_call {server : Server} {c : Remote.Call}
    {next : Except Failure String → Process Orchestrator α}
    (h : Advance o w (.call server c next) w' p') :
    ∃ answer after, o.answers server c w.outside answer after ∧
      w' = { w with outside := after } ∧ p' = next answer := by
  cases h with
  | call _ h => exact ⟨_, _, h, rfl, rfl⟩

theorem of_fresh {next : String → Process Orchestrator α}
    (h : Advance o w (.fresh next) w' p') : ∃ name, IsToken name ∧ w' = w ∧ p' = next name := by
  cases h with
  | fresh _ h => exact ⟨_, h, rfl, rfl⟩

theorem of_acquire {lock : Lock} {next : Process Orchestrator α}
    (h : Advance o w (.acquire lock next) w' p') :
    lock ∉ w.held ∧ w' = { w with held := lock :: w.held } ∧ p' = next := by
  cases h with
  | acquire _ h => exact ⟨h, rfl, rfl⟩

theorem of_release {lock : Lock} {next : Process Orchestrator α}
    (h : Advance o w (.release lock next) w' p') :
    w' = { w with held := w.held.erase lock } ∧ p' = next := by
  cases h
  exact ⟨rfl, rfl⟩

/-- **One process after another**: the first takes a step, or it has ended and the second does. -/
theorem of_bind {β : Type} {q : Process Orchestrator β} {f : β → Process Orchestrator α}
    (h : Advance o w (q.bind f) w' p') :
    (∃ b, q = .done b ∧ Advance o w (f b) w' p') ∨
      ∃ q', Advance o w q w' q' ∧ p' = q'.bind f := by
  cases q with
  | done b => exact .inl ⟨b, rfl, h⟩
  | atomic update next =>
    cases h
    exact .inr ⟨_, .atomic w update next, rfl⟩
  | call server c next =>
    cases h with
    | call _ h => exact .inr ⟨_, .call w next h, rfl⟩
  | callAll calls next =>
    cases h with
    | callAll _ h => exact .inr ⟨_, .callAll w next h, rfl⟩
  | tell notice next =>
    cases h
    exact .inr ⟨_, .tell w notice next _, rfl⟩
  | clock next =>
    cases h
    exact .inr ⟨_, .clock w next _, rfl⟩
  | fresh next =>
    cases h with
    | fresh _ h => exact .inr ⟨_, .fresh w next h, rfl⟩
  | wait seconds next =>
    cases h
    exact .inr ⟨_, .wait w seconds next, rfl⟩
  | acquire lock next =>
    cases h with
    | acquire _ h => exact .inr ⟨_, .acquire w next h, rfl⟩
  | release lock next =>
    cases h
    exact .inr ⟨_, .release w lock next, rfl⟩

end Advance

/-- What users ask for. -/
inductive Request
  | save (uuid : String) (rule : Rule)
  | delete (uuid : String) (id : UInt64)
  | update (uuid : String) (u : FirewallUpdate)
deriving DecidableEq, Repr

/-- What a request does to the store, and the event that is to be announced. -/
def Request.perform (s : Orchestrator) : Request → Option RuleEvent × Orchestrator
  | save uuid rule =>
    let (result, counter, store) := s.store.saveRule s.settings.scenarios uuid rule
    let s := { s with store }
    let s := match counter with
      | some counter => s.tick counter
      | none => s
    (result.toOption.map (·.event), s)
  | delete uuid id => match s.store.deleteRule uuid id with
    | .ok (_, event, store) => (some event, { s with store })
    | .error _ => (none, s)
  | update uuid u => match s.store.updateFirewall uuid u with
    | .ok (_, event, store) => (some event, { s with store })
    | .error _ => (none, s)

/-- Announce an event, if there is one. -/
def announceAny (s : Orchestrator) : Option RuleEvent → Orchestrator
  | some event => (s.announce event).2
  | none => s

/-- **A request is its change of the store and then its announcement.** -/
theorem saveRule_eq (s : Orchestrator) (uuid : String) (rule : Rule) :
    (s.saveRule uuid rule).2 =
      announceAny ((Request.save uuid rule).perform s).2 ((Request.save uuid rule).perform s).1 := by
  rcases hsave : s.store.saveRule s.settings.scenarios uuid rule with ⟨result, counter, store⟩
  simp only [Orchestrator.saveRule, Request.perform, hsave]
  cases result <;> rfl

theorem deleteRule_eq (s : Orchestrator) (uuid : String) (id : UInt64) :
    (s.deleteRule uuid id).2 =
      announceAny ((Request.delete uuid id).perform s).2
        ((Request.delete uuid id).perform s).1 := by
  simp only [Orchestrator.deleteRule, Orchestrator.commit, Request.perform]
  cases s.store.deleteRule uuid id <;> rfl

theorem updateFirewall_eq (s : Orchestrator) (uuid : String) (u : FirewallUpdate) :
    (s.updateFirewall uuid u).2 =
      announceAny ((Request.update uuid u).perform s).2
        ((Request.update uuid u).perform s).1 := by
  simp only [Orchestrator.updateFirewall, Orchestrator.commit, Request.perform]
  cases s.store.updateFirewall uuid u <;> rfl

/-- The orchestrator with everything that is on the way. -/
structure Config (ρ : Type) extends Shared ρ where
  /-- Events of changes that have not been announced yet. -/
  unannounced : List RuleEvent := []
  /-- What every worker is doing; there may be as many as one likes. -/
  workers : Nat → Option (Process Orchestrator Unit) := fun _ => none

/-- **One step of the orchestrator**, where users ask for what is `allowed`. -/
inductive Step {ρ : Type} (o : Outside ρ) (allowed : Request → Prop) : Config ρ → Config ρ → Prop
  | request (c : Config ρ) {r : Request} (h : allowed r) :
    Step o allowed c
      { c with
        state := (r.perform c.state).2
        unannounced := c.unannounced ++ (r.perform c.state).1.toList }
  | announce (c : Config ρ) {before after : List RuleEvent} {event : RuleEvent}
    (h : c.unannounced = before ++ event :: after) :
    Step o allowed c
      { c with state := (c.state.announce event).2, unannounced := before ++ after }
  /-- The service reads its next event, or that events were lost. -/
  | hear (c : Config ρ) (h : Simulation.World.hasMail Simulation.deployer c.state = true) :
    Step o allowed c { c with state := Simulation.World.hearRule c.state }
  | pass (c : Config ρ) {time : Nat} (h : c.state.scheduler.now ≤ time) :
    Step o allowed c
      { c with state := { c.state with scheduler := { c.state.scheduler with now := time } } }
  /-- A job whose time has come queues up. -/
  | arrive (c : Config ρ) {w : Waiting Job} (h : w ∈ c.state.scheduler.waiting)
    (hdue : w.due ≤ c.state.scheduler.now) :
    Step o allowed c
      { c with state := { c.state with scheduler := c.state.scheduler.arrive w.number } }
  /-- A free worker takes the next job. -/
  | start (c : Config ρ) {i : Nat} {e : Entry Job} {rest : Scheduler Job}
    (hfree : c.workers i = none) (h : c.state.scheduler.pick? = some (e, rest)) :
    Step o allowed c
      { c with
        state := { c.state with scheduler := rest }
        workers := Function.update c.workers i (some (Orchestrator.works.attempt e)) }
  | advance (c : Config ρ) {i : Nat} {p p' : Process Orchestrator Unit} {w : Shared ρ}
    (hi : c.workers i = some p) (h : Advance o c.toShared p w p') :
    Step o allowed c { c with toShared := w, workers := Function.update c.workers i (some p') }
  /-- A worker has done its job. -/
  | leave (c : Config ρ) {i : Nat} (hi : c.workers i = some (.done ())) :
    Step o allowed c { c with workers := Function.update c.workers i none }

/-- Users may ask for more. -/
theorem Step.mono {ρ : Type} {o : Outside ρ} {allowed allowed' : Request → Prop}
    (hallowed : ∀ r, allowed r → allowed' r) {c d : Config ρ} (h : Step o allowed c d) :
    Step o allowed' c d := by
  cases h with
  | request hr => exact .request c (hallowed _ hr)
  | announce hevents => exact .announce c hevents
  | hear hmail => exact .hear c hmail
  | pass htime => exact .pass c htime
  | arrive hwaits hdue => exact .arrive c hwaits hdue
  | start hfree hpick => exact .start c hfree hpick
  | advance hi hadvance => exact .advance c hi hadvance
  | leave hi => exact .leave c hi

/-- So many steps lead from one configuration to another. -/
inductive Run {ρ : Type} (o : Outside ρ) (allowed : Request → Prop) :
    Nat → Config ρ → Config ρ → Prop
  | refl (c : Config ρ) : Run o allowed 0 c c
  | tail {n : Nat} {c d e : Config ρ} (h : Run o allowed n c d) (hs : Step o allowed d e) :
    Run o allowed (n + 1) c e

/-- An invariant that every step keeps holds after every run. -/
theorem invariant_of_run {ρ : Type} {o : Outside ρ} {allowed : Request → Prop}
    {inv : Nat → Config ρ → Prop}
    (hstep : ∀ n c d, inv n c → Step o allowed c d → inv (n + 1) d) {n : Nat} {c d : Config ρ}
    (hrun : Run o allowed n c d) (hc : inv 0 c) : inv n d := by
  induction hrun with
  | refl => exact hc
  | tail _ hs ih => exact hstep _ _ _ (ih hc) hs

/-- Nothing is left to be heard. -/
def Config.Heard {ρ : Type} (c : Config ρ) : Prop :=
  c.unannounced = [] ∧ Simulation.World.hasMail Simulation.deployer c.state = false

/-- No job is left. -/
def Config.Idle {ρ : Type} (c : Config ρ) : Prop :=
  c.state.scheduler.waiting = [] ∧ c.state.scheduler.queued = [] ∧ ∀ i, c.workers i = none

end Rampart.Execution
