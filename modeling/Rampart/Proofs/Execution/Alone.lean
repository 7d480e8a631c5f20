import Rampart.Engine.Client
import Rampart.Proofs.Execution.Step

/-!
# Processes that run alone

A process from its beginning to its end, with no other process between its steps, as one relation
of what is shared before, what is shared after, and what it ends with.

* `Outside.steady`: servers that answer every call in the same way whenever it comes.
* `Alone`: all steps of a process, one after another. There is a lemma for each kind of step, which
  says all that it can do, and **`alone_bind_iff`** for one process after another.
* `listed`: what an answer lists. `process_listing`: asking for a listing is one call.
-/

namespace Rampart.Execution

/-- Servers that answer every call in the same way whenever it comes. -/
def Outside.steady (answer : Server → Remote.Call → Except Failure String) : Outside Unit where
  answers server c _ given _ := given = answer server c

/-- **A process runs alone** from its beginning to its end. -/
inductive Alone {ρ α : Type} (o : Outside ρ) :
    Shared ρ → Process Orchestrator α → Shared ρ → α → Prop
  | done (w : Shared ρ) (a : α) : Alone o w (.done a) w a
  | step {w v w' : Shared ρ} {p q : Process Orchestrator α} {a : α} (h : Advance o w p v q)
    (hs : Alone o v q w' a) : Alone o w p w' a

section

variable {ρ α β : Type} {o : Outside ρ} {w w' : Shared ρ}

/-- A step of a process is one of whatever it is the first part of. -/
theorem Advance.bind {p q : Process Orchestrator α} (h : Advance o w p w' q)
    (f : α → Process Orchestrator β) : Advance o w (p.bind f) w' (q.bind f) := by
  cases h with
  | atomic update next => exact .atomic w update _
  | call next h => exact .call w _ h
  | callAll next h => exact .callAll w _ h
  | tell notice next answer => exact .tell w notice _ answer
  | clock next time => exact .clock w _ time
  | fresh next h => exact .fresh w _ h
  | wait seconds next => exact .wait w seconds _
  | acquire next h => exact .acquire w _ h
  | release lock next => exact .release w lock _

@[simp] theorem alone_done_iff {a b : α} :
    Alone o w (.done a) w' b ↔ w' = w ∧ b = a := by
  constructor
  · intro h
    cases h with
    | done => exact ⟨rfl, rfl⟩
    | step h _ => cases h
  · rintro ⟨rfl, rfl⟩
    exact .done _ _

theorem alone_atomic_iff {update : Orchestrator → Orchestrator}
    {next : Orchestrator → Process Orchestrator α} {a : α} :
    Alone o w (.atomic update next) w' a ↔
      Alone o { w with state := update w.state } (next w.state) w' a := by
  constructor
  · intro h
    cases h with
    | step h hs =>
      obtain ⟨rfl, rfl⟩ := h.of_atomic
      exact hs
  · exact .step (.atomic w update next)

/-- One step that gives a value. -/
theorem alone_modifyGet_iff {f : Orchestrator → α × Orchestrator} {a : α} :
    Alone o w (Process.modifyGet f) w' a ↔
      w' = { w with state := (f w.state).2 } ∧ a = (f w.state).1 :=
  alone_atomic_iff.trans alone_done_iff

/-- One step that changes the state. -/
theorem alone_modify_iff {f : Orchestrator → Orchestrator} {u : Unit} :
    Alone o w (Process.modify f) w' u ↔ w' = { w with state := f w.state } := by
  rw [Process.modify, alone_atomic_iff, alone_done_iff]
  exact ⟨And.left, fun h => ⟨h, rfl⟩⟩

/-- One look at the state. -/
theorem alone_read_iff {f : Orchestrator → α} {a : α} :
    Alone o w (Process.read f) w' a ↔ w' = w ∧ a = f w.state :=
  alone_atomic_iff.trans alone_done_iff

theorem alone_call_iff {server : Server} {c : Remote.Call}
    {next : Except Failure String → Process Orchestrator α} {a : α} :
    Alone o w (.call server c next) w' a ↔
      ∃ answer after, o.answers server c w.outside answer after ∧
        Alone o { w with outside := after } (next answer) w' a := by
  constructor
  · intro h
    cases h with
    | step h hs =>
      obtain ⟨answer, after, hanswer, rfl, rfl⟩ := h.of_call
      exact ⟨answer, after, hanswer, hs⟩
  · rintro ⟨answer, after, hanswer, hs⟩
    exact .step (.call w next hanswer) hs

theorem alone_clock_iff {next : Instant → Process Orchestrator α} {a : α} :
    Alone o w (.clock next) w' a ↔ ∃ time, Alone o w (next time) w' a := by
  constructor
  · intro h
    cases h with
    | step h hs =>
      cases h
      exact ⟨_, hs⟩
  · rintro ⟨time, hs⟩
    exact .step (.clock w next time) hs

/-- **One process after another.** -/
theorem alone_bind_iff {p : Process Orchestrator α} {f : α → Process Orchestrator β} {b : β} :
    Alone o w (p.bind f) w' b ↔ ∃ v a, Alone o w p v a ∧ Alone o v (f a) w' b := by
  constructor
  · intro h
    generalize hq : p.bind f = q at h
    induction h generalizing p with
    | done w b =>
      cases p with
      | done a =>
        have hf : f a = .done b := hq
        exact ⟨w, a, .done w a, hf ▸ .done w b⟩
      | _ => cases hq
    | step hstep hs ih =>
      subst hq
      rcases hstep.of_bind with ⟨a, rfl, hnext⟩ | ⟨p', hnext, rfl⟩
      · exact ⟨_, a, .done _ a, .step hnext hs⟩
      · obtain ⟨v, a, hfirst, hsecond⟩ := ih rfl
        exact ⟨v, a, .step hnext hfirst, hsecond⟩
  · rintro ⟨v, a, hfirst, hsecond⟩
    induction hfirst with
    | done => exact hsecond
    | step hstep _ ih => exact .step (hstep.bind f) (ih hsecond)

end

/-! ## Listings -/

/-- What an answer lists, by what reads it. -/
def listed {α : Type} (read : String → Option α) : Except Failure String → Except Failure α
  | .ok output => match read output with
    | some a => .ok a
    | none => .error (.serialization "the output is no listing")
  | .error failure => .error failure

/-- Asking for a listing is one call. -/
theorem process_listing {α : Type} (read : String → Option α) (server : Server)
    (command : String) :
    (do Engine.Client.parsed (read (← Task.run server [command])) : Task Orchestrator α).process =
      .call server (.run [command]) fun answer => .done (listed read answer) := by
  refine congrArg (Process.call server _) (funext fun answer => ?_)
  cases answer with
  | error failure => rfl
  | ok output =>
    show Task.process (Engine.Client.parsed (read output)) = _
    simp only [Engine.Client.parsed, listed]
    cases read output <;> rfl

end Rampart.Execution
