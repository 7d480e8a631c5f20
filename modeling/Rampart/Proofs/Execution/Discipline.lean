import Rampart.Proofs.Execution.Step

/-!
# Processes that keep to a discipline

What a process may do can be said once and for all, for every step that it may take and every
answer that it may get. A process that keeps to a discipline still does after any of its steps.

* `Discipline`: the changes, calls and locks that are allowed.
* `Process.Obeys d post p`: `p` keeps to `d`, and what it ends with is as `post` says.
* `Obeys.bind`, `obeys_bind`: one process, or task, after another.
* **`Obeys.of_advance`**: what a step of an obedient process is.
-/

namespace Rampart

open Execution

/-- What processes may do. -/
structure Discipline where
  /-- The states in which they are to be. -/
  state : Orchestrator → Prop
  /-- The changes that they may make. -/
  change : Orchestrator → Orchestrator → Prop
  /-- Doing nothing is allowed. -/
  idle : ∀ s, change s s
  call : Server → Remote.Call → Prop
  /-- The answers that they may get. -/
  answer : Server → Remote.Call → Except Failure String → Prop
  lock : Lock → Prop

namespace Process

variable {α β : Type}

/-- A process that keeps to a discipline and ends as it should. -/
def Obeys (d : Discipline) (post : α → Prop) : Process Orchestrator α → Prop
  | .done a => post a
  | .atomic update next => ∀ s, d.state s → d.change s (update s) ∧ (next s).Obeys d post
  | .call server c next => d.call server c ∧
    ∀ answer, d.answer server c answer → (next answer).Obeys d post
  | .callAll calls next => (∀ entry ∈ calls, d.call entry.1 entry.2) ∧
    ∀ answers, (next answers).Obeys d post
  | .tell _ next => ∀ answer, (next answer).Obeys d post
  | .clock next => ∀ time, (next time).Obeys d post
  | .fresh next => ∀ name, IsToken name → (next name).Obeys d post
  | .wait _ next => next.Obeys d post
  | .acquire lock next => d.lock lock ∧ next.Obeys d post
  | .release lock next => d.lock lock ∧ next.Obeys d post

theorem Obeys.bind {d : Discipline} {post : β → Prop} {f : α → Process Orchestrator β}
    {p : Process Orchestrator α} (h : p.Obeys d fun a => (f a).Obeys d post) :
    (p.bind f).Obeys d post := by
  induction p with
  | done a => exact h
  | atomic update next ih => exact fun s hs => ⟨(h s hs).1, ih s (h s hs).2⟩
  | call server c next ih => exact ⟨h.1, fun answer ha => ih answer (h.2 answer ha)⟩
  | callAll calls next ih => exact ⟨h.1, fun answers => ih answers (h.2 answers)⟩
  | tell notice next ih => exact fun answer => ih answer (h answer)
  | clock next ih => exact fun time => ih time (h time)
  | fresh next ih => exact fun name hname => ih name (h name hname)
  | wait seconds next ih => exact ih h
  | acquire lock next ih => exact ⟨h.1, ih h.2⟩
  | release lock next ih => exact ⟨h.1, ih h.2⟩

theorem Obeys.mono {d : Discipline} {post post' : α → Prop} {p : Process Orchestrator α}
    (h : p.Obeys d post) (hpost : ∀ a, post a → post' a) : p.Obeys d post' := by
  induction p with
  | done a => exact hpost a h
  | atomic update next ih => exact fun s hs => ⟨(h s hs).1, ih s (h s hs).2⟩
  | call server c next ih => exact ⟨h.1, fun answer ha => ih answer (h.2 answer ha)⟩
  | callAll calls next ih => exact ⟨h.1, fun answers => ih answers (h.2 answers)⟩
  | tell notice next ih => exact fun answer => ih answer (h answer)
  | clock next ih => exact fun time => ih time (h time)
  | fresh next ih => exact fun name hname => ih name (h name hname)
  | wait seconds next ih => exact ih h
  | acquire lock next ih => exact ⟨h.1, ih h.2⟩
  | release lock next ih => exact ⟨h.1, ih h.2⟩

end Process

/-! ## Tasks -/

namespace Task

variable {α β : Type} {d : Discipline}

/-- A task that keeps to a discipline; `post` is about how it ends. -/
def Obeys (d : Discipline) (post : Except Failure α → Prop) (t : Task Orchestrator α) : Prop :=
  t.process.Obeys d post

/-- How what follows a task has to be. -/
def Then (d : Discipline) (post : Except Failure β → Prop) (f : α → Task Orchestrator β) :
    Except Failure α → Prop
  | .ok a => (f a).Obeys d post
  | .error e => post (.error e)

theorem obeys_bind {post : Except Failure β → Prop} {t : Task Orchestrator α}
    {f : α → Task Orchestrator β} (h : t.Obeys d (Then d post f)) : (t >>= f).Obeys d post := by
  refine Process.Obeys.bind (h.mono fun result hresult => ?_)
  cases result with
  | ok a => exact hresult
  | error e => exact hresult

theorem obeys_pure {post : Except Failure α → Prop} {a : α} (h : post (.ok a)) :
    (pure a : Task Orchestrator α).Obeys d post := h

theorem obeys_read {post : Except Failure α → Prop} {f : Orchestrator → Except Failure α}
    (h : ∀ s, d.state s → post (f s)) : (Task.read f).Obeys d post :=
  fun s hs => ⟨d.idle s, h s hs⟩

theorem obeys_modifyGet {post : Except Failure α → Prop}
    {f : Orchestrator → Except Failure α × Orchestrator}
    (h : ∀ s, d.state s → d.change s (f s).2 ∧ post (f s).1) : (Task.modifyGet f).Obeys d post :=
  h

theorem obeys_modify {post : Except Failure Unit → Prop} {f : Orchestrator → Orchestrator}
    (h : ∀ s, d.state s → d.change s (f s)) (hpost : post (.ok ())) :
    (Task.modify f).Obeys d post :=
  fun s hs => ⟨h s hs, hpost⟩

theorem obeys_run {post : Except Failure String → Prop} {server : Server}
    {commands : List String} (h : d.call server (.run commands))
    (hpost : ∀ answer, d.answer server (.run commands) answer → post answer) :
    (Task.run server commands).Obeys d post :=
  ⟨h, hpost⟩

theorem obeys_upload {post : Except Failure Unit → Prop} {server : Server}
    {path contents : String} (h : d.call server (.upload path contents))
    (hpost : ∀ answer, d.answer server (.upload path contents) answer →
      post (answer.map fun _ => ())) :
    (Task.upload server path contents).Obeys d post :=
  ⟨h, hpost⟩

theorem obeys_tell {post : Except Failure Unit → Prop} {notice : Notice}
    (h : ∀ answer, post answer) : (Task.tell notice).Obeys d post := h

theorem obeys_clock {post : Except Failure Instant → Prop} (h : ∀ time, post (.ok time)) :
    Task.clock.Obeys d post := h

theorem obeys_fresh {post : Except Failure String → Prop}
    (h : ∀ name, IsToken name → post (.ok name)) : Task.fresh.Obeys d post := h

theorem obeys_attempt {post : Except Failure (Except Failure α) → Prop}
    {t : Task Orchestrator α} (h : t.Obeys d fun result => post (.ok result)) :
    (Task.attempt t).Obeys d post :=
  Process.Obeys.bind h

theorem Obeys.mono {post post' : Except Failure α → Prop} {t : Task Orchestrator α}
    (h : t.Obeys d post) (hpost : ∀ r, post r → post' r) : t.Obeys d post' :=
  Process.Obeys.mono h hpost

end Task

/-! ## Steps of obedient processes -/

namespace Execution

variable {ρ : Type} {o : Outside ρ} {d : Discipline}

/-- Calls that are allowed lead from one outside to another. -/
inductive Touched (o : Outside ρ) (d : Discipline) : ρ → ρ → Prop
  | refl (x : ρ) : Touched o d x x
  | head {x y z : ρ} {server : Server} {c : Remote.Call} {answer : Except Failure String}
    (hc : d.call server c) (h : o.answers server c x answer y) (hs : Touched o d y z) :
    Touched o d x z

theorem touched_of_answered {calls : List (Server × Remote.Call)} {x y : ρ}
    {answers : List (Except Failure String)} (hcalls : ∀ entry ∈ calls, d.call entry.1 entry.2)
    (h : Answered o calls x answers y) : Touched o d x y := by
  induction h with
  | nil x => exact .refl x
  | @cons server c calls x y z answer answers h _ ih =>
    exact .head (hcalls (server, c) List.mem_cons_self) h
      (ih fun entry hentry => hcalls entry (List.mem_cons_of_mem _ hentry))

/-- A step that keeps to a discipline. -/
structure Disciplined (o : Outside ρ) (d : Discipline) (w w' : Shared ρ) : Prop where
  state : d.change w.state w'.state
  outside : Touched o d w.outside w'.outside
  held : ∀ lock, ¬ d.lock lock → (lock ∈ w'.held ↔ lock ∈ w.held)

/-- **What a step of an obedient process is**, where answers are as expected: it keeps to the
discipline, and what is left of the process still does. -/
theorem Obeys.of_advance
    (hanswer : ∀ server c x answer y, o.answers server c x answer y → d.answer server c answer)
    {w w' : Shared ρ} {p p' : Process Orchestrator Unit} {post : Unit → Prop}
    (h : p.Obeys d post) (hs : d.state w.state) (hstep : Advance o w p w' p') :
    Disciplined o d w w' ∧ p'.Obeys d post := by
  have hidle : Disciplined o d w w := ⟨d.idle _, .refl _, fun _ _ => Iff.rfl⟩
  cases hstep with
  | atomic update next =>
    exact ⟨⟨(h _ hs).1, .refl _, fun _ _ => Iff.rfl⟩, (h _ hs).2⟩
  | call next ha =>
    exact ⟨⟨d.idle _, .head h.1 ha (.refl _), fun _ _ => Iff.rfl⟩,
      h.2 _ (hanswer _ _ _ _ _ ha)⟩
  | callAll next ha =>
    exact ⟨⟨d.idle _, touched_of_answered h.1 ha, fun _ _ => Iff.rfl⟩, h.2 _⟩
  | tell notice next answer => exact ⟨hidle, h answer⟩
  | clock next time => exact ⟨hidle, h time⟩
  | fresh next hname => exact ⟨hidle, h _ hname⟩
  | wait seconds next => exact ⟨hidle, h⟩
  | @acquire lock next hfree =>
    refine ⟨⟨d.idle _, .refl _, fun other hother => ?_⟩, h.2⟩
    have hne : other ≠ lock := fun heq => hother (heq ▸ h.1)
    simp [hne]
  | release lock next =>
    refine ⟨⟨d.idle _, .refl _, fun other hother => ?_⟩, h.2⟩
    have hne : other ≠ lock := fun heq => hother (heq ▸ h.1)
    exact List.mem_erase_of_ne hne

end Execution

end Rampart
