import Rampart.Proofs.Execution.Discipline

/-!
# Processes beside others

What a process makes of the outside while others change it too. A contract says what others may do
between two steps of the process, what the process may do in return, and what is true of the outside
at all times.

* `Contract`: what a process may rely on, and what it guarantees.
* `Process.Meets k o post p x`: from the outside `x` on, `p` does what it guarantees, whatever others
  do meanwhile, and ends as `post` says.
* `Meets.rely`, `Meets.bind`, `Meets.frame`: changes by others, one process after another, and what
  is true anyhow.
* `Task.Yields`: the same for tasks, where `post` is about success.
* **`Meets.of_advance`**: what a step of such a process is.
-/

namespace Rampart

open Execution

/-- What a process may rely on, and what it guarantees. -/
structure Contract (ρ : Type) where
  /-- The states in which it is to be. -/
  state : Orchestrator → Prop
  /-- The changes of the state that it may make. -/
  change : Orchestrator → Orchestrator → Prop
  idle : ∀ s, change s s
  /-- What is true of the outside at all times. -/
  sound : ρ → Prop
  /-- What others may do to the outside. -/
  rely : ρ → ρ → Prop
  refl : ∀ x, rely x x
  trans : ∀ x y z, rely x y → rely y z → rely x z
  /-- What it may do to the outside. -/
  guarantee : ρ → ρ → Prop
  still : ∀ x, guarantee x x

namespace Contract

variable {ρ : Type}

/-- What stays true while others change the outside. -/
def Stable (k : Contract ρ) (q : ρ → Prop) : Prop :=
  ∀ x y, k.rely x y → q x → q y

/-- What stays true whoever changes the outside. -/
def Lasting (k : Contract ρ) (q : ρ → Prop) : Prop :=
  k.Stable q ∧ ∀ x y, k.sound x → k.guarantee x y → q x → q y

end Contract

namespace Process

variable {ρ α β : Type} {k : Contract ρ} {o : Outside ρ}

/-- **A process that keeps to a contract.** It changes the state and calls one server at a time. -/
def Meets (k : Contract ρ) (o : Outside ρ) (post : α → ρ → Prop) :
    Process Orchestrator α → ρ → Prop
  | .done a, x => post a x
  | .atomic update next, x =>
    ∀ s, k.state s → k.change s (update s) ∧ (next s).Meets k o post x
  | .call server c next, x =>
    ∀ y, k.rely x y → k.sound y → ∀ answer z, o.answers server c y answer z →
      k.guarantee y z ∧ k.sound z ∧ (next answer).Meets k o post z
  | _, _ => False

namespace Meets

/-- **Others do not get in the way.** -/
theorem rely {post : α → ρ → Prop} (hpost : ∀ a, k.Stable (post a))
    {p : Process Orchestrator α} {x y : ρ} (h : p.Meets k o post x) (hxy : k.rely x y) :
    p.Meets k o post y := by
  induction p with
  | done a => exact hpost a x y hxy h
  | atomic update next ih => exact fun s hs => ⟨(h s hs).1, ih s (h s hs).2⟩
  | call server c next _ => exact fun z hyz => h z (k.trans x y z hxy hyz)
  | _ => exact h

theorem mono {post post' : α → ρ → Prop} {p : Process Orchestrator α} {x : ρ}
    (h : p.Meets k o post x) (hpost : ∀ a y, post a y → post' a y) : p.Meets k o post' x := by
  induction p generalizing x with
  | done a => exact hpost a x h
  | atomic update next ih => exact fun s hs => ⟨(h s hs).1, ih s (h s hs).2⟩
  | call server c next ih =>
    intro y hxy hy answer z ha
    obtain ⟨hguarantee, hz, hnext⟩ := h y hxy hy answer z ha
    exact ⟨hguarantee, hz, ih answer hnext⟩
  | _ => exact h

theorem bind {post : β → ρ → Prop} {p : Process Orchestrator α}
    {f : α → Process Orchestrator β} {x : ρ}
    (h : p.Meets k o (fun a y => (f a).Meets k o post y) x) : (p.bind f).Meets k o post x := by
  induction p generalizing x with
  | done a => exact h
  | atomic update next ih => exact fun s hs => ⟨(h s hs).1, ih s (h s hs).2⟩
  | call server c next ih =>
    intro y hxy hy answer z ha
    obtain ⟨hguarantee, hz, hnext⟩ := h y hxy hy answer z ha
    exact ⟨hguarantee, hz, ih answer hnext⟩
  | _ => exact h.elim

/-- What lasts is still true at the end. -/
theorem frame {post : α → ρ → Prop} {q : ρ → Prop} (hq : k.Lasting q)
    {p : Process Orchestrator α} {x : ρ} (h : p.Meets k o post x) (hx : q x) :
    p.Meets k o (fun a y => post a y ∧ q y) x := by
  induction p generalizing x with
  | done a => exact ⟨h, hx⟩
  | atomic update next ih => exact fun s hs => ⟨(h s hs).1, ih s (h s hs).2 hx⟩
  | call server c next ih =>
    intro y hxy hy answer z ha
    obtain ⟨hguarantee, hz, hnext⟩ := h y hxy hy answer z ha
    exact ⟨hguarantee, hz, ih answer hnext (hq.2 y z hy hguarantee (hq.1 x y hxy hx))⟩
  | _ => exact h

/-- **What a step of such a process is**: it does what it guarantees, and the rest of it still
keeps to the contract. -/
theorem of_advance {post : α → ρ → Prop} {w w' : Shared ρ} {p p' : Process Orchestrator α}
    (h : p.Meets k o post w.outside) (hstate : k.state w.state) (hsound : k.sound w.outside)
    (hstep : Advance o w p w' p') :
    k.change w.state w'.state ∧ k.guarantee w.outside w'.outside ∧ k.sound w'.outside ∧
      p'.Meets k o post w'.outside := by
  cases hstep with
  | atomic update next =>
    obtain ⟨hchange, hnext⟩ := h _ hstate
    exact ⟨hchange, k.still _, hsound, hnext⟩
  | call next ha => exact ⟨k.idle _, h _ (k.refl _) hsound _ _ ha⟩
  | _ => exact h.elim

end Meets

end Process

/-! ## Tasks -/

namespace Task

variable {ρ α β : Type} {k : Contract ρ} {o : Outside ρ}

/-- A task that keeps to a contract; `post` is about its result, if it succeeds. -/
def Yields (k : Contract ρ) (o : Outside ρ) (post : α → ρ → Prop) (t : Task Orchestrator α)
    (x : ρ) : Prop :=
  t.process.Meets k o (fun result y => ∀ a, result = .ok a → post a y) x

namespace Yields

theorem mono {post post' : α → ρ → Prop} {t : Task Orchestrator α} {x : ρ}
    (h : t.Yields k o post x) (hpost : ∀ a y, post a y → post' a y) : t.Yields k o post' x :=
  Process.Meets.mono h fun _ y hy a ha => hpost a y (hy a ha)

theorem frame {post : α → ρ → Prop} {q : ρ → Prop} (hq : k.Lasting q) {t : Task Orchestrator α}
    {x : ρ} (h : t.Yields k o post x) (hx : q x) : t.Yields k o (fun a y => post a y ∧ q y) x :=
  (Process.Meets.frame hq h hx).mono fun _ _ hy a ha => ⟨hy.1 a ha, hy.2⟩

end Yields

theorem yields_bind {post : β → ρ → Prop} {t : Task Orchestrator α}
    {f : α → Task Orchestrator β} {x : ρ}
    (h : t.Yields k o (fun a y => (f a).Yields k o post y) x) :
    (t >>= f).Yields k o post x := by
  refine Process.Meets.bind (Process.Meets.mono h fun result y hy => ?_)
  cases result with
  | ok a => exact hy a rfl
  | error e => exact fun _ heq => by cases heq

theorem yields_pure {post : α → ρ → Prop} {a : α} {x : ρ} (h : post a x) :
    (pure a : Task Orchestrator α).Yields k o post x :=
  fun _ heq => Except.ok.inj heq ▸ h

theorem yields_ofExcept {post : α → ρ → Prop} {r : Except Failure α} {x : ρ}
    (h : ∀ a, r = .ok a → post a x) : (Task.ofExcept r : Task Orchestrator α).Yields k o post x :=
  h

theorem yields_read {post : α → ρ → Prop} {f : Orchestrator → Except Failure α} {x : ρ}
    (h : ∀ s a, k.state s → f s = .ok a → post a x) : (Task.read f).Yields k o post x :=
  fun s hs => ⟨k.idle s, fun a ha => h s a hs ha⟩

theorem yields_modify {post : Unit → ρ → Prop} {f : Orchestrator → Orchestrator} {x : ρ}
    (h : ∀ s, k.state s → k.change s (f s)) (hpost : post () x) :
    (Task.modify f).Yields k o post x :=
  fun s hs => ⟨h s hs, fun _ _ => hpost⟩

/-- What a command has to do, after whatever others do before it. -/
theorem yields_run {post : String → ρ → Prop} {server : Server} {commands : List String} {x : ρ}
    (h : ∀ y, k.rely x y → k.sound y → ∀ answer z,
      o.answers server (.run commands) y answer z →
        k.guarantee y z ∧ k.sound z ∧ ∀ output, answer = .ok output → post output z) :
    (Task.run server commands).Yields k o post x :=
  h

end Task

end Rampart
