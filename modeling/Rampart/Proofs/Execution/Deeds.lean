import Rampart.Process

/-!
# What processes do

All that a process does from its beginning to its end, step by step. Between two steps others may
do anything to the state, and from outside any answer may come.

* `Deed`: one step. `Process.Does`: the deeds of a process, and what it ends with.
* `does_done_iff`, `does_atomic_iff` and the like: the end, and each kind of step.
* `Does.bind`, **`Does.of_bind`**: one process after another.
-/

namespace Rampart

/-- One step of a process. -/
inductive Deed (σ : Type)
  /-- A step on the state: what it was, and what it is then. -/
  | step (before after : σ)
  | call (server : Server) (c : Remote.Call)
  | callAll (calls : List (Server × Remote.Call))
  | tell (notice : Notice)
  | clock
  | fresh
  | wait (seconds : Nat)
  | acquire (lock : Lock)
  | release (lock : Lock)

namespace Process

variable {σ α β : Type}

/-- **What a process does until it ends.** -/
inductive Does : Process σ α → List (Deed σ) → α → Prop
  | done (a : α) : Does (.done a) [] a
  | atomic {update : σ → σ} {next : σ → Process σ α} {deeds : List (Deed σ)} {a : α} (s : σ)
    (h : Does (next s) deeds a) : Does (.atomic update next) (.step s (update s) :: deeds) a
  | call {server : Server} {c : Remote.Call} {next : Except Failure String → Process σ α}
    {deeds : List (Deed σ)} {a : α} (answer : Except Failure String)
    (h : Does (next answer) deeds a) : Does (.call server c next) (.call server c :: deeds) a
  | callAll {calls : List (Server × Remote.Call)}
    {next : List (Except Failure String) → Process σ α} {deeds : List (Deed σ)} {a : α}
    (answers : List (Except Failure String)) (h : Does (next answers) deeds a) :
    Does (.callAll calls next) (.callAll calls :: deeds) a
  | tell {notice : Notice} {next : Except Failure Unit → Process σ α} {deeds : List (Deed σ)}
    {a : α} (answer : Except Failure Unit) (h : Does (next answer) deeds a) :
    Does (.tell notice next) (.tell notice :: deeds) a
  | clock {next : Instant → Process σ α} {deeds : List (Deed σ)} {a : α} (time : Instant)
    (h : Does (next time) deeds a) : Does (.clock next) (.clock :: deeds) a
  | fresh {next : String → Process σ α} {deeds : List (Deed σ)} {a : α} (name : String)
    (h : Does (next name) deeds a) : Does (.fresh next) (.fresh :: deeds) a
  | wait {seconds : Nat} {next : Process σ α} {deeds : List (Deed σ)} {a : α}
    (h : Does next deeds a) : Does (.wait seconds next) (.wait seconds :: deeds) a
  | acquire {lock : Lock} {next : Process σ α} {deeds : List (Deed σ)} {a : α}
    (h : Does next deeds a) : Does (.acquire lock next) (.acquire lock :: deeds) a
  | release {lock : Lock} {next : Process σ α} {deeds : List (Deed σ)} {a : α}
    (h : Does next deeds a) : Does (.release lock next) (.release lock :: deeds) a

theorem does_done_iff {a b : α} {deeds : List (Deed σ)} :
    (Process.done a : Process σ α).Does deeds b ↔ deeds = [] ∧ b = a := by
  constructor
  · intro h
    cases h
    exact ⟨rfl, rfl⟩
  · rintro ⟨rfl, rfl⟩
    exact .done b

theorem does_atomic_iff {update : σ → σ} {next : σ → Process σ α} {deeds : List (Deed σ)}
    {a : α} :
    (Process.atomic update next).Does deeds a ↔
      ∃ s rest, deeds = .step s (update s) :: rest ∧ (next s).Does rest a := by
  constructor
  · intro h
    cases h with
    | atomic s h => exact ⟨s, _, rfl, h⟩
  · rintro ⟨s, rest, rfl, h⟩
    exact .atomic s h

/-- A step on a state that is known. -/
theorem does_atomic_step_iff {update : σ → σ} {next : σ → Process σ α} {rest : List (Deed σ)}
    {a : α} {s s' : σ} :
    (Process.atomic update next).Does (.step s s' :: rest) a ↔
      s' = update s ∧ (next s).Does rest a := by
  rw [does_atomic_iff]
  constructor
  · rintro ⟨_, _, heq, h⟩
    cases heq
    exact ⟨rfl, h⟩
  · rintro ⟨rfl, h⟩
    exact ⟨s, rest, rfl, h⟩

theorem does_call_iff {server : Server} {c : Remote.Call}
    {next : Except Failure String → Process σ α} {deeds : List (Deed σ)} {a : α} :
    (Process.call server c next).Does deeds a ↔
      ∃ answer rest, deeds = .call server c :: rest ∧ (next answer).Does rest a := by
  constructor
  · intro h
    cases h with
    | call answer h => exact ⟨answer, _, rfl, h⟩
  · rintro ⟨answer, rest, rfl, h⟩
    exact .call answer h

theorem does_tell_iff {notice : Notice} {next : Except Failure Unit → Process σ α}
    {deeds : List (Deed σ)} {a : α} :
    (Process.tell notice next).Does deeds a ↔
      ∃ answer rest, deeds = .tell notice :: rest ∧ (next answer).Does rest a := by
  constructor
  · intro h
    cases h with
    | tell answer h => exact ⟨answer, _, rfl, h⟩
  · rintro ⟨answer, rest, rfl, h⟩
    exact .tell answer h

theorem does_fresh_iff {next : String → Process σ α} {deeds : List (Deed σ)} {a : α} :
    (Process.fresh next).Does deeds a ↔
      ∃ name rest, deeds = .fresh :: rest ∧ (next name).Does rest a := by
  constructor
  · intro h
    cases h with
    | fresh name h => exact ⟨name, _, rfl, h⟩
  · rintro ⟨name, rest, rfl, h⟩
    exact .fresh name h

theorem does_acquire_iff {lock : Lock} {next : Process σ α} {deeds : List (Deed σ)} {a : α} :
    (Process.acquire lock next).Does deeds a ↔
      ∃ rest, deeds = .acquire lock :: rest ∧ next.Does rest a := by
  constructor
  · intro h
    cases h with
    | acquire h => exact ⟨_, rfl, h⟩
  · rintro ⟨rest, rfl, h⟩
    exact .acquire h

theorem does_release_iff {lock : Lock} {next : Process σ α} {deeds : List (Deed σ)} {a : α} :
    (Process.release lock next).Does deeds a ↔
      ∃ rest, deeds = .release lock :: rest ∧ next.Does rest a := by
  constructor
  · intro h
    cases h with
    | release h => exact ⟨_, rfl, h⟩
  · rintro ⟨rest, rfl, h⟩
    exact .release h

theorem Does.bind {p : Process σ α} {f : α → Process σ β} {first second : List (Deed σ)} {a : α}
    {b : β} (h : p.Does first a) (hsecond : (f a).Does second b) :
    (p.bind f).Does (first ++ second) b := by
  induction h with
  | done => exact hsecond
  | atomic s _ ih => exact .atomic s (ih hsecond)
  | call answer _ ih => exact .call answer (ih hsecond)
  | callAll answers _ ih => exact .callAll answers (ih hsecond)
  | tell answer _ ih => exact .tell answer (ih hsecond)
  | clock time _ ih => exact .clock time (ih hsecond)
  | fresh name _ ih => exact .fresh name (ih hsecond)
  | wait _ ih => exact .wait (ih hsecond)
  | acquire _ ih => exact .acquire (ih hsecond)
  | release _ ih => exact .release (ih hsecond)

/-- **One process after another.** -/
theorem Does.of_bind {p : Process σ α} {f : α → Process σ β} {deeds : List (Deed σ)} {b : β}
    (h : (p.bind f).Does deeds b) :
    ∃ a first second, deeds = first ++ second ∧ p.Does first a ∧ (f a).Does second b := by
  induction p generalizing deeds with
  | done a => exact ⟨a, [], deeds, rfl, .done a, h⟩
  | atomic update next ih =>
    cases h with
    | atomic s h =>
      obtain ⟨a, first, second, rfl, hfirst, hsecond⟩ := ih s h
      exact ⟨a, _ :: first, second, rfl, .atomic s hfirst, hsecond⟩
  | call server c next ih =>
    cases h with
    | call answer h =>
      obtain ⟨a, first, second, rfl, hfirst, hsecond⟩ := ih answer h
      exact ⟨a, _ :: first, second, rfl, .call answer hfirst, hsecond⟩
  | callAll calls next ih =>
    cases h with
    | callAll answers h =>
      obtain ⟨a, first, second, rfl, hfirst, hsecond⟩ := ih answers h
      exact ⟨a, _ :: first, second, rfl, .callAll answers hfirst, hsecond⟩
  | tell notice next ih =>
    cases h with
    | tell answer h =>
      obtain ⟨a, first, second, rfl, hfirst, hsecond⟩ := ih answer h
      exact ⟨a, _ :: first, second, rfl, .tell answer hfirst, hsecond⟩
  | clock next ih =>
    cases h with
    | clock time h =>
      obtain ⟨a, first, second, rfl, hfirst, hsecond⟩ := ih time h
      exact ⟨a, _ :: first, second, rfl, .clock time hfirst, hsecond⟩
  | fresh next ih =>
    cases h with
    | fresh name h =>
      obtain ⟨a, first, second, rfl, hfirst, hsecond⟩ := ih name h
      exact ⟨a, _ :: first, second, rfl, .fresh name hfirst, hsecond⟩
  | wait seconds next ih =>
    cases h with
    | wait h =>
      obtain ⟨a, first, second, rfl, hfirst, hsecond⟩ := ih h
      exact ⟨a, _ :: first, second, rfl, .wait hfirst, hsecond⟩
  | acquire lock next ih =>
    cases h with
    | acquire h =>
      obtain ⟨a, first, second, rfl, hfirst, hsecond⟩ := ih h
      exact ⟨a, _ :: first, second, rfl, .acquire hfirst, hsecond⟩
  | release lock next ih =>
    cases h with
    | release h =>
      obtain ⟨a, first, second, rfl, hfirst, hsecond⟩ := ih h
      exact ⟨a, _ :: first, second, rfl, .release hfirst, hsecond⟩

end Process

end Rampart
