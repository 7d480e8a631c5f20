import Rampart.Proofs.Execution.Step

/-!
# Runs that are chosen step by step

A run can be computed when it is said which step comes next and what the servers answer.

* `Oracle`: what becomes of the servers when they give an answer, if they may give it.
* `follow`: steps that are chosen one after another, as far as they are possible.
* **`run_of_follow`**: such steps are a run.
-/

namespace Rampart.Execution

variable {ρ : Type}

/-- What becomes of the servers when they give an answer, if they may give it. -/
abbrev Oracle (ρ : Type) := Server → Remote.Call → Except Failure String → ρ → Option ρ

/-- Servers that answer as an oracle allows. -/
def Oracle.outside (oracle : Oracle ρ) : Outside ρ where
  answers server c x answer y := oracle server c answer x = some y

/-- Which step is taken. -/
inductive Choice
  | request (r : Request)
  /-- The first event that has not been announced. -/
  | announce
  | hear
  | pass (time : Nat)
  /-- The first job that waits. -/
  | arrive
  /-- A free worker begins a job. -/
  | start (i : Nat)
  /-- A worker goes on; if it calls a server it gets the answer. -/
  | advance (i : Nat) (answer : Except Failure String)
  | leave (i : Nat)

namespace Choice

/-- What is asked for. -/
def request? : Choice → Option Request
  | request r => some r
  | _ => none

/-- The worker whose step is taken. -/
def worker? : Choice → Option Nat
  | start i | advance i _ | leave i => some i
  | _ => none

end Choice

/-- One step of a process, with the answer to a call. Several calls at once are not followed. -/
def advance? (oracle : Oracle ρ) (answer : Except Failure String) (w : Shared ρ) :
    Process Orchestrator Unit → Option (Shared ρ × Process Orchestrator Unit)
  | .done _ | .callAll _ _ => none
  | .atomic update next => some ({ w with state := update w.state }, next w.state)
  | .call server c next =>
    (oracle server c answer w.outside).map fun outside => ({ w with outside }, next answer)
  | .tell _ next => some (w, next (.ok ()))
  | .clock next => some (w, next default)
  | .fresh next => some (w, next "0")
  | .wait _ next => some (w, next)
  | .acquire lock next =>
    if lock ∈ w.held then none else some ({ w with held := lock :: w.held }, next)
  | .release lock next => some ({ w with held := w.held.erase lock }, next)

/-- The step that is chosen, if it is possible. -/
def Choice.perform (oracle : Oracle ρ) (c : Config ρ) : Choice → Option (Config ρ)
  | request r => some { c with
      state := (r.perform c.state).2
      unannounced := c.unannounced ++ (r.perform c.state).1.toList }
  | announce => match c.unannounced with
    | [] => none
    | event :: rest => some { c with state := (c.state.announce event).2, unannounced := rest }
  | hear =>
    if Simulation.World.hasMail Simulation.deployer c.state = true then
      some { c with state := Simulation.World.hearRule c.state }
    else none
  | pass time =>
    if c.state.scheduler.now ≤ time then
      some { c with state := { c.state with scheduler := { c.state.scheduler with now := time } } }
    else none
  | arrive => match c.state.scheduler.waiting with
    | [] => none
    | w :: _ =>
      if w.due ≤ c.state.scheduler.now then
        some { c with state := { c.state with scheduler := c.state.scheduler.arrive w.number } }
      else none
  | start i => match c.workers i, c.state.scheduler.pick? with
    | none, some (e, rest) => some { c with
        state := { c.state with scheduler := rest }
        workers := Function.update c.workers i (some (Orchestrator.works.attempt e)) }
    | _, _ => none
  | advance i answer => match c.workers i with
    | none => none
    | some p => (advance? oracle answer c.toShared p).map fun (w, p') =>
        { c with toShared := w, workers := Function.update c.workers i (some p') }
  | leave i => match c.workers i with
    | some (.done ()) => some { c with workers := Function.update c.workers i none }
    | _ => none

/-- One step after another. -/
def follow (oracle : Oracle ρ) : List Choice → Config ρ → Option (Config ρ)
  | [], c => some c
  | choice :: choices, c => (choice.perform oracle c).bind (follow oracle choices)

/-! ## Steps that are possible -/

variable {oracle : Oracle ρ} {allowed : Request → Prop}

theorem advance_of_advance? {answer : Except Failure String} {w w' : Shared ρ}
    {p p' : Process Orchestrator Unit} (h : advance? oracle answer w p = some (w', p')) :
    Advance oracle.outside w p w' p' := by
  cases p with
  | done a => cases h
  | callAll calls next => cases h
  | atomic update next =>
    cases h
    exact .atomic w update _
  | call server c next =>
    obtain ⟨after, hafter, heq⟩ := Option.map_eq_some_iff.mp h
    cases heq
    exact .call w _ hafter
  | tell notice next =>
    cases h
    exact .tell w notice _ _
  | clock next =>
    cases h
    exact .clock w _ _
  | fresh next =>
    cases h
    exact .fresh w _ (by decide)
  | wait seconds next =>
    cases h
    exact .wait w seconds _
  | acquire lock next =>
    rw [advance?] at h
    split at h
    · cases h
    · rename_i hfree
      cases h
      exact .acquire w _ hfree
  | release lock next =>
    cases h
    exact .release w lock _

theorem step_of_perform {choice : Choice} {c d : Config ρ}
    (hallowed : ∀ r, choice.request? = some r → allowed r)
    (h : choice.perform oracle c = some d) : Step oracle.outside allowed c d := by
  cases choice with
  | request r =>
    cases h
    exact .request c (hallowed r rfl)
  | announce =>
    simp only [Choice.perform] at h
    cases hevents : c.unannounced with
    | nil =>
      simp only [hevents] at h
      cases h
    | cons event rest =>
      simp only [hevents] at h
      cases h
      exact @Step.announce _ _ _ c [] rest event hevents
  | hear =>
    simp only [Choice.perform] at h
    split at h
    · rename_i hmail
      cases h
      exact .hear c hmail
    · cases h
  | pass time =>
    simp only [Choice.perform] at h
    split at h
    · rename_i htime
      cases h
      exact .pass c htime
    · cases h
  | arrive =>
    simp only [Choice.perform] at h
    cases hwaiting : c.state.scheduler.waiting with
    | nil =>
      simp only [hwaiting] at h
      cases h
    | cons w rest =>
      simp only [hwaiting] at h
      split at h
      · rename_i hdue
        cases h
        exact .arrive c (hwaiting ▸ List.mem_cons_self) hdue
      · cases h
  | start i =>
    simp only [Choice.perform] at h
    cases hfree : c.workers i with
    | some p =>
      simp only [hfree] at h
      cases h
    | none =>
      cases hpick : c.state.scheduler.pick? with
      | none =>
        simp only [hfree, hpick] at h
        cases h
      | some picked =>
        simp only [hfree, hpick] at h
        cases h
        exact .start c hfree hpick
  | advance i answer =>
    simp only [Choice.perform] at h
    cases hi : c.workers i with
    | none =>
      simp only [hi] at h
      cases h
    | some p =>
      simp only [hi] at h
      obtain ⟨⟨w, p'⟩, hadvance, heq⟩ := Option.map_eq_some_iff.mp h
      cases heq
      exact .advance c hi (advance_of_advance? hadvance)
  | leave i =>
    simp only [Choice.perform] at h
    split at h
    · rename_i hi
      cases h
      exact .leave c hi
    · cases h

/-- **Steps that are possible one after another are a run.** -/
theorem run_of_follow {choices : List Choice} {c d : Config ρ}
    (hallowed : ∀ r ∈ choices.filterMap Choice.request?, allowed r)
    (h : follow oracle choices c = some d) :
    Run oracle.outside allowed choices.length c d := by
  have hall : ∀ (choices : List Choice) (n : Nat) (a b : Config ρ),
      (∀ r ∈ choices.filterMap Choice.request?, allowed r) → follow oracle choices b = some d →
      Run oracle.outside allowed n a b →
      Run oracle.outside allowed (n + choices.length) a d := by
    intro choices
    induction choices with
    | nil =>
      intro n a b _ hfollow hrun
      cases hfollow
      exact hrun
    | cons choice choices ih =>
      intro n a b hallowed hfollow hrun
      obtain ⟨next, hnext, hfollow⟩ := Option.bind_eq_some_iff.mp hfollow
      have hstep : Step oracle.outside allowed b next := by
        refine step_of_perform (fun r hr => hallowed r ?_) hnext
        exact List.mem_filterMap.mpr ⟨choice, List.mem_cons_self, hr⟩
      have hrest := ih (n + 1) a next (fun r hr => hallowed r ?_) hfollow (hrun.tail hstep)
      · rwa [Nat.add_right_comm] at hrest
      · obtain ⟨other, hother, hr⟩ := List.mem_filterMap.mp hr
        exact List.mem_filterMap.mpr ⟨other, List.mem_cons_of_mem _ hother, hr⟩
  have hrun := hall choices 0 c c hallowed h (.refl c)
  rwa [Nat.zero_add] at hrun

/-! ## The end -/

theorem workers_of_perform {choice : Choice} {c d : Config ρ} {j : Nat}
    (h : choice.perform oracle c = some d) (hj : choice.worker? ≠ some j) :
    d.workers j = c.workers j := by
  have hother : ∀ {i : Nat} {p : Option (Process Orchestrator Unit)}, some i ≠ some j →
      Function.update c.workers i p j = c.workers j := fun hij =>
    Function.update_of_ne (fun heq => hij (congrArg some heq.symm)) _ _
  cases choice with
  | request r =>
    cases h
    rfl
  | announce =>
    simp only [Choice.perform] at h
    split at h
    · cases h
    · cases h
      rfl
  | hear =>
    simp only [Choice.perform] at h
    split at h
    · cases h
      rfl
    · cases h
  | pass time =>
    simp only [Choice.perform] at h
    split at h
    · cases h
      rfl
    · cases h
  | arrive =>
    simp only [Choice.perform] at h
    split at h
    · cases h
    · split at h
      · cases h
        rfl
      · cases h
  | start i =>
    simp only [Choice.perform] at h
    split at h
    · cases h
      exact hother hj
    · cases h
  | advance i answer =>
    simp only [Choice.perform] at h
    split at h
    · cases h
    · obtain ⟨stepped, _, heq⟩ := Option.map_eq_some_iff.mp h
      cases heq
      exact hother hj
  | leave i =>
    simp only [Choice.perform] at h
    split at h
    · cases h
      exact hother hj
    · cases h

/-- Workers who are not chosen do nothing. -/
theorem workers_of_follow {choices : List Choice} {c d : Config ρ} {j : Nat}
    (h : follow oracle choices c = some d) (hj : j ∉ choices.filterMap Choice.worker?) :
    d.workers j = c.workers j := by
  induction choices generalizing c with
  | nil =>
    cases h
    rfl
  | cons choice choices ih =>
    obtain ⟨next, hnext, hfollow⟩ := Option.bind_eq_some_iff.mp h
    rw [ih hfollow fun hmem => hj ?_]
    · refine workers_of_perform hnext fun heq => hj ?_
      exact List.mem_filterMap.mpr ⟨choice, List.mem_cons_self, heq⟩
    · obtain ⟨other, hother, heq⟩ := List.mem_filterMap.mp hmem
      exact List.mem_filterMap.mpr ⟨other, List.mem_cons_of_mem _ hother, heq⟩

/-- Whether nothing is left to be heard or done, by the first workers. -/
def Config.isSettled (n : Nat) (c : Config ρ) : Bool :=
  c.unannounced.isEmpty && !Simulation.World.hasMail Simulation.deployer c.state &&
    c.state.scheduler.waiting.isEmpty && c.state.scheduler.queued.isEmpty &&
    (List.range n).all fun i => (c.workers i).isNone

/-- Where the first workers are done, all are. -/
theorem settled_of_follow {choices : List Choice} {n : Nat} {c d : Config ρ}
    (hfollow : follow oracle choices c = some d) (h : d.isSettled n = true)
    (hchosen : ∀ i ∈ choices.filterMap Choice.worker?, i < n) (hfree : ∀ i, c.workers i = none) :
    d.Heard ∧ d.Idle := by
  simp only [Config.isSettled, Bool.and_eq_true, List.isEmpty_iff, Bool.not_eq_true',
    List.all_eq_true, List.mem_range, Option.isNone_iff_eq_none] at h
  obtain ⟨⟨⟨⟨hannounced, hmail⟩, hwaiting⟩, hqueued⟩, hworkers⟩ := h
  refine ⟨⟨hannounced, hmail⟩, hwaiting, hqueued, fun i => ?_⟩
  by_cases hi : i < n
  · exact hworkers i hi
  · exact (workers_of_follow hfollow fun hmem => hi (hchosen i hmem)).trans (hfree i)

end Rampart.Execution
