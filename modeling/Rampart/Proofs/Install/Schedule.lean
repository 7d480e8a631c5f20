import Rampart.Proofs.Execution.Schedule
import Rampart.Proofs.Install.Scene

/-!
# Installations that are chosen step by step

Runs of installations can be computed when it is said which step comes next and what the servers
answer.

* `Choice`, `follow`: steps that are chosen one after another, as far as they are possible.
* **`run_of_follow`**: such steps are a run.
-/

namespace Rampart.Install

open Execution (Oracle advance? advance_of_advance?)

variable {ρ : Type}

/-- Which step is taken. -/
inductive Choice
  | ask (server : UInt64) (component : Component)
  /-- The job of the newest ticket in hand is dispatched, to begin at once and to be tried once. -/
  | hand
  /-- The first job that waits queues up. -/
  | arrive
  /-- A free worker takes a job. -/
  | take (i : Nat)
  /-- A worker goes on; if it calls a server it gets the answer. -/
  | goOn (i : Nat) (answer : Except Failure String)
  | leave (i : Nat)

/-- The step that is chosen, if it is possible. -/
def Choice.perform (oracle : Oracle ρ) (c : Scene ρ) : Choice → Option (Scene ρ)
  | ask server component => some (c.ask server component)
  | hand => match c.inHand with
    | [] => none
    | x :: _ => some (c.hand x .default 0 .single)
  | arrive => match c.state.scheduler.waiting with
    | [] => none
    | w :: _ => some { c with
        state := { c.state with scheduler := c.state.scheduler.arrive w.number } }
  | take i => match c.workers i, c.state.scheduler.pick? with
    | none, some (e, rest) => some (c.take i e rest)
    | _, _ => none
  | goOn i answer => match c.workers i with
    | none => none
    | some p => (advance? oracle answer c.toShared p).map fun (w, p') => c.goOn i p p' w
  | leave i => match c.workers i with
    | some (.done ()) => some (c.leave i)
    | _ => none

/-- One step after another. -/
def follow (oracle : Oracle ρ) : List Choice → Scene ρ → Option (Scene ρ)
  | [], c => some c
  | choice :: choices, c => (choice.perform oracle c).bind (follow oracle choices)

variable {oracle : Oracle ρ} {c d : Scene ρ}

theorem step_of_perform {choice : Choice} (h : choice.perform oracle c = some d) :
    Step oracle.outside c d := by
  cases choice with
  | ask server component =>
    cases h
    exact .ask c server component
  | hand =>
    simp only [Choice.perform] at h
    cases hhand : c.inHand with
    | nil =>
      simp only [hhand] at h
      cases h
    | cons x rest =>
      simp only [hhand] at h
      cases h
      exact .hand c (hhand ▸ List.mem_cons_self) _ _ _
  | arrive =>
    simp only [Choice.perform] at h
    split at h
    · cases h
    · rename_i w _ _
      cases h
      exact .meanwhile c (.arrive c.state w.number)
  | take i =>
    simp only [Choice.perform] at h
    cases hfree : c.workers i with
    | some p =>
      simp only [hfree] at h
      cases h
    | none =>
      cases hpick : c.state.scheduler.pick? with
      | none =>
        simp only [hfree, hpick] at h
        cases h
      | some picked =>
        simp only [hfree, hpick] at h
        cases h
        exact .take c hfree hpick
  | goOn i answer =>
    simp only [Choice.perform] at h
    cases hi : c.workers i with
    | none =>
      simp only [hi] at h
      cases h
    | some p =>
      simp only [hi] at h
      obtain ⟨⟨w, p'⟩, hadvance, heq⟩ := Option.map_eq_some_iff.mp h
      cases heq
      exact .goOn c hi (advance_of_advance? hadvance)
  | leave i =>
    simp only [Choice.perform] at h
    split at h
    · rename_i hi
      cases h
      exact .leave c hi
    · cases h

/-- **Steps that are possible one after another are a run.** -/
theorem run_of_follow {choices : List Choice} (h : follow oracle choices c = some d) :
    Run oracle.outside c d := by
  induction choices generalizing c with
  | nil =>
    cases h
    exact .refl _
  | cons choice choices ih =>
    obtain ⟨next, hnext, hfollow⟩ := Option.bind_eq_some_iff.mp h
    exact (Run.single (step_of_perform hnext)).trans (ih hfollow)

end Rampart.Install
