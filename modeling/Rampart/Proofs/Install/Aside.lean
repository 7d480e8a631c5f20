import Rampart.Proofs.Install.Scene
import Rampart.Proofs.Orchestrator.Lenient

/-!
# What leaves the claims alone

Most of what the workers do concerns no claim: the commands of an installation, the record of a
failure, and all jobs that install nothing.

* `elsewhere`: the discipline of those who leave the claims and the installations alone.
* `elsewhere_isLenient`: it allows whatever is done besides.
* **`elsewhere_installNow`**, **`elsewhere_recordFailure`**: parts of an installation.
* **`elsewhere_attempt`**: a job that installs nothing.
-/

namespace Rampart

open Deploy (Keeps)

namespace Install

theorem Elsewhere.refl (s : Orchestrator) : Elsewhere s s :=
  .of_eq rfl rfl

/-- **To leave claims and installations alone.** Anything else is allowed. -/
def elsewhere : Discipline where
  state _ := True
  change := Elsewhere
  idle := .refl
  call _ _ := True
  answer _ _ _ := True
  lock _ := True

theorem elsewhere_isLenient : elsewhere.IsLenient where
  call _ _ := trivial
  lock _ := trivial
  apart _ _ hclaims hscheduler _ := .of_eq hclaims hscheduler
  dispatch s job queue delay retry h := by
    refine .dispatch ?_ s queue delay retry
    cases job with
    | install server component ticket => exact absurd rfl (h server component ticket)
    | _ => rfl

/-- **The installation itself.** -/
theorem elsewhere_installNow (server : UInt64) (component : Component) :
    Keeps elsewhere (Bootstrap.installNow server component) :=
  elsewhere_isLenient.installNow_keeps server component

/-- **The record of a failure.** -/
theorem elsewhere_recordFailure (server : UInt64) (component : Component) (failure : Failure) :
    Keeps elsewhere (Bootstrap.recordFailure server component failure) :=
  elsewhere_isLenient.recordFailure_keeps server component failure

theorem elsewhere_handle {job : Job} (h : job.installation? = none) (attempt : Nat) :
    Keeps elsewhere (Orchestrator.handle job attempt) := by
  refine elsewhere_isLenient.handle_keeps (fun server component ticket hjob => ?_)
    (fun firewall _ _ s => ?_) attempt
  · rw [hjob] at h
    cases h
  · obtain ⟨hclaims, hscheduler⟩ := s.takeRedeploy_apart firewall
    exact .of_eq hclaims hscheduler

/-! ## Attempts -/

/-- The end of a job. -/
theorem Elsewhere.finish (s : Orchestrator) (counter : Counter) :
    Elsewhere s (Orchestrator.works.reschedule .finish (s.tick counter)) :=
  ⟨rfl, List.Subperm.refl _⟩

/-- **What the end of an attempt does** to claims and installations: nothing; or the job is given
back to the scheduler, and there is nothing to report. -/
theorem settle_outcomes (e : Entry Job) (result : Except Failure Unit) (s : Orchestrator) :
    Elsewhere s (Orchestrator.works.settle e result s).2 ∨
      (Orchestrator.works.settle e result s).1 = none ∧
      (Orchestrator.works.settle e result s).2.claims = s.claims ∧
      (Orchestrator.works.settle e result s).2.installs.Perm
        (e.job.installation?.toList ++ s.installs) := by
  unfold Works.settle
  cases result with
  | ok value => exact .inl (.finish s _)
  | error failure =>
    simp only
    split
    · exact .inl (.finish s _)
    · split
      · rename_i due _
        exact .inr ⟨rfl, rfl, installs_of_perm (s.scheduler.delayUntil_entries due e)⟩
      · exact .inl (.of_eq rfl rfl)

/-- **A job that installs nothing** leaves claims and installations alone. -/
theorem elsewhere_attempt {e : Entry Job} (h : e.job.installation? = none) :
    (Orchestrator.works.attempt e).Obeys elsewhere fun _ => True := by
  refine Orchestrator.attempt_obeys (elsewhere_handle h _) (fun failure => ?_)
    (fun now result s _ => ?_) fun s _ => ⟨rfl, List.Subperm.refl _⟩
  · cases hjob : e.job with
    | install server component ticket =>
      rw [hjob] at h
      cases h
    | _ => rfl
  · rcases settle_outcomes (e.begin now) result s with helsewhere | ⟨_, hclaims, hinstalls⟩
    · exact helsewhere
    · refine ⟨hclaims, ?_⟩
      have hjob : (e.begin now).job.installation? = none := h
      rw [hjob] at hinstalls
      exact hinstalls.subperm

end Install

end Rampart
