import Rampart.Proofs.Execution.Step
import Rampart.Proofs.Install.Claims
import Rampart.Proofs.Job.Scheduler

/-!
# Installations side by side

The orchestrator with tickets that were given, jobs that wait, and workers in the middle of theirs;
every operation on the claims is a step of its own, and steps are taken in any order.

* `Elsewhere`: changes that leave claims and installations alone. Users, events, time and the
  arrival of jobs make no other ones.
* `IsBegin`, `IsEnd`, `marked`: a worker is installing from the step in which it begins, if it is
  let, until the step in which it releases or pauses the claim.
* `Step`, `Run`: tickets are given and jobs dispatched, workers take jobs and go on.
* **`run_planCreated`**, **`run_planReachable`**: what follows an event of a server consists of such
  steps.
-/

namespace Rampart

open Execution (Advance Outside Shared)

/-- What a job is to install. -/
def Job.installation? : Job → Option Installation
  | .install server component ticket => some ⟨server, component, ticket⟩
  | _ => none

theorem Job.eq_install {job : Job} {x : Installation} (h : job.installation? = some x) :
    job = .install x.server x.component x.ticket := by
  cases job <;> cases h
  rfl

/-- The installations that the scheduler holds. -/
def Orchestrator.installs (s : Orchestrator) : List Installation :=
  s.scheduler.entries.filterMap (·.job.installation?)

namespace Install

/-! ## Changes -/

/-- **A change elsewhere.** No installation is added; a closed scheduler may drop some. -/
structure Elsewhere (s t : Orchestrator) : Prop where
  claims : t.claims = s.claims
  installs : t.installs.Subperm s.installs

/-- A change of anything but the claims and the scheduler. -/
theorem Elsewhere.of_eq {s t : Orchestrator} (hclaims : t.claims = s.claims)
    (hscheduler : t.scheduler = s.scheduler) : Elsewhere s t := by
  refine ⟨hclaims, ?_⟩
  rw [Orchestrator.installs, hscheduler]
  exact List.Subperm.refl _

/-- The scheduler holds one more job. -/
theorem installs_of_perm {s t : Orchestrator} {e : Entry Job}
    (h : t.scheduler.entries.Perm (e :: s.scheduler.entries)) :
    t.installs.Perm (e.job.installation?.toList ++ s.installs) := by
  have hinstalls := h.filterMap (·.job.installation?)
  unfold Orchestrator.installs
  cases hjob : e.job.installation? <;> simpa [List.filterMap_cons, hjob] using hinstalls

theorem installs_dispatch (s : Orchestrator) (job : Job) (queue : Queue) (delay : UInt64)
    (retry : RetryPolicy) :
    (s.dispatch job queue delay retry).installs.Perm
      (job.installation?.toList ++ s.installs) :=
  installs_of_perm (e := { job, queue, retry }) (s.scheduler.dispatch_entries _ delay.toNat)

/-- A job that installs nothing is dispatched. -/
theorem Elsewhere.dispatch {job : Job} (h : job.installation? = none) (s : Orchestrator)
    (queue : Queue) (delay : UInt64) (retry : RetryPolicy) :
    Elsewhere s (s.dispatch job queue delay retry) := by
  refine ⟨rfl, ?_⟩
  have hperm := installs_dispatch s job queue delay retry
  rw [h] at hperm
  exact hperm.subperm

/-- A job queues up, or is dropped. -/
theorem Elsewhere.arrive (s : Orchestrator) (number : Nat) :
    Elsewhere s { s with scheduler := s.scheduler.arrive number } := by
  obtain ⟨entries, hperm, hsublist⟩ := s.scheduler.arrive_subperm number
  exact ⟨rfl, _, hperm.filterMap _, hsublist.filterMap _⟩

theorem Elsewhere.applyUpdate (s : Orchestrator) (id : UInt64) (u : StatusUpdate) :
    Elsewhere s (s.applyUpdate id u).2 := by
  unfold Orchestrator.applyUpdate
  split <;> exact .of_eq rfl rfl

/-! ## Who is installing -/

/-- A process that is about to begin an installation. -/
def IsBegin (x : Installation) (p : Process Orchestrator Unit) : Prop :=
  ∃ next, p = (Bootstrap.begin x.server x.component x.ticket).process.bind next

/-- A process that is about to release or pause the claim of an installation. -/
def IsEnd (x : Installation) (p : Process Orchestrator Unit) : Prop :=
  ∃ next, p = (Bootstrap.changeClaims (·.release x.server x.component x.ticket)).process.bind next ∨
    p = (Bootstrap.changeClaims (·.pause x.server x.component x.ticket)).process.bind next

/-- **What a process is installing after its next step**: what it now begins, if the claims let it;
and what it was installing, unless this ends. -/
def marked (s : Orchestrator) (p : Process Orchestrator Unit) (before : Installation → Prop)
    (x : Installation) : Prop :=
  IsBegin x p ∧ (s.claims.start x.server x.component x.ticket).1 = true ∨ before x ∧ ¬ IsEnd x p

/-! ## Steps -/

variable {ρ : Type}

/-- The orchestrator with everything that is on the way. -/
structure Scene (ρ : Type) extends Shared ρ where
  /-- Tickets that were given, and whose jobs have not been dispatched yet. -/
  inHand : List Installation := []
  /-- What every worker is doing. -/
  workers : Nat → Option (Process Orchestrator Unit) := fun _ => none
  /-- The job of every worker. -/
  job : Nat → Option (Entry Job) := fun _ => none
  /-- What every worker is installing. -/
  installing : Nat → Installation → Prop := fun _ _ => False
  /-- The newest ticket that was given for a component of a server. -/
  newest : UInt64 × Component → Option UInt64 := fun _ => none
  /-- How many tickets were asked for. -/
  asked : Nat := 0

namespace Scene

/-- A ticket is asked for. -/
def ask (c : Scene ρ) (server : UInt64) (component : Component) : Scene ρ :=
  let (ticket, claims) := c.state.claims.claim server component
  { c with
    state := { c.state with claims }
    inHand := match ticket with
      | some ticket => ⟨server, component, ticket⟩ :: c.inHand
      | none => c.inHand
    newest := match ticket with
      | some ticket => Function.update c.newest (server, component) (some ticket)
      | none => c.newest
    asked := c.asked + 1 }

/-- The job of a ticket is given to the scheduler. -/
def hand (c : Scene ρ) (x : Installation) (queue : Queue) (delay : UInt64)
    (retry : RetryPolicy) : Scene ρ :=
  { c with
    state := c.state.dispatch (.install x.server x.component x.ticket) queue delay retry
    inHand := c.inHand.erase x }

/-- A worker takes a job. -/
def take (c : Scene ρ) (i : Nat) (e : Entry Job) (rest : Scheduler Job) : Scene ρ :=
  { c with
    state := { c.state with scheduler := rest }
    workers := Function.update c.workers i (some (Orchestrator.works.attempt e))
    job := Function.update c.job i (some e) }

/-- A worker goes on. -/
def goOn (c : Scene ρ) (i : Nat) (p p' : Process Orchestrator Unit) (w : Shared ρ) : Scene ρ :=
  { c with
    toShared := w
    workers := Function.update c.workers i (some p')
    installing := Function.update c.installing i (marked c.state p (c.installing i)) }

/-- A worker has done its job. -/
def leave (c : Scene ρ) (i : Nat) : Scene ρ :=
  { c with
    workers := Function.update c.workers i none
    job := Function.update c.job i none }

/-- Nothing has been asked for, and nobody works. -/
structure IsFirst (c : Scene ρ) : Prop where
  claims : c.state.claims = {}
  installs : c.state.installs = []
  inHand : c.inHand = []
  workers : ∀ i, c.workers i = none
  installing : ∀ i x, ¬ c.installing i x
  asked : c.asked = 0

end Scene

/-- **One step of the orchestrator.** -/
inductive Step (o : Outside ρ) : Scene ρ → Scene ρ → Prop
  | meanwhile (c : Scene ρ) {w : Shared ρ} (h : Elsewhere c.state w.state) :
    Step o c { c with toShared := w }
  | ask (c : Scene ρ) (server : UInt64) (component : Component) :
    Step o c (c.ask server component)
  | hand (c : Scene ρ) {x : Installation} (h : x ∈ c.inHand) (queue : Queue) (delay : UInt64)
    (retry : RetryPolicy) : Step o c (c.hand x queue delay retry)
  | take (c : Scene ρ) {i : Nat} {e : Entry Job} {rest : Scheduler Job}
    (hfree : c.workers i = none) (h : c.state.scheduler.pick? = some (e, rest)) :
    Step o c (c.take i e rest)
  | goOn (c : Scene ρ) {i : Nat} {p p' : Process Orchestrator Unit} {w : Shared ρ}
    (hi : c.workers i = some p) (h : Advance o c.toShared p w p') : Step o c (c.goOn i p p' w)
  | leave (c : Scene ρ) {i : Nat} (hi : c.workers i = some (.done ())) : Step o c (c.leave i)

/-- Steps lead from one scene to another. -/
inductive Run (o : Outside ρ) : Scene ρ → Scene ρ → Prop
  | refl (c : Scene ρ) : Run o c c
  | tail {c d e : Scene ρ} (h : Run o c d) (hs : Step o d e) : Run o c e

theorem Run.single {o : Outside ρ} {c d : Scene ρ} (h : Step o c d) : Run o c d :=
  .tail (.refl c) h

theorem Run.trans {o : Outside ρ} {c d e : Scene ρ} (h : Run o c d) (hs : Run o d e) :
    Run o c e := by
  induction hs with
  | refl => exact h
  | tail _ hs ih => exact .tail ih hs

/-! ## Events of servers -/

section Events

variable {o : Outside ρ}

/-- Steps lead to a state, while workers do nothing and no ticket is kept in hand. -/
def LeadsTo (o : Outside ρ) (c : Scene ρ) (t : Orchestrator) : Prop :=
  ∃ d, Run o c d ∧ d.state = t ∧ d.inHand = c.inHand ∧ d.workers = c.workers ∧
    d.installing = c.installing

theorem LeadsTo.refl (c : Scene ρ) : LeadsTo o c c.state :=
  ⟨c, .refl c, rfl, rfl, rfl, rfl⟩

theorem LeadsTo.of_elsewhere {c : Scene ρ} {t : Orchestrator} (h : Elsewhere c.state t) :
    LeadsTo o c t :=
  ⟨_, .single (.meanwhile c (w := { c.toShared with state := t }) h), rfl, rfl, rfl, rfl⟩

/-- What leads to a state, and on from there. -/
theorem LeadsTo.trans {c : Scene ρ} {t u : Orchestrator} (h : LeadsTo o c t)
    (hon : ∀ d : Scene ρ, d.state = t → LeadsTo o d u) : LeadsTo o c u := by
  obtain ⟨d, hrun, hstate, hhand, hworkers, hinstalling⟩ := h
  obtain ⟨e, hrun', hstate', hhand', hworkers', hinstalling'⟩ := hon d hstate
  exact ⟨e, hrun.trans hrun', hstate', hhand'.trans hhand, hworkers'.trans hworkers,
    hinstalling'.trans hinstalling⟩

/-- One component: its ticket and then its job. -/
theorem leadsTo_dispatchStep (c : Scene ρ) (server : UInt64) (component : Component)
    (queue : Queue) (delay : UInt64) (retry : RetryPolicy) :
    LeadsTo o c (c.state.dispatchStep server component queue delay retry).2 := by
  unfold Orchestrator.dispatchStep
  split
  · exact .of_elsewhere (.dispatch rfl _ _ _ _)
  · rcases c.state.claims.claim_outcomes server component with ⟨_, hclaim⟩ | ⟨_, hclaim⟩
    · refine ⟨_, .single (.ask c server component), ?_⟩
      simp only [Scene.ask, hclaim]
      exact ⟨trivial, trivial, trivial, trivial⟩
    · have hmem : ⟨server, component, c.state.claims.lastTicket + 1⟩ ∈
          (c.ask server component).inHand := by
        simp only [Scene.ask, hclaim]
        exact List.mem_cons_self
      refine ⟨_, .tail (.single (.ask c server component)) (.hand _ hmem queue delay retry), ?_⟩
      simp only [Scene.hand, Scene.ask, hclaim, List.erase_cons_head]
      exact ⟨trivial, trivial, trivial, trivial⟩

/-- One component after another. -/
theorem leadsTo_dispatchSteps {step : Orchestrator → Component → Bool × Orchestrator}
    (hstep : ∀ (c : Scene ρ) component, LeadsTo o c (step c.state component).2)
    (components : List Component) (c : Scene ρ) :
    LeadsTo o c (Orchestrator.dispatchSteps step c.state components).2 := by
  induction components generalizing c with
  | nil => exact .refl c
  | cons component components ih =>
    refine (hstep c component).trans fun d hd => ?_
    have hrest := ih d
    rw [hd] at hrest
    exact hrest

/-- **A new server**: its plan is a run of such steps. -/
theorem run_planCreated (c : Scene ρ) (server : UInt64) :
    LeadsTo o c (c.state.planCreated server).2 := by
  have hupdate := Elsewhere.applyUpdate c.state server (.progress .requested)
  unfold Orchestrator.planCreated
  split
  · rename_i heq
    rw [heq] at hupdate
    exact .of_elsewhere hupdate
  · rename_i heq
    rw [heq] at hupdate
    refine (LeadsTo.of_elsewhere hupdate).trans fun d hd => ?_
    subst hd
    refine leadsTo_dispatchSteps (fun c component => ?_) _ d
    split
    · exact leadsTo_dispatchStep c server component _ _ _
    · exact .refl c

/-- **A server that becomes reachable.** -/
theorem run_planReachable (c : Scene ρ) (server : UInt64) :
    LeadsTo o c (c.state.planReachable server).2 := by
  unfold Orchestrator.planReachable
  split
  · exact .refl c
  · exact leadsTo_dispatchSteps (fun c component => leadsTo_dispatchStep c server component _ _ _)
      _ c

end Events

end Install

end Rampart
