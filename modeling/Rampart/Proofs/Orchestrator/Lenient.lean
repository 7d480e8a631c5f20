import Rampart.Proofs.Deployment.Jobs
import Rampart.Proofs.Job.Window

/-!
# What all jobs leave alone

Under a discipline that allows every call, every change but of the claims, the syncs and the
scheduler, and to dispatch jobs that install nothing, all jobs may do their work: an installation up
to its claim, and any other job as a whole, once a sync may take the redeploy that is due. Jobs give
the scheduler new jobs and do nothing else with it: what is known of a scheduler for lawful jobs is
known of the orchestrator's.

* `Discipline.IsLenient`: such a discipline.
* **`installNow_keeps`**, **`recordFailure_keeps`**: parts of an installation.
* **`handle_keeps`**: a job that installs nothing.
* **`handle_keeps_all`**, **`failed_keeps`**: all jobs, where the claims may be changed.
* `gaining`: the discipline to give the scheduler new jobs and leave it alone otherwise.
* `Process.Obeys.changes`: a process that keeps to a discipline makes only changes of its kind.
* **`works_dispatchesNew`**, `works_isLawful`.
-/

namespace Rampart

open Rampart.Task (obeys_attempt obeys_clock obeys_modifyGet obeys_tell obeys_upload)
open Install (Installer)
open Deploy (Keeps keeps_bind keeps_bind_read keeps_modify keeps_pure keeps_run)

/-- **Everything is allowed** but to touch the claims and the syncs, and to do more with the
scheduler than dispatching jobs that install nothing. -/
structure Discipline.IsLenient (d : Discipline) : Prop where
  call : ∀ server c, d.call server c
  lock : ∀ lock, d.lock lock
  apart : ∀ s t : Orchestrator, t.claims = s.claims → t.scheduler = s.scheduler →
    t.syncs = s.syncs → d.change s t
  dispatch : ∀ (s : Orchestrator) (job : Job) (queue : Queue) (delay : UInt64)
    (retry : RetryPolicy), (∀ server component ticket, job ≠ .install server component ticket) →
    d.change s (s.dispatch job queue delay retry)

namespace Discipline.IsLenient

variable {d : Discipline} (hd : d.IsLenient)
include hd

/-! ## Parts of an installation -/

theorem applyUpdate (s : Orchestrator) (id : UInt64) (u : StatusUpdate) :
    d.change s (s.applyUpdate id u).2 := by
  unfold Orchestrator.applyUpdate
  split <;> exact hd.apart s _ rfl rfl rfl

theorem apply_keeps (server : UInt64) (u : StatusUpdate) :
    Keeps d (Bootstrap.apply server u) :=
  obeys_modifyGet fun s _ => ⟨hd.applyUpdate s server u, trivial⟩

theorem applyAll_keeps (server : UInt64) (us : List StatusUpdate) :
    Keeps d (Bootstrap.applyAll server us) := by
  induction us with
  | nil => exact keeps_pure ()
  | cons u us ih => exact keeps_bind (hd.apply_keeps server u) fun _ => ih

theorem tick_keeps (counter : Counter) :
    Keeps d (Task.modify (·.tick counter)) :=
  keeps_modify fun s _ => hd.apart s _ rfl rfl rfl

theorem run_keeps (server : Server) (commands : List String) :
    Keeps d (Task.run server commands) :=
  keeps_run (hd.call _ _)

theorem upload_keeps (server : Server) (path contents : String) :
    Keeps d (Task.upload server path contents) :=
  obeys_upload (hd.call _ _) fun _ _ => trivial

/-- The engine's installation consists of calls. -/
theorem installEngine_keeps (i : Installer) (server : Server) :
    Keeps d (i.installEngine server) := by
  refine keeps_bind (hd.run_keeps _ _) fun _ => ?_
  refine keeps_bind (hd.upload_keeps _ _ _) fun _ => ?_
  refine keeps_bind (hd.run_keeps _ _) fun _ => ?_
  refine keeps_bind (hd.run_keeps _ _) fun key => ?_
  simp only
  split
  · exact trivial
  refine keeps_bind (hd.upload_keeps _ _ _) fun _ => ?_
  have hlisted : Keeps d (do
      let listed ← Task.attempt
        (Task.run server [i.client.command ["appsec-configs", "list", "-o", "raw"]])
      return [StatusUpdate.appsec (Installer.appsecAnswer listed)] : Bootstrap.Work _) :=
    keeps_bind (obeys_attempt (hd.run_keeps _ _)) fun _ => keeps_pure _
  split
  · refine keeps_bind (obeys_attempt ?_) fun _ => hlisted
    exact keeps_bind (hd.upload_keeps _ _ _) fun _ =>
      keeps_bind (hd.run_keeps _ _) fun _ => keeps_pure ()
  · exact hlisted

theorem install_keeps (i : Installer) (component : Component) (server : Server) :
    Keeps d (i.install component server) := by
  cases component with
  | engine => exact hd.installEngine_keeps i server
  | requestLogging | headerLogging =>
    exact keeps_bind (hd.run_keeps _ _) fun _ => keeps_pure _
  | logShipping | trafficLogger =>
    exact keeps_bind (hd.upload_keeps _ _ _) fun _ =>
      keeps_bind (hd.run_keeps _ _) fun _ => keeps_pure _
  | validator => exact keeps_pure _

/-- **The installation itself.** -/
theorem installNow_keeps (server : UInt64) (component : Component) :
    Keeps d (Bootstrap.installNow server component) := by
  refine keeps_bind_read fun _ i _ _ => ?_
  refine keeps_bind (hd.apply_keeps _ _) fun target => ?_
  refine keeps_bind (hd.install_keeps i component target) fun extra => ?_
  refine keeps_bind (hd.apply_keeps _ _) fun _ => ?_
  exact keeps_bind (hd.applyAll_keeps _ _) fun _ => hd.tick_keeps _

/-- **The record of a failure.** -/
theorem recordFailure_keeps (server : UInt64) (component : Component) (failure : Failure) :
    Keeps d (Bootstrap.recordFailure server component failure) := by
  refine keeps_bind (hd.tick_keeps _) fun _ => ?_
  refine keeps_bind (hd.apply_keeps _ _) fun _ => ?_
  exact keeps_bind (hd.apply_keeps _ _) fun _ => obeys_tell fun _ => trivial

/-! ## Jobs that install nothing -/

theorem upkeep : d.Upkeep where
  count s _ _ _ := hd.apart s _ rfl rfl rfl
  reload s _ _ := hd.dispatch s _ _ _ _ nofun

theorem recordBouncer (s : Orchestrator) (firewall : UInt64) (name key : String) :
    d.change s (s.recordBouncer firewall name key).2 := by
  unfold Orchestrator.recordBouncer Orchestrator.commit
  split <;> exact hd.apart s _ rfl rfl rfl

theorem planRevalidation (s : Orchestrator) (server : UInt64) (round : UInt32) :
    d.change s (s.planRevalidation server round) := by
  unfold Orchestrator.planRevalidation
  split
  · exact d.idle s
  · exact hd.dispatch s _ _ _ _ nofun

theorem checkAll_keeps (target : Server) : Keeps d (Bootstrap.checkAll target) := by
  refine keeps_bind_read fun _ checks _ _ => ?_
  refine keeps_bind (t := Task.callAll _) ⟨fun _ _ => hd.call _ _, fun _ => trivial⟩ fun _ => ?_
  exact keeps_pure _

theorem validate_keeps (server : UInt64) (round : UInt32) :
    Keeps d (Bootstrap.validate server round) := by
  refine keeps_bind (hd.apply_keeps _ _) fun target => ?_
  refine keeps_bind (hd.checkAll_keeps target) fun results => ?_
  refine keeps_bind (hd.applyAll_keeps _ _) fun _ => ?_
  refine keeps_bind (obeys_clock fun _ => trivial) fun time => ?_
  refine keeps_bind (hd.apply_keeps _ _) fun _ => ?_
  refine keeps_bind (hd.apply_keeps _ _) fun _ => ?_
  refine keeps_bind (hd.tick_keeps _) fun _ => ?_
  split
  · exact keeps_modify fun s _ => hd.planRevalidation s server round
  · exact keeps_pure ()

theorem keepAlerts (s : Orchestrator) (server : UInt64) (now : Instant)
    (alerts : List Engine.Alert) : d.change s (s.keepAlerts server now alerts).2 := by
  have hkeep : ∀ (s : Orchestrator) alert,
      (s.keepAlert server now alert).2.claims = s.claims ∧
        (s.keepAlert server now alert).2.scheduler = s.scheduler ∧
        (s.keepAlert server now alert).2.syncs = s.syncs := by
    intro s alert
    unfold Orchestrator.keepAlert
    split
    · exact ⟨rfl, rfl, rfl⟩
    · split <;> exact ⟨rfl, rfl, rfl⟩
  have hall : ∀ (alerts : List Engine.Alert) (s : Orchestrator),
      (s.keepAlerts server now alerts).2.claims = s.claims ∧
        (s.keepAlerts server now alerts).2.scheduler = s.scheduler ∧
        (s.keepAlerts server now alerts).2.syncs = s.syncs := by
    intro alerts
    induction alerts with
    | nil => exact fun s => ⟨rfl, rfl, rfl⟩
    | cons alert alerts ih =>
      intro s
      obtain ⟨hclaims, hscheduler, hsyncs⟩ := ih (s.keepAlert server now alert).2
      obtain ⟨hclaims', hscheduler', hsyncs'⟩ := hkeep s alert
      exact ⟨hclaims.trans hclaims', hscheduler.trans hscheduler', hsyncs.trans hsyncs'⟩
  obtain ⟨hclaims, hscheduler, hsyncs⟩ := hall alerts s
  exact hd.apart s _ hclaims hscheduler hsyncs

theorem alerts_keeps (engine : Engine.Client) (server : Server) (hours : UInt64) :
    Keeps d (engine.alerts server hours) :=
  keeps_bind (hd.run_keeps _ _) fun _ => trivial

theorem pullFrom_keeps (engine : Engine.Client) (hours : UInt64) (servers : List Server) :
    (AlertSync.pullFrom engine hours servers).Obeys d fun _ => True := by
  induction servers with
  | nil => exact trivial
  | cons server servers ih =>
    have hrest : ∀ kept : Nat,
        ((AlertSync.pullFrom engine hours servers).bind fun others =>
          .done (kept + others)).Obeys d fun _ => True :=
      fun kept => Process.Obeys.bind (ih.mono fun _ _ => trivial)
    refine Process.Obeys.bind ((hd.alerts_keeps engine server hours).mono fun result _ => ?_)
    cases result with
    | error failure => exact hrest 0
    | ok alerts => exact fun now s _ => ⟨hd.keepAlerts s server.id now alerts, hrest _⟩

theorem pull_keeps : AlertSync.pull.Obeys d fun _ => True := by
  intro s _
  have hpull := hd.pullFrom_keeps ⟨s.settings.engine⟩ s.settings.alerts.lookbackHours
    s.engineServers
  exact ⟨d.idle s, Process.Obeys.bind (p := AlertSync.pullFrom _ _ _)
    (hpull.mono fun _ _ s _ => ⟨hd.apart s _ rfl rfl rfl, trivial⟩)⟩

/-- **A job that installs nothing**; a sync takes the redeploy that is due. -/
theorem handle_keeps {job : Job}
    (h : ∀ server component ticket, job ≠ .install server component ticket)
    (htake : ∀ firewall generation, job = .sync firewall generation →
      ∀ s : Orchestrator, d.change s (s.takeRedeploy firewall).2) (attempt : Nat) :
    Keeps d (Orchestrator.handle job attempt) := by
  cases job with
  | sync firewall generation =>
    refine Deploy.sync_keeps generation hd.upkeep (fun _ _ _ _ _ _ => ?_)
      (fun _ _ _ => hd.call _ _) fun s _ => htake firewall generation rfl s
    exact ⟨hd.lock _, hd.call _ _, fun _ _ _ _ => hd.call _ _, fun _ _ _ => hd.call _ _,
      fun _ _ => hd.call _ _⟩
  | applyDecisions firewall rule =>
    exact Deploy.applyDecisions_keeps (fun _ _ _ _ => hd.call _ _) (fun _ _ _ _ => hd.call _ _)
      hd.upkeep firewall rule
  | removeDecisions server decisions =>
    exact Deploy.removeDecisions_keeps (fun _ _ _ _ => hd.call _ _) server decisions
  | provision firewall =>
    exact Deploy.provision_keeps hd.upkeep (fun _ _ _ _ _ => hd.call _ _)
      fun s _ name key => hd.recordBouncer s firewall name key
  | reloadBouncers server => exact Deploy.reloadBouncers_keeps (fun _ _ _ _ => hd.call _ _) server
  | install server component ticket => exact absurd rfl (h server component ticket)
  | validate server round => exact hd.validate_keeps server round
  | syncAlerts => exact Process.Obeys.bind (hd.pull_keeps.mono fun _ _ => trivial)

/-! ## Where the claims may be changed -/

section Claims

variable (hclaims : ∀ (s : Orchestrator) (claims : Claims), d.change s { s with claims })
include hclaims

omit hd in
theorem changeClaims_keeps (f : Claims → Claims) : Keeps d (Bootstrap.changeClaims f) :=
  keeps_modify fun s _ => hclaims s (f s.claims)

theorem installJob_keeps (server : UInt64) (component : Component) (ticket : UInt64) :
    Keeps d (Bootstrap.install server component ticket) := by
  refine keeps_bind_read fun _ target _ _ => ?_
  split
  · exact changeClaims_keeps hclaims _
  · refine keeps_bind (obeys_modifyGet fun s _ => ⟨hclaims s _, trivial⟩) fun begun => ?_
    cases begun with
    | false => exact keeps_pure ()
    | true =>
      refine keeps_bind (obeys_attempt (hd.installNow_keeps server component)) fun result => ?_
      cases result with
      | ok value => exact changeClaims_keeps hclaims _
      | error failure => exact keeps_bind (changeClaims_keeps hclaims _) fun _ => trivial

/-- **Any job.** -/
theorem handle_keeps_all {job : Job}
    (htake : ∀ firewall generation, job = .sync firewall generation →
      ∀ s : Orchestrator, d.change s (s.takeRedeploy firewall).2) (attempt : Nat) :
    Keeps d (Orchestrator.handle job attempt) := by
  cases job with
  | install server component ticket => exact hd.installJob_keeps hclaims server component ticket
  | _ =>
    refine hd.handle_keeps (fun _ _ _ hjob => ?_) htake attempt
    cases hjob

/-- **The report of a failure for good.** -/
theorem failed_keeps (job : Job) (failure : Failure) :
    (Orchestrator.failed job failure).Obeys d fun _ => True := by
  cases job with
  | install server component ticket =>
    refine Process.Obeys.bind
      ((changeClaims_keeps hclaims (·.release server component ticket)).mono fun _ _ => ?_)
    exact Process.Obeys.bind
      ((hd.recordFailure_keeps server component failure).mono fun _ _ => trivial)
  | _ => exact trivial

end Claims

end Discipline.IsLenient

/-- Taking a redeploy leaves the claims and the scheduler alone. -/
theorem Orchestrator.takeRedeploy_apart (s : Orchestrator) (firewall : UInt64) :
    (s.takeRedeploy firewall).2.claims = s.claims ∧
      (s.takeRedeploy firewall).2.scheduler = s.scheduler := by
  unfold Orchestrator.takeRedeploy
  split <;> exact ⟨rfl, rfl⟩

/-! ## What jobs do with the scheduler -/

/-- Where nothing is expected of states and answers, a process that keeps to a discipline makes only
changes of its kind. -/
theorem Process.Obeys.changes {α : Type} {d : Discipline} (hstate : ∀ s, d.state s)
    (hanswer : ∀ server c answer, d.answer server c answer) {post : α → Prop}
    {p : Process Orchestrator α} (h : p.Obeys d post) : p.Changes d.change := by
  induction p with
  | done a => exact trivial
  | atomic update next ih => exact fun s => ⟨(h s (hstate s)).1, ih s (h s (hstate s)).2⟩
  | call server c next ih => exact fun answer => ih answer (h.2 answer (hanswer server c answer))
  | callAll calls next ih => exact fun answers => ih answers (h.2 answers)
  | tell notice next ih => exact fun answer => ih answer (h answer)
  | clock next ih => exact fun time => ih time (h time)
  | fresh next ih => exact fun name hname => ih name (h name hname)
  | wait seconds next ih => exact ih h
  | acquire lock next ih => exact ih h.2
  | release lock next ih => exact ih h.2

namespace Orchestrator

/-- A change that leaves the scheduler as it is. -/
theorem gaining_of_eq {s t : Orchestrator} (h : t.scheduler = s.scheduler) :
    works.Gaining s t := by
  have hsame : works.scheduler t = works.scheduler s := h
  rw [Works.Gaining, hsame]
  exact .nothing

/-- **To do nothing with the scheduler but give it new jobs.** -/
def gaining : Discipline where
  state _ := True
  change := works.Gaining
  idle := works.gaining_refl
  call _ _ := True
  answer _ _ _ := True
  lock _ := True

theorem gaining_isLenient : gaining.IsLenient where
  call _ _ := trivial
  lock _ := trivial
  apart _ _ _ hscheduler _ := gaining_of_eq hscheduler
  dispatch _ job queue delay retry _ := .dispatch .nothing job queue retry delay.toNat

/-- **The orchestrator's jobs do nothing with the scheduler but give it new jobs.** -/
theorem works_dispatchesNew : works.DispatchesNew where
  scheduler_set _ _ := rfl
  scheduler_count _ _ := rfl
  handle job attempt := by
    have hkeeps : (handle job attempt).Obeys gaining fun _ => True :=
      gaining_isLenient.handle_keeps_all (fun _ _ => gaining_of_eq rfl)
        (fun firewall _ _ s => gaining_of_eq (s.takeRedeploy_apart firewall).2) attempt
    exact hkeeps.changes (fun _ => trivial) fun _ _ _ => trivial
  failed job failure :=
    (gaining_isLenient.failed_keeps (fun _ _ => gaining_of_eq rfl) job failure).changes
      (fun _ => trivial) fun _ _ _ => trivial

/-- They are lawful. -/
theorem works_isLawful : works.IsLawful :=
  works_dispatchesNew.isLawful

end Orchestrator

end Rampart
