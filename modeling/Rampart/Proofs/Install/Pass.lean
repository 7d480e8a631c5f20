import Mathlib.Data.Multiset.ZeroCons
import Rampart.Orchestrator.Work
import Rampart.Proofs.Deployment.Jobs
import Rampart.Proofs.Job.Scheduler
import Rampart.Proofs.Registry

/-!
# One validation pass

A pass looks at the settings and at the installers, writes the record of one server, and gives the
scheduler at most one job. As long as others leave all that alone, what it does is a function of
what the checks find.

* `View`, `Elsewhere`: what of the orchestrator a pass depends on, and the changes besides. Among
  them is all that passes about other servers do: **`beside_attempt`**.
* `Ends`: what a process makes of the view, whatever others do to the rest between its steps.
* `View.health`, `Reports`: what the checks find, and how the record of the server shows it.
* **`ends_work`**: a pass never fails, its findings are reported, and it is repeated if something is
  wrong and the limit is not reached.
-/

namespace Rampart

open Bootstrap (Work)
open Deploy (Keeps keeps_bind keeps_bind_read keeps_modify keeps_pure)
open Execution (Advance Outside Shared)

/-- Whether a job writes the status of a server. -/
def Job.concerns (id : UInt64) : Job → Bool
  | .install server _ _ | .validate server _ => server == id
  | _ => false

namespace Validation

/-! ## Views -/

/-- What of the orchestrator the validation of a server depends on. -/
structure View where
  server : Option Server
  settings : Settings
  installable : List Component
  /-- The jobs about the server that the scheduler holds. -/
  jobs : Multiset (Entry Job)

/-- The view of the validation of a server. -/
def view (id : UInt64) (s : Orchestrator) : View where
  server := s.registry.get? id
  settings := s.settings
  installable := s.installable
  jobs := s.scheduler.entries.filter (·.job.concerns id)

namespace View

/-- The installer of a component that can be installed. -/
def installer (v : View) : Install.Installer :=
  ⟨v.settings.engine, v.settings.bouncer⟩

/-- The components that are checked by a command. -/
def checked (v : View) : List Component :=
  Component.installable.filter v.installable.contains

/-- The commands of a pass. -/
def commands (v : View) : List Remote.Call :=
  v.checked.map fun component => .run (v.installer.check component).command

/-- **The health of a component**, by what its check has found; one that cannot be installed has
none. -/
def health (v : View) (found : Component → Except Failure String) (component : Component) :
    Health :=
  if v.installable.contains component then (v.installer.check component).health (found component)
  else ⟨false, "no installer registered"⟩

/-- The check of a component that can be installed. -/
def check? (v : View) (component : Component) : Option Install.Check :=
  if v.installable.contains component then some (v.installer.check component) else none

/-- The answers belong to the components in order, those that cannot be installed left out. -/
theorem healthOf_found (v : View) (found : Component → Except Failure String)
    (components : List Component) :
    Bootstrap.healthOf (components.map fun component => (component, v.check? component))
        ((components.filter v.installable.contains).map found) =
      components.map fun component => (component, v.health found component) := by
  induction components with
  | nil => rfl
  | cons component components ih =>
    cases hcontains : v.installable.contains component with
    | true =>
      rw [List.filter_cons_of_pos hcontains, List.map_cons, List.map_cons, List.map_cons, check?,
        if_pos hcontains, Bootstrap.healthOf, health, if_pos hcontains, ← ih]
    | false =>
      have hnot : ¬ v.installable.contains component = true := by rw [hcontains]; decide
      rw [List.filter_cons_of_neg hnot, List.map_cons, List.map_cons, check?, if_neg hnot,
        Bootstrap.healthOf, health, if_neg hnot, ← ih]

theorem calls_eq (v : View) (target : Server) (components : List Component) :
    ((components.map fun component => (component, v.check? component)).filterMap
        fun (_, check) => check.map fun check => (target, Remote.Call.run check.command)).map
          (·.2) =
      (components.filter v.installable.contains).map
        fun component => .run (v.installer.check component).command := by
  induction components with
  | nil => rfl
  | cons component components ih =>
    cases hcontains : v.installable.contains component with
    | true =>
      rw [List.filter_cons_of_pos hcontains, List.map_cons, List.map_cons, check?,
        if_pos hcontains, ← ih]
      rfl
    | false =>
      have hnot : ¬ v.installable.contains component = true := by rw [hcontains]; decide
      rw [List.filter_cons_of_neg hnot, List.map_cons, check?, if_neg hnot, ← ih]
      rfl

end View

variable {id : UInt64} {s t : Orchestrator}

/-- A scheduler that holds one more job. -/
theorem jobs_of_perm (id : UInt64) {e : Entry Job}
    (h : t.scheduler.entries.Perm (e :: s.scheduler.entries)) :
    (view id t).jobs = if e.job.concerns id then e ::ₘ (view id s).jobs else (view id s).jobs := by
  have hperm : (view id t).jobs = ((e :: s.scheduler.entries).filter (·.job.concerns id) :
      List (Entry Job)) := Multiset.coe_eq_coe.mpr (h.filter _)
  rw [hperm, List.filter_cons]
  split <;> rfl

/-- A job is taken out. -/
theorem jobs_of_pick? (id : UInt64) {e : Entry Job} {rest : Scheduler Job}
    (h : s.scheduler.pick? = some (e, rest)) :
    (view id s).jobs =
      if e.job.concerns id then e ::ₘ (view id { s with scheduler := rest }).jobs
      else (view id { s with scheduler := rest }).jobs :=
  jobs_of_perm id (s := { s with scheduler := rest }) (Scheduler.pick?_entries h)

theorem view_dispatch (s : Orchestrator) (job : Job) (queue : Queue) (delay : UInt64)
    (retry : RetryPolicy) (h : job.concerns id = true) :
    view id (s.dispatch job queue delay retry) =
      { view id s with jobs := { job, queue, retry } ::ₘ (view id s).jobs } := by
  have hjobs := jobs_of_perm id (s.scheduler.dispatch_entries { job, queue, retry }
    delay.toNat) (t := s.dispatch job queue delay retry)
  rw [if_pos h] at hjobs
  exact View.mk.injEq .. |>.mpr ⟨rfl, rfl, rfl, hjobs⟩

theorem view_applyUpdate {server : Server} (h : (view id s).server = some server)
    (u : StatusUpdate) :
    (s.applyUpdate id u).1 = .ok (server.update u) ∧
      (s.applyUpdate id u).2.scheduler = s.scheduler ∧
      view id (s.applyUpdate id u).2 = { view id s with server := some (server.update u) } := by
  unfold Orchestrator.applyUpdate
  rw [Registry.apply_of_get? h]
  refine ⟨rfl, rfl, ?_⟩
  simp only [view, Registry.get?_insert_update h]

/-! ## Changes by others -/

/-- **A change elsewhere**: it leaves the record of the server, the settings, the installers and the
jobs about the server as they are. -/
def Elsewhere (id : UInt64) (s t : Orchestrator) : Prop :=
  s.scheduler.IsFit → t.scheduler.IsFit ∧ view id t = view id s

theorem Elsewhere.refl (s : Orchestrator) : Elsewhere id s s :=
  fun h => ⟨h, rfl⟩

/-- A job queues up. -/
theorem Elsewhere.arrive {w : Waiting Job} (h : w ∈ s.scheduler.waiting) :
    Elsewhere id s { s with scheduler := s.scheduler.arrive w.number } := by
  intro hfit
  have hentries := Scheduler.arrive_entries hfit h
  refine ⟨Scheduler.arrive_isFit hfit h, ?_⟩
  simp only [view, Multiset.coe_eq_coe.mpr (hentries.filter (·.job.concerns id))]

/-- The scheduler holds one more job, about something else. -/
theorem Elsewhere.of_perm {e : Entry Job} (h : e.job.concerns id = false) {r : Scheduler Job}
    (hfit : s.scheduler.IsFit → r.IsFit) (hperm : r.entries.Perm (e :: s.scheduler.entries)) :
    Elsewhere id s { s with scheduler := r } := by
  refine fun hs => ⟨hfit hs, ?_⟩
  have hjobs := jobs_of_perm id (t := { s with scheduler := r }) hperm
  rw [if_neg (by rw [h]; decide)] at hjobs
  exact View.mk.injEq .. |>.mpr ⟨rfl, rfl, rfl, hjobs⟩

/-- A job about something else is given to the scheduler. -/
theorem Elsewhere.dispatch {job : Job} (h : job.concerns id = false) (s : Orchestrator)
    (queue : Queue) (delay : UInt64) (retry : RetryPolicy) :
    Elsewhere id s (s.dispatch job queue delay retry) :=
  .of_perm (e := { job, queue, retry }) h (fun hs => Scheduler.dispatch_isFit hs _ _)
    (s.scheduler.dispatch_entries _ _)

/-- A job about something else is taken. -/
theorem Elsewhere.take {e : Entry Job} {rest : Scheduler Job}
    (h : s.scheduler.pick? = some (e, rest)) (he : e.job.concerns id = false) :
    Elsewhere id s { s with scheduler := rest } := by
  intro hfit
  refine ⟨Scheduler.pick?_isFit hfit h, ?_⟩
  have hjobs := jobs_of_pick? id h
  rw [if_neg (by rw [he]; decide)] at hjobs
  exact View.mk.injEq .. |>.mpr ⟨rfl, rfl, rfl, hjobs.symm⟩

/-- Another server is updated. -/
theorem Elsewhere.applyUpdate {other : UInt64} (h : other ≠ id) (u : StatusUpdate) :
    Elsewhere id s (s.applyUpdate other u).2 := by
  intro hfit
  unfold Orchestrator.applyUpdate Registry.apply
  cases hget : s.registry.get? other with
  | none => exact ⟨hfit, rfl⟩
  | some server =>
    have hid : (server.update u).id ≠ id := by
      rw [(server.update_sameApart u).id, Registry.id_of_get? hget]
      exact h
    refine ⟨hfit, ?_⟩
    simp only [view, Registry.get?_insert_of_ne hid]

/-! ### Passes about another server -/

/-- **To leave a server alone.** Anything else is allowed. -/
def beside (id : UInt64) : Discipline where
  state _ := True
  change := Elsewhere id
  idle := .refl
  call _ _ := True
  answer _ _ _ := True
  lock _ := True

section Beside

variable {other : UInt64} (h : other ≠ id)
include h

theorem beside_apply (u : StatusUpdate) : Keeps (beside id) (Bootstrap.apply other u) :=
  Task.obeys_modifyGet fun _ _ => ⟨.applyUpdate h u, trivial⟩

theorem beside_applyAll (us : List StatusUpdate) :
    Keeps (beside id) (Bootstrap.applyAll other us) := by
  induction us with
  | nil => exact keeps_pure ()
  | cons u us ih => exact keeps_bind (beside_apply h u) fun _ => ih

theorem beside_validate (round : UInt32) :
    Keeps (beside id) (Bootstrap.validate other round) := by
  have hagain : (Job.validate other (round + 1)).concerns id = false := beq_false_of_ne h
  refine keeps_bind (beside_apply h _) fun target => ?_
  refine keeps_bind (keeps_bind_read fun _ checks _ _ => ?_) fun results => ?_
  · exact keeps_bind (t := Task.callAll _) ⟨fun _ _ => trivial, fun _ => trivial⟩ fun _ =>
      keeps_pure _
  refine keeps_bind (beside_applyAll h _) fun _ => ?_
  refine keeps_bind (Task.obeys_clock fun _ => trivial) fun time => ?_
  refine keeps_bind (beside_apply h _) fun _ => ?_
  refine keeps_bind (beside_apply h _) fun _ => ?_
  refine keeps_bind (keeps_modify fun s _ => .refl s) fun _ => ?_
  split
  · refine keeps_modify fun s _ => ?_
    unfold Orchestrator.planRevalidation
    split
    · exact .refl s
    · exact .dispatch hagain s _ _ _
  · exact keeps_pure ()

/-- **A pass about another server**, from its start to its end. -/
theorem beside_attempt {e : Entry Job} {round : UInt32} (he : e.job = .validate other round) :
    (Orchestrator.works.attempt e).Obeys (beside id) fun _ => True := by
  have hfinish : ∀ s counter, Elsewhere id s
      (Orchestrator.works.reschedule .finish (s.tick counter)) :=
    fun s _ hfit => ⟨Scheduler.finish_isFit hfit, rfl⟩
  refine Orchestrator.attempt_obeys ?_ (fun failure => ?_) (fun now result s _ => ?_)
    fun s _ hfit => ⟨Scheduler.finish_isFit hfit, rfl⟩
  · rw [he]
    exact beside_validate h round
  · rw [he]
    rfl
  · have hconcerns : (e.begin now).job.concerns id = false := by
      rw [Entry.begin, he]
      exact beq_false_of_ne h
    unfold Works.settle
    cases result with
    | ok _ => exact hfinish s _
    | error failure =>
      simp only
      split
      · exact hfinish s _
      · split
        · next due _ =>
          exact .of_perm hconcerns (fun hs => Scheduler.delayUntil_isFit hs due _)
            (s.scheduler.delayUntil_entries due _)
        · exact .refl s

end Beside

/-! ## What a process makes of the view -/

section Ends

variable {α β : Type} {found : Component → Except Failure String}

/-- **What a process ends with, and what the view is then.** Between its steps others may do
anything elsewhere. It asks for the time of day, and when it calls servers it checks the components,
which gives what is `found`. Until it has ended, the scheduler holds no job about the server. -/
def Ends (id : UInt64) (found : Component → Except Failure String) (post : α → View → Prop) :
    Process Orchestrator α → View → Prop
  | .done a, v => post a v
  | .atomic update next, v => v.jobs = 0 ∧ ∀ s, s.scheduler.IsFit → view id s = v →
    (update s).scheduler.IsFit ∧ Ends id found post (next s) (view id (update s))
  | .callAll calls next, v => v.jobs = 0 ∧ calls.map (·.2) = v.commands ∧
    Ends id found post (next (v.checked.map found)) v
  | .clock next, v => v.jobs = 0 ∧ ∀ time, Ends id found post (next time) v
  | _, _ => False

theorem Ends.mono {post post' : α → View → Prop} {p : Process Orchestrator α} {v : View}
    (h : Ends id found post p v) (hpost : ∀ a v, post a v → post' a v) :
    Ends id found post' p v := by
  induction p generalizing v with
  | done a => exact hpost a v h
  | atomic update next ih =>
    exact ⟨h.1, fun s hfit hview => ⟨(h.2 s hfit hview).1, ih s (h.2 s hfit hview).2⟩⟩
  | callAll calls next ih => exact ⟨h.1, h.2.1, ih _ h.2.2⟩
  | clock next ih => exact ⟨h.1, fun time => ih time (h.2 time)⟩
  | _ => exact h

theorem Ends.bind {post : β → View → Prop} {p : Process Orchestrator α}
    {f : α → Process Orchestrator β} {v : View}
    (h : Ends id found (fun a => Ends id found post (f a)) p v) :
    Ends id found post (p.bind f) v := by
  induction p generalizing v with
  | done a => exact h
  | atomic update next ih =>
    exact ⟨h.1, fun s hfit hview => ⟨(h.2 s hfit hview).1, ih s (h.2 s hfit hview).2⟩⟩
  | callAll calls next ih => exact ⟨h.1, h.2.1, ih _ h.2.2⟩
  | clock next ih => exact ⟨h.1, fun time => ih time (h.2 time)⟩
  | _ => exact h.elim

/-- A task that succeeds. -/
def Succeeds (id : UInt64) (found : Component → Except Failure String) (post : α → View → Prop)
    (t : Work α) (v : View) : Prop :=
  Ends id found (fun result v => ∃ a, result = .ok a ∧ post a v) t.process v

theorem succeeds_bind {post : β → View → Prop} {t : Work α} {f : α → Work β} {v : View}
    (h : Succeeds id found (fun a => Succeeds id found post (f a)) t v) :
    Succeeds id found post (t >>= f) v := by
  refine Ends.bind (Ends.mono h ?_)
  rintro _ v ⟨a, rfl, ha⟩
  exact ha

theorem succeeds_pure {post : α → View → Prop} {a : α} {v : View} (h : post a v) :
    Succeeds id found post (pure a) v :=
  ⟨a, rfl, h⟩

variable {v : View} (hjobs : v.jobs = 0)
include hjobs

theorem succeeds_apply {post : Server → View → Prop} {server : Server}
    (hserver : v.server = some server) {u : StatusUpdate}
    (h : post (server.update u) { v with server := some (server.update u) }) :
    Succeeds id found post (Bootstrap.apply id u) v := by
  refine ⟨hjobs, ?_⟩
  rintro s hfit rfl
  obtain ⟨hresult, hscheduler, hview⟩ := view_applyUpdate hserver u
  refine ⟨hscheduler ▸ hfit, server.update u, hresult, ?_⟩
  rw [hview]
  exact h

theorem succeeds_applyAll {post : Unit → View → Prop} {server : Server}
    (hserver : v.server = some server) {us : List StatusUpdate}
    (h : post () { v with server := some (server.updateAll us) }) :
    Succeeds id found post (Bootstrap.applyAll id us) v := by
  induction us generalizing v server with
  | nil =>
    refine succeeds_pure ?_
    have hv : { v with server := some server } = v := by rw [← hserver]
    rwa [Server.updateAll, List.foldl_nil, hv] at h
  | cons u us ih => exact succeeds_bind (succeeds_apply hjobs hserver (ih hjobs rfl h))

theorem succeeds_clock {post : Instant → View → Prop} (h : ∀ time, post time v) :
    Succeeds id found post Task.clock v :=
  ⟨hjobs, fun time => ⟨time, rfl, h time⟩⟩

/-- A counter is nothing that the view shows. -/
theorem succeeds_tick {post : Unit → View → Prop} (h : post () v) (counter : Counter) :
    Succeeds id found post (Task.modify (·.tick counter)) v := by
  refine ⟨hjobs, ?_⟩
  rintro s hfit rfl
  exact ⟨hfit, (), rfl, h⟩

/-! ## Checking -/

omit hjobs in
theorem map_installerOf? (s : Orchestrator) (component : Component) :
    (s.installerOf? component).map (·.check component) = (view id s).check? component := by
  unfold Orchestrator.installerOf? View.check?
  by_cases h : s.installable.contains component = true
  · have hview : (view id s).installable.contains component = true := h
    rw [if_pos h, if_pos hview]
    rfl
  · have hview : ¬ (view id s).installable.contains component = true := h
    rw [if_neg h, if_neg hview]
    rfl

/-- **The checks** of all components, and what they find. -/
theorem succeeds_checkAll {post : List (Component × Health) → View → Prop} (target : Server)
    {health : Component → Health} (hhealth : v.health found = health)
    (h : post (Component.installable.map fun component => (component, health component)) v) :
    Succeeds id found post (Bootstrap.checkAll target) v := by
  subst hhealth
  refine ⟨hjobs, ?_⟩
  rintro s hfit rfl
  have hchecks : (Component.installable.map fun component =>
      (component, (s.installerOf? component).map (·.check component))) =
      Component.installable.map fun component => (component, (view id s).check? component) := by
    exact List.map_congr_left fun component _ => by rw [map_installerOf? s component]
  refine ⟨hfit, ?_⟩
  change Ends id found _ (.callAll _ _) _
  rw [hchecks]
  refine ⟨hjobs, (view id s).calls_eq target _, _, rfl, ?_⟩
  rw [← (view id s).healthOf_found found] at h
  exact h

end Ends

/-! ## What a pass reports -/

/-- All components are healthy. -/
def IsHealthy (health : Component → Health) : Prop :=
  ∀ component ∈ Component.installable, (health component).healthy = true

instance (health : Component → Health) : Decidable (IsHealthy health) :=
  inferInstanceAs (Decidable (∀ component ∈ Component.installable, _))

/-- The first component that is not healthy, in the order of installation. -/
def firstFailure? (health : Component → Health) : Option Component :=
  Component.installable.find? fun component => !(health component).healthy

/-- How far the set-up of a server has come after a pass. -/
def verdict (health : Component → Health) : Progress :=
  match firstFailure? health with
  | none => .validated
  | some component => .failed component

/-- The updates of a pass, in order. -/
def findings (health : Component → Health) (time : Instant) : List StatusUpdate :=
  .progress .validating :: (Component.installable.map fun component =>
    .checked component (health component)) ++
      [.completed (firstFailure? health).isNone time, .progress (verdict health)]

/-- **What a pass leaves in the record of a server** whose inspection was `available` before. -/
structure Reports (health : Component → Health) (available : Bool) (server : Server) : Prop where
  installed : ∀ component ∈ Component.installable,
    component.isInstalled server.status = (health component).healthy
  validated : server.status.validated = true ↔ IsHealthy health
  progress : server.progress = verdict health
  details : ∀ component ∈ Component.installable,
    server.status.details.lookup component.name = some (health component)
  appsec : server.status.appsecAvailable = if (health .engine).healthy then available else false

/-- The first result of a check that is not healthy. -/
theorem find?_unhealthy (health : Component → Health) :
    ((Component.installable.map fun component => (component, health component)).find?
      fun x => !x.2.healthy).map (·.1) = firstFailure? health := by
  rw [List.find?_map, Option.map_map]
  exact congrFun Option.map_id _

theorem firstFailure?_eq_none_iff {health : Component → Health} :
    firstFailure? health = none ↔ IsHealthy health := by
  rw [firstFailure?, List.find?_eq_none, IsHealthy]
  simp only [Bool.not_eq_true', Bool.not_eq_false]

/-- The results of checks of several components, each in its place. -/
theorem lookup_details (health : Component → Health) (component : Component)
    (components : List Component) (server : Server) :
    (server.updateAll (components.map fun c => .checked c (health c))).status.details.lookup
        component.name =
      if component ∈ components then some (health component)
      else server.status.details.lookup component.name := by
  induction components generalizing server with
  | nil => rfl
  | cons c components ih =>
    have hchecked : (server.update (.checked c (health c))).status.details.lookup component.name =
        if component = c then some (health component)
        else server.status.details.lookup component.name := by
      have hdetails : (server.update (.checked c (health c))).status.details =
          insertHealth c.name (health c) server.status.details := by
        rw [Server.update, Status.check, Component.details_mark]
      rw [hdetails]
      split
      · next heq => rw [heq, lookup_insertHealth_self]
      · next hne =>
        exact lookup_insertHealth_of_ne (fun hname => hne (Component.name_injective hname)) _ _
    rw [List.map_cons, Server.updateAll, List.foldl_cons, ← Server.updateAll, ih, hchecked]
    by_cases hmem : component ∈ components <;> by_cases heq : component = c <;> simp [hmem, heq]

theorem reports_findings (health : Component → Health) (time : Instant) (server : Server) :
    Reports health server.status.appsecAvailable (server.updateAll (findings health time)) where
  installed component h := by
    simp only [Component.installable, List.mem_cons, List.not_mem_nil, or_false] at h
    rcases h with rfl | rfl | rfl | rfl | rfl <;> rfl
  validated := by
    rw [← firstFailure?_eq_none_iff, ← Option.isNone_iff_eq_none]
    rfl
  progress := rfl
  details component h := by
    have hlookup := lookup_details health component Component.installable
      (server.update (.progress .validating))
    rw [if_pos h] at hlookup
    exact hlookup
  appsec := by
    change ((health .engine).healthy && server.status.appsecAvailable) = _
    cases (health .engine).healthy <;> rfl

/-! ## A pass as a job -/

section Pass

variable {found : Component → Except Failure String} {v : View} {server : Server} {round : UInt32}

/-- The job of the pass after one of a round. -/
def again (id : UInt64) (round : UInt32) : Entry Job where
  job := .validate id (round + 1)
  queue := .security
  retry := .single

/-- What a pass of a round makes of the view: its findings are reported, and it is repeated if
something is wrong and the limit is not reached. -/
structure Leaves (id : UInt64) (found : Component → Except Failure String) (round : UInt32)
    (v : View) (server : Server) (w : View) : Prop where
  server : ∃ reported, w.server = some reported ∧
    Reports (v.health found) server.status.appsecAvailable reported
  settings : w.settings = v.settings
  installable : w.installable = v.installable
  last : IsHealthy (v.health found) ∨ v.settings.bootstrap.maxRevalidations ≤ round → w.jobs = 0
  repeated : ¬ IsHealthy (v.health found) → round < v.settings.bootstrap.maxRevalidations →
    w.jobs = {again id round}

/-- The end of a pass that found something wrong. -/
theorem succeeds_planRevalidation (hunhealthy : ¬ IsHealthy (v.health found)) {w : View}
    (hserver : ∃ reported, w.server = some reported ∧
      Reports (v.health found) server.status.appsecAvailable reported)
    (hsettings : w.settings = v.settings) (hinstallable : w.installable = v.installable)
    (hjobs : w.jobs = 0) :
    Succeeds id found (fun _ => Leaves id found round v server)
      (Task.modify (·.planRevalidation id round)) w := by
  refine ⟨hjobs, ?_⟩
  rintro s hfit rfl
  have hmax : s.settings.bootstrap.maxRevalidations = v.settings.bootstrap.maxRevalidations :=
    congrArg (·.bootstrap.maxRevalidations) hsettings
  suffices hplanned : (s.planRevalidation id round).scheduler.IsFit ∧
      Leaves id found round v server (view id (s.planRevalidation id round)) from
    ⟨hplanned.1, (), rfl, hplanned.2⟩
  unfold Orchestrator.planRevalidation
  split
  · next hlimit =>
    refine ⟨hfit, hserver, hsettings, hinstallable, fun _ => hjobs, fun _ hround => ?_⟩
    exact absurd (hmax ▸ hlimit) (UInt32.not_le.mpr hround)
  · next hlimit =>
    refine ⟨Scheduler.dispatch_isFit hfit _ _, ?_⟩
    rw [view_dispatch s (.validate id (round + 1)) _ _ _ (beq_self_eq_true id)]
    refine ⟨hserver, hsettings, hinstallable, fun hlast => ?_, fun _ _ => ?_⟩
    · exact absurd (hmax ▸ hlast.resolve_left hunhealthy) hlimit
    · rw [hjobs]
      rfl

/-- **A pass** succeeds. -/
theorem succeeds_validate (hserver : v.server = some server) (hjobs : v.jobs = 0) :
    Succeeds id found (fun _ => Leaves id found round v server)
      (Bootstrap.validate id round) v := by
  have hhealth : ∀ server, View.health { v with server } found = v.health found := fun _ => rfl
  have hnone : ∀ server, View.jobs { v with server } = 0 := fun _ => hjobs
  refine succeeds_bind (succeeds_apply hjobs hserver (succeeds_bind ?_))
  refine succeeds_checkAll (hnone _) _ (hhealth _) (succeeds_bind ?_)
  refine succeeds_applyAll (hnone _) rfl ?_
  simp only [find?_unhealthy]
  refine succeeds_bind (succeeds_clock (hnone _) fun time => succeeds_bind ?_)
  refine succeeds_apply (hnone _) rfl (succeeds_bind (succeeds_apply (hnone _) rfl ?_))
  refine succeeds_bind (succeeds_tick (hnone _) ?_ _)
  have hreports := reports_findings (v.health found) time server
  by_cases hhealthy : IsHealthy (v.health found)
  · have hfailure := firstFailure?_eq_none_iff.mpr hhealthy
    rw [if_neg (by simp [hfailure])]
    exact succeeds_pure ⟨⟨_, rfl, hreports⟩, rfl, rfl, fun _ => hjobs, fun h => absurd hhealthy h⟩
  · have hfailure := mt firstFailure?_eq_none_iff.mp hhealthy
    rw [if_pos (by simpa [Option.isSome_iff_ne_none] using hfailure)]
    exact succeeds_planRevalidation hhealthy ⟨_, rfl, hreports⟩ rfl rfl (hnone _)

/-! ### From the queue to the end -/

/-- A pass up to its result. -/
def work (e : Entry Job) : Process Orchestrator (Entry Job × Except Failure Unit) :=
  (Process.read fun s => e.begin s.scheduler.now).bind fun e =>
    (Orchestrator.handle e.job e.attempts).process.bind fun result => .done (e, result)

/-- What is done with a result. -/
def conclude : Entry Job × Except Failure Unit → Process Orchestrator Unit
  | (e, result) => (Process.modifyGet (Orchestrator.works.settle e result)).bind fun
    | none => .done ()
    | some failure => (Orchestrator.works.failed e.job failure).bind fun _ =>
      Process.modify (Orchestrator.works.reschedule .finish)

theorem attempt_eq (e : Entry Job) : Orchestrator.works.attempt e = (work e).bind conclude := by
  rw [work, Process.bind_assoc]
  refine congrArg (Process.bind _) (funext fun e => ?_)
  rw [Process.bind_assoc]
  rfl

/-- **A pass never fails**, and leaves its findings. -/
theorem ends_work {e : Entry Job} (he : e.job = .validate id round)
    (hserver : v.server = some server) (hjobs : v.jobs = 0) :
    Ends id found (fun x w => x.2 = .ok () ∧ Leaves id found round v server w) (work e) v := by
  refine Ends.bind ⟨hjobs, ?_⟩
  rintro s hfit rfl
  refine ⟨hfit, Ends.bind ?_⟩
  have hjob : (e.begin s.scheduler.now).job = .validate id round := he
  rw [hjob]
  refine (succeeds_validate hserver hjobs).mono ?_
  rintro _ w ⟨_, rfl, hw⟩
  exact ⟨rfl, hw⟩

/-- What has nothing more to do than to change things elsewhere. -/
inductive Trails (id : UInt64) : Process Orchestrator Unit → Prop
  | done : Trails id (.done ())
  | atomic {update : Orchestrator → Orchestrator} {next : Orchestrator → Process Orchestrator Unit}
    (h : ∀ s, Elsewhere id s (update s)) (hnext : ∀ s, Trails id (next s)) :
    Trails id (.atomic update next)

/-- **After a pass** only the end of the job is noted. -/
theorem trails_conclude (e : Entry Job) : Trails id (conclude (e, .ok ())) :=
  .atomic (fun _ hfit => ⟨Scheduler.finish_isFit hfit, rfl⟩) fun _ => .done

end Pass

end Validation

end Rampart
