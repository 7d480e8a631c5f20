import Mathlib.Logic.Relation
import Rampart.Net.Network
import Rampart.Proofs.Deployment.BanConvergence
import Rampart.Proofs.Deployment.Quiet

/-!
# What is lifted

A job that lifts decisions carries those that were stale when it was planned, and lifts whatever
the engine lists for their addresses under their reason. By then the rule may have changed, and an
engine also lists the networks that an address is in.

* `Orchestrator.Drops`: the decisions that are stale when an event is handled.
* `Job.Lifts`: jobs that lift nothing but such decisions; **`handleEvent_lifts`**, `resync_lifts`:
  no others are planned.
* `Numbered`: an engine by whose numbers decisions can be told apart at all times.
* `keeping`, `lifting`: what jobs do that lift nothing, and those that lift decisions.
* **`Tame.step`**: every step keeps to that.
* **`dropped_of_lifted`**: whatever is lifted in a run covers an address that was dropped before.
-/

namespace Rampart

open Execution

/-! ## What is planned -/

namespace Orchestrator

/-- A rule in force calls for a ban of a value, for a reason. -/
def Wants (s : Orchestrator) (value reason : String) : Prop :=
  ∃ firewall c rule d, s.contextOf firewall = .ok c ∧ c.firewall.isActive = true ∧
    rule ∈ c.banRules ∧ d ∈ s.bansOf c rule ∧ d.ip = value ∧ d.reason = reason

/-- **A decision that is dropped** when an event is handled: it belongs to an earlier version of a
rule, and its address is not one of the version that is in force; or to a rule that was deleted. -/
inductive Drops (s : Orchestrator) : RuleEvent → Decision → Prop
  | edited {id firewall : UInt64} {previous : Option Rule} {c : Context} {rule old : Rule}
    {d : Decision} (hc : s.contextOf firewall = .ok c) (hrule : c.rule? id = some rule)
    (hold : liftedFrom? rule previous = some old) (hd : d ∈ s.bansOf c old)
    (hnot : (rule.isBan && rule.enabled) = true → ∀ w ∈ s.bansOf c rule, w.ip ≠ d.ip) :
    Drops s (.saved id firewall previous) d
  | deleted {firewall : UInt64} {c : Context} {rule : Rule} {d : Decision}
    (hc : s.contextOf firewall = .ok c) (hban : rule.isBan = true) (hd : d ∈ s.bansOf c rule) :
    Drops s (.deleted rule firewall) d

end Orchestrator

/-- A job of the deployment that lifts nothing but decisions that were dropped. -/
def Job.Lifts (dropped : Decision → Prop) : Job → Prop
  | .removeDecisions _ ds => ∀ d ∈ ds, dropped d
  | job => job.IsDeployment

theorem Job.Lifts.mono {dropped dropped' : Decision → Prop} {job : Job} (h : job.Lifts dropped)
    (hdropped : ∀ d, dropped d → dropped' d) : job.Lifts dropped' := by
  cases job with
  | removeDecisions _ ds => exact fun d hd => hdropped d (h d hd)
  | _ => exact h

theorem Job.Lifts.isDeployment {dropped : Decision → Prop} {job : Job} (h : job.Lifts dropped) :
    job.IsDeployment := by
  cases job with
  | removeDecisions _ _ => trivial
  | _ => exact h

namespace Orchestrator

theorem lifts_of_mem_removalJobs {dropped : Decision → Prop} {server : UInt64} {ds : List Decision}
    (hds : ∀ d ∈ ds, dropped d) {job : Job} (h : job ∈ removalJobs server ds) :
    job.Lifts dropped := by
  unfold removalJobs at h
  split at h
  · cases h
  · rw [List.mem_singleton.mp h]
    exact hds

/-- **What is planned for an event** lifts only what is dropped then. -/
theorem handleEvent_lifts (s : Orchestrator) (e : RuleEvent) :
    ∃ added, Plans s (s.handleEvent e).2 added ∧ ∀ job ∈ added, job.Lifts (s.Drops e) := by
  have hnothing : ∃ added, Plans s s added ∧ ∀ job ∈ added, job.Lifts (s.Drops e) :=
    ⟨[], .refl s, nofun⟩
  cases hc : s.contextOf e.firewall with
  | error failure =>
    simp only [handleEvent, hc]
    exact hnothing
  | ok c => cases e with
    | saved id firewall previous =>
      have hc : s.contextOf firewall = .ok c := hc
      rw [handleEvent_saved hc]
      split
      · exact hnothing
      · split
        · rename_i rule hrule
          refine ⟨_, planSave_plans s c firewall rule previous, fun job hjob => ?_⟩
          rcases List.mem_append.mp hjob with hjob | hjob
          · rcases List.mem_append.mp hjob with hjob | hjob
            · split at hjob
              · rw [List.mem_singleton.mp hjob]
                trivial
              · cases hjob
            · split at hjob
              · rw [List.mem_singleton.mp hjob]
                trivial
              · cases hjob
          · refine lifts_of_mem_removalJobs (fun d hd => ?_) hjob
            obtain ⟨old, hold, hd, hnot⟩ := mem_staleOf_iff.mp hd
            refine .edited hc hrule hold hd fun hforce w hw => hnot w ?_
            rwa [if_pos hforce]
        · exact hnothing
    | deleted rule firewall =>
      have hc : s.contextOf firewall = .ok c := hc
      rw [handleEvent_deleted hc]
      split
      · exact hnothing
      · refine ⟨_, planDelete_plans s c firewall rule, fun job hjob => ?_⟩
        rcases List.mem_cons.mp hjob with rfl | hjob
        · trivial
        · refine lifts_of_mem_removalJobs (fun d hd => ?_) hjob
          split at hd
          · rename_i hban
            exact .deleted hc hban hd
          · cases hd
    | firewallChanged firewall =>
      have hc : s.contextOf firewall = .ok c := hc
      rw [handleEvent_firewallChanged hc]
      split
      · refine ⟨_, planProvision_plans s firewall, fun job hjob => ?_⟩
        rw [List.mem_singleton.mp hjob]
        trivial
      · split
        · exact hnothing
        · refine ⟨_, planSync_plans s firewall true, fun job hjob => ?_⟩
          rw [List.mem_singleton.mp hjob]
          trivial

/-- **What is planned when events were lost** lifts nothing. -/
theorem resync_lifts (dropped : Decision → Prop) (s : Orchestrator) :
    ∃ added, Plans s s.resync.2 added ∧ ∀ job ∈ added, job.Lifts dropped := by
  have hall : ∀ (ids : List UInt64) (plan : Planned) (before : List Job), Plans s plan.2 before →
      (∀ job ∈ before, job.Lifts dropped) →
      ∃ added, Plans s (ids.foldl (fun plan id => planBoth plan (·.resyncOne id)) plan).2 added ∧
        ∀ job ∈ added, job.Lifts dropped := by
    intro ids
    induction ids with
    | nil => exact fun plan before hplans hbefore => ⟨before, hplans, hbefore⟩
    | cons id ids ih =>
      intro plan before hplans hbefore
      refine ih (planBoth plan (·.resyncOne id)) _
        (hplans.trans (resyncOne_plans plan.2 id)) fun job hjob => ?_
      rcases List.mem_append.mp hjob with hjob | hjob
      · rcases mem_resyncJobs hjob with ⟨rfl, _⟩ | rfl | ⟨rule, rfl⟩ <;> trivial
      · exact hbefore job hjob
  exact hall s.store.firewallIds ([], s) [] (.refl s) nofun

end Orchestrator

/-! ## Changes of the state -/

namespace Bans

open Orchestrator

/-- **A change of the state** in which no jobs are added but such that lift what was dropped. -/
structure Adds (dropped : Decision → Prop) (s t : Orchestrator) : Prop where
  settings : t.settings = s.settings
  jobs : ∃ added, t.jobs.Perm (added ++ s.jobs) ∧ ∀ job ∈ added, job.Lifts dropped
  fit : s.scheduler.IsFit → t.scheduler.IsFit

namespace Adds

variable {dropped : Decision → Prop} {s t : Orchestrator}

theorem lifts (h : Adds dropped s t) (hs : ∀ job ∈ s.jobs, job.Lifts dropped) :
    ∀ job ∈ t.jobs, job.Lifts dropped := by
  obtain ⟨added, hperm, hadded⟩ := h.jobs
  intro job hjob
  rcases List.mem_append.mp (hperm.mem_iff.mp hjob) with hjob | hjob
  · exact hadded job hjob
  · exact hs job hjob

theorem of_unnoticed (h : Unnoticed s t) : Adds dropped s t := by
  obtain ⟨added, hperm, hadded⟩ := h.jobs
  refine ⟨h.settings, ⟨added, hperm, fun job hjob => ?_⟩, h.fit⟩
  have hspares := hadded job hjob
  cases job with
  | sync _ _ => trivial
  | reloadBouncers _ => trivial
  | _ => exact hspares.elim

theorem refl (s : Orchestrator) : Adds dropped s s := .of_unnoticed (.refl s)

/-- A change of anything but the settings and the scheduler. -/
theorem of_eq (hsettings : t.settings = s.settings) (hscheduler : t.scheduler = s.scheduler) :
    Adds dropped s t := by
  refine ⟨hsettings, ⟨[], ?_, nofun⟩, hscheduler ▸ id⟩
  rw [Orchestrator.jobs, hscheduler]
  exact .refl _

theorem of_plans {added : List Job} (h : Plans s t added)
    (hadded : ∀ job ∈ added, job.Lifts dropped) : Adds dropped s t := by
  refine ⟨?_, ⟨added, h.jobs, hadded⟩, h.fit⟩
  obtain ⟨_, _, rfl⟩ := h.frame
  rfl

/-- A job may be done again. -/
theorem settle {e : Entry Job} (h : e.job.Lifts dropped) (result : Except Failure Unit)
    (s : Orchestrator) : Adds dropped s (Orchestrator.works.settle e result s).2 := by
  rcases Unnoticed.settle_cases e result s with ⟨hunnoticed, _⟩ | ⟨due, _, heq⟩
  · exact .of_unnoticed hunnoticed
  · rw [heq]
    have hentries := (Scheduler.delayUntil_entries s.scheduler due e).map (·.job)
    refine ⟨rfl, ⟨[e.job], hentries, fun job hjob => ?_⟩,
      fun hfit => Scheduler.delayUntil_isFit hfit due e⟩
    rw [List.mem_singleton.mp hjob]
    exact h

theorem recordBouncer (s : Orchestrator) (firewall : UInt64) (name key : String) :
    Adds dropped s (s.recordBouncer firewall name key).2 := by
  unfold Orchestrator.recordBouncer Orchestrator.commit
  split
  · exact .of_eq rfl rfl
  · exact .refl s

theorem perform (s : Orchestrator) (r : Request) : Adds dropped s (r.perform s).2 := by
  cases r with
  | save uuid rule =>
    rcases hsave : s.store.saveRule s.settings.scenarios uuid rule with ⟨result, counter, store⟩
    simp only [Request.perform, hsave]
    cases counter with
    | none => exact .of_eq rfl rfl
    | some counter => exact .of_eq rfl rfl
  | delete uuid id =>
    simp only [Request.perform]
    split
    · exact .of_eq rfl rfl
    · exact .refl s
  | update uuid u =>
    simp only [Request.perform]
    split
    · exact .of_eq rfl rfl
    · exact .refl s

end Adds

/-- The service reads an event. -/
def Hears (s : Orchestrator) (e : RuleEvent) : Prop :=
  (s.ruleBus.next Simulation.deployer).1 = .event e

/-- **What is heard** leads to no jobs but such that lift what is dropped then. -/
theorem hearRule_adds {dropped : Decision → Prop} {s : Orchestrator}
    (h : ∀ e, Hears s e → ∀ d, s.Drops e d → dropped d) :
    Adds dropped s (Simulation.World.hearRule s) := by
  rcases hnext : s.ruleBus.next Simulation.deployer with ⟨received, ruleBus⟩
  -- Reading changes nothing that planning depends on.
  have hread : ∀ {t : Orchestrator} {added : List Job}, Plans { s with ruleBus } t added →
      (∀ job ∈ added, job.Lifts dropped) → Adds dropped s t := fun hplans hadded =>
    let hafter := Adds.of_plans hplans hadded
    ⟨hafter.settings, hafter.jobs, hafter.fit⟩
  simp only [Simulation.World.hearRule, hnext]
  cases received with
  | event e =>
    obtain ⟨added, hplans, hadded⟩ := handleEvent_lifts { s with ruleBus } e
    refine hread hplans fun job hjob => (hadded job hjob).mono fun d hd => ?_
    refine h e (congrArg Prod.fst hnext) d ?_
    cases hd with
    | edited hc hrule hold hd hnot => exact .edited hc hrule hold hd hnot
    | deleted hc hban hd => exact .deleted hc hban hd
  | lagged _ =>
    obtain ⟨added, hplans, hadded⟩ := resync_lifts dropped { s with ruleBus }
    exact hread hplans hadded
  | waiting => exact .of_eq rfl rfl
  | closed => exact .of_eq rfl rfl

/-! ## Engines -/

variable {ρ : Type}

/-- What may become of the servers, sooner or later. -/
abbrev Later (o : Outside ρ) : ρ → ρ → Prop :=
  Relation.ReflTransGen fun x y => ∃ server c answer, o.answers server c x answer y

/-- **An engine by whose numbers decisions can be told apart**; `held` are the decisions of every
server. A number never means another decision. What is listed for an address is held, and its value
`covers` the address. A decision goes only when its number is lifted. -/
structure Numbered (engine : Engine.Client) (o : Outside ρ)
    (held : ρ → UInt64 → List Engine.Decision) (covers : String → String → Bool) : Prop where
  numbers : ∀ x y server, Later o x y → ∀ e ∈ held x server, ∀ f ∈ held y server, e.id = f.id →
    e.value = f.value ∧ e.scenario = f.scenario
  list : ∀ server ip x output y, o.answers server (.run [engine.listCommand ip]) x (.ok output) y →
    ∀ ds, Engine.decisionsIn output = some ds → ∀ e ∈ ds, ∃ f ∈ held x server.id,
      f.id = e.id ∧ f.scenario = e.scenario ∧ covers ip f.value = true
  remove : ∀ server id x answer y, o.answers server (.run [engine.removeCommand id]) x answer y →
    ∀ other, ∀ e ∈ held x other, (other = server.id → e.id ≠ id) → e ∈ held y other
  others : ∀ server c x answer y, (∀ id, c ≠ .run [engine.removeCommand id]) →
    o.answers server c x answer y → ∀ other, ∀ e ∈ held x other, e ∈ held y other

/-- Whatever is lifted covers an address that was dropped, for the same reason. -/
def LiftsOnly (held : ρ → UInt64 → List Engine.Decision) (covers : String → String → Bool)
    (dropped : Decision → Prop) (x y : ρ) : Prop :=
  ∀ server, ∀ e ∈ held x server, e ∉ held y server →
    ∃ d, dropped d ∧ d.reason = e.scenario ∧ covers d.ip e.value = true

/-! ## Jobs that lift nothing -/

/-- The discipline of those who lift no decisions. -/
def keeping (settings : Settings) (dropped : Decision → Prop) : Discipline where
  state s := s.settings = settings
  change := Adds dropped
  idle := Adds.refl
  call _ c := ∀ id, c ≠ .run [Engine.Client.removeCommand ⟨settings.engine⟩ id]
  answer _ _ _ := True
  lock _ := True

namespace Keeping

variable {settings : Settings} {dropped : Decision → Prop}

theorem engine_eq {s : Orchestrator} (hs : (keeping settings dropped).state s) :
    s.engine = ⟨settings.engine⟩ := by
  have hs : s.settings = settings := hs
  rw [Orchestrator.engine, hs]

theorem upkeep : (keeping settings dropped).Upkeep :=
  ⟨fun s _ _ _ => .of_unnoticed (.count s _ _), fun s _ _ => .of_unnoticed (.dispatchReload s _)⟩

theorem call_of_spares {server : Server} {c : Remote.Call}
    (h : SparesBans ⟨settings.engine⟩ c) : (keeping settings dropped).call server c :=
  fun _ => h _

/-- A command of the engine's client tells its arguments. -/
theorem command_inj {engine : Engine.Client} {first second : List String}
    (h : engine.command first = engine.command second) : first = second := by
  have hsplit : ∀ arguments, Text.Word.split (engine.command arguments) =
      some (engine.words arguments) := fun _ => Text.Word.split_line _
  have hwords := (hsplit first).symm.trans (h ▸ hsplit second)
  exact List.append_cancel_left (Option.some.inj hwords)

theorem listCommand_ne (ip : String) (id : UInt64) :
    Remote.Call.run [Engine.Client.listCommand ⟨settings.engine⟩ ip] ≠
      .run [Engine.Client.removeCommand ⟨settings.engine⟩ id] :=
  fun heq => absurd (List.cons.inj (List.cons.inj (command_inj
    (List.head_eq_of_cons_eq (Remote.Call.run.inj heq)))).2).1 (by decide)

theorem addCommand_ne (d : Decision) (id : UInt64) :
    Remote.Call.run [Engine.Client.addCommand ⟨settings.engine⟩ d] ≠
      .run [Engine.Client.removeCommand ⟨settings.engine⟩ id] :=
  fun heq => absurd (List.cons.inj (List.cons.inj (command_inj
    (List.head_eq_of_cons_eq (Remote.Call.run.inj heq)))).2).1 (by decide)

theorem lists {s : Orchestrator} (hs : (keeping settings dropped).state s) :
    (keeping settings dropped).Lists s.engine := by
  rw [engine_eq hs]
  exact fun _ => listCommand_ne

theorem makes {s : Orchestrator} (hs : (keeping settings dropped).state s) :
    (keeping settings dropped).Makes s.engine := by
  rw [engine_eq hs]
  exact fun _ => addCommand_ne

/-- What the jobs do that lift no decisions. -/
theorem handle {job : Job} (hjob : job.IsDeployment)
    (hnot : ∀ server ds, job ≠ .removeDecisions server ds) (attempt : Nat) :
    Deploy.Keeps (keeping settings dropped) (Orchestrator.handle job attempt) := by
  cases job with
  | sync firewall generation =>
    refine Deploy.sync_keeps generation upkeep (fun s _ c files _ _ => ?_) (fun s hs server => ?_)
      fun s _ => .of_unnoticed (.takeRedeploy s firewall)
    · exact Sparing.mayReplace (fun _ => trivial) (fun _ _ => call_of_spares) _ _ _ _
    · rw [engine_eq hs]
      exact call_of_spares (Sparing.sparesBans_reload _)
  | applyDecisions firewall rule =>
    exact Deploy.applyDecisions_keeps (fun _ => lists) (fun _ => makes) upkeep firewall rule
  | removeDecisions server ds => exact absurd rfl (hnot server ds)
  | provision firewall =>
    refine Deploy.provision_keeps upkeep (fun s hs server name key => ?_)
      fun s _ name key => .recordBouncer s firewall name key
    intro id heq
    cases (List.cons.inj (Remote.Call.run.inj heq)).2
  | reloadBouncers server =>
    exact Deploy.reloadBouncers_keeps (fun _ _ _ _ _ heq => by cases heq) server
  | _ => exact hjob.elim

end Keeping

/-! ## Jobs that lift decisions -/

/-- What those do who lift nothing but what was dropped, whatever happens beside them. -/
def lifting (settings : Settings) (o : Outside ρ) (held : ρ → UInt64 → List Engine.Decision)
    (covers : String → String → Bool) (dropped : Decision → Prop) : Contract ρ where
  state s := s.settings = settings
  change := Adds dropped
  idle := Adds.refl
  sound _ := True
  rely := Later o
  refl _ := .refl
  trans _ _ _ := .trans
  guarantee := LiftsOnly held covers dropped
  still _ _ _ he hgone := absurd he hgone

section

variable {settings : Settings} {o : Outside ρ} {held : ρ → UInt64 → List Engine.Decision}
  {covers : String → String → Bool} {dropped : Decision → Prop}

/-- A decision that was listed for an address. -/
def Listed (o : Outside ρ) (held : ρ → UInt64 → List Engine.Decision)
    (covers : String → String → Bool) (server : Server) (ip : String) (y : ρ)
    (e : Engine.Decision) : Prop :=
  ∃ x, Later o x y ∧ ∃ f ∈ held x server.id, f.id = e.id ∧ f.scenario = e.scenario ∧
    covers ip f.value = true

theorem Listed.later {server : Server} {ip : String} {x y : ρ} {e : Engine.Decision}
    (h : Listed o held covers server ip x e) (hxy : Later o x y) :
    Listed o held covers server ip y e := by
  obtain ⟨before, hbefore, hf⟩ := h
  exact ⟨before, hbefore.trans hxy, hf⟩

theorem later_of_answers {server : Server} {c : Remote.Call} {x y : ρ}
    {answer : Except Failure String} (h : o.answers server c x answer y) : Later o x y :=
  .single ⟨server, c, answer, h⟩

variable (hnumbered : Numbered ⟨settings.engine⟩ o held covers)

include hnumbered

theorem liftsOnly_of_keeping {server : Server} {c : Remote.Call} {x y : ρ}
    {answer : Except Failure String}
    (hc : ∀ id, c ≠ .run [Engine.Client.removeCommand ⟨settings.engine⟩ id])
    (h : o.answers server c x answer y) : LiftsOnly held covers dropped x y :=
  fun other e he hgone => absurd (hnumbered.others server c x answer y hc h other e he) hgone

theorem decisions_listed (server : Server) (ip : String) (x : ρ) :
    (Engine.Client.decisions ⟨settings.engine⟩ server ip).Yields
      (lifting settings o held covers dropped) o
      (fun es y => ∀ e ∈ es, Listed o held covers server ip y e) x := by
  refine Task.yields_bind (Task.yields_run fun y _ _ answer z ha => ?_)
  have hkept : LiftsOnly held covers dropped y z :=
    liftsOnly_of_keeping hnumbered (Keeping.listCommand_ne ip) ha
  refine ⟨hkept, trivial, fun output houtput => Task.yields_ofExcept fun es hes e he => ?_⟩
  split at hes
  · rename_i ds hparsed
    obtain rfl := Except.ok.inj hes
    rw [houtput] at ha
    exact ⟨y, later_of_answers ha, hnumbered.list server ip y output z ha _ hparsed e he⟩
  · cases hes

/-- What was listed is lifted if it has the reason. -/
theorem removeListed_lifts {d : Decision} (hd : dropped d) (server : Server)
    {es : List Engine.Decision} {x : ρ} (hes : ∀ e ∈ es, Listed o held covers server d.ip x e) :
    (Deploy.removeListed ⟨settings.engine⟩ server d.reason es).Yields
      (lifting settings o held covers dropped) o (fun _ _ => True) x := by
  induction es generalizing x with
  | nil => exact Task.yields_pure trivial
  | cons e es ih =>
    have hrest : ∀ f ∈ es, Listed o held covers server d.ip x f := fun f hf =>
      hes f (List.mem_cons_of_mem e hf)
    unfold Deploy.removeListed
    split
    · rename_i hreason
      refine Task.yields_bind (Task.yields_bind (Task.yields_run fun y hxy _ answer z ha => ?_))
      have hyz := later_of_answers ha
      refine ⟨fun other g hg hgone => ?_, trivial, fun _ _ => Task.yields_pure ?_⟩
      · -- What goes has the number that was listed, so it is what was listed.
        by_cases hother : other = server.id ∧ g.id = e.id
        · obtain ⟨rfl, hid⟩ := hother
          obtain ⟨before, hbefore, f, hf, hfe, hscenario, hcovers⟩ :=
            (hes e List.mem_cons_self).later hxy
          obtain ⟨hvalue, hsame⟩ :=
            hnumbered.numbers before y server.id hbefore f hf g hg (hfe.trans hid.symm)
          exact ⟨d, hd, hreason.symm.trans (hscenario.symm.trans hsame), hvalue ▸ hcovers⟩
        · refine absurd (hnumbered.remove server e.id y answer z ha other g hg ?_) hgone
          exact fun hserver hid => hother ⟨hserver, hid⟩
      · exact ih fun f hf => (hrest f hf).later (hxy.trans hyz)
    · exact Task.yields_bind (Task.yields_pure (ih hrest))

theorem removeAll_lifts {ds : List Decision} (hds : ∀ d ∈ ds, dropped d) (server : Server)
    (x : ρ) :
    (Deploy.removeAll ⟨settings.engine⟩ server ds).Yields
      (lifting settings o held covers dropped) o (fun _ _ => True) x := by
  induction ds generalizing x with
  | nil => exact Task.yields_pure trivial
  | cons d ds ih =>
    refine Task.yields_bind ((decisions_listed hnumbered server d.ip x).mono fun es y hes => ?_)
    refine Task.yields_bind ((removeListed_lifts hnumbered (hds d List.mem_cons_self) server
      hes).mono fun _ z _ => ?_)
    exact ih (fun d' hd' => hds d' (List.mem_cons_of_mem d hd')) z

theorem removeDecisions_lifts {ds : List Decision} (hds : ∀ d ∈ ds, dropped d) (server : UInt64)
    (x : ρ) :
    (Deploy.removeDecisions server ds).Yields (lifting settings o held covers dropped) o
      (fun _ _ => True) x := by
  refine Task.yields_bind (Task.yields_read fun s a hs ha => ?_)
  obtain ⟨target, engine⟩ := a
  obtain ⟨_, _, ha⟩ := Except.bind_eq_ok_iff.mp ha
  obtain ⟨rfl, rfl⟩ := Prod.mk.inj (Except.ok.inj ha)
  rw [@Keeping.engine_eq _ dropped _ hs]
  exact removeAll_lifts hnumbered hds _ x

/-! ## Workers -/

omit hnumbered in
/-- The end of an attempt. -/
theorem ending_meets {k : Contract ρ} {e : Entry Job} {result : Except Failure Unit}
    (hfailed : ∀ failure, Orchestrator.failed e.job failure = .done ())
    (hsettle : ∀ s, k.state s → k.change s (works.settle e result s).2)
    (hfinish : ∀ s, k.state s → k.change s (works.reschedule .finish s)) (x : ρ) :
    (ending e result).Meets k o (fun _ _ => True) x := by
  intro s hs
  refine ⟨hsettle s hs, ?_⟩
  cases hreport : (works.settle e result s).1 with
  | none =>
    simp only [hreport]
    trivial
  | some failure =>
    have hnothing : works.failed e.job failure = .done () := hfailed failure
    simp only [hreport, hnothing]
    exact fun t ht => ⟨hfinish t ht, trivial⟩

/-- A worker who lifts nothing but what was dropped. -/
def IsTame (settings : Settings) (o : Outside ρ) (held : ρ → UInt64 → List Engine.Decision)
    (covers : String → String → Bool) (dropped : Decision → Prop) (p : Process Orchestrator Unit)
    (x : ρ) : Prop :=
  (p.Obeys (keeping settings dropped) fun _ => True) ∨
    p.Meets (lifting settings o held covers dropped) o (fun _ _ => True) x

/-- **An attempt** lifts nothing but what was dropped. -/
theorem attempt_isTame {e : Entry Job} (h : e.job.Lifts dropped) (x : ρ) :
    IsTame settings o held covers dropped (works.attempt e) x := by
  have hfailed := Quiet.failed_eq h.isDeployment
  have hsettle : ∀ now result s, Adds dropped s (works.settle (e.begin now) result s).2 :=
    fun now result s => .settle (e := e.begin now) h result s
  have hfinish : ∀ s, Adds dropped s (works.reschedule .finish s) := fun s =>
    .of_unnoticed (.finish s)
  by_cases hlifts : ∃ server ds, e.job = .removeDecisions server ds
  · obtain ⟨server, ds, hjob⟩ := hlifts
    have hds : ∀ d ∈ ds, dropped d := by
      rw [hjob] at h
      exact h
    refine .inr ?_
    rw [attempt_eq]
    refine fun s _ => ⟨.refl s, Process.Meets.bind ?_⟩
    rw [hjob]
    refine Process.Meets.mono (removeDecisions_lifts hnumbered hds server x) fun result y _ => ?_
    exact ending_meets (e := e.begin s.scheduler.now) hfailed (fun t _ => hsettle _ _ t)
      (fun t _ => hfinish t) y
  · have hnot : ∀ server ds, e.job ≠ .removeDecisions server ds := fun server ds heq =>
      hlifts ⟨server, ds, heq⟩
    exact .inl (attempt_obeys (Keeping.handle h.isDeployment hnot _) hfailed
      (fun now result s _ => hsettle now result s) fun s _ => hfinish s)

omit hnumbered in
theorem IsTame.later {p : Process Orchestrator Unit} {x y : ρ}
    (h : IsTame settings o held covers dropped p x) (hxy : Later o x y) :
    IsTame settings o held covers dropped p y :=
  h.imp_right fun hmeets => hmeets.rely (fun _ _ _ _ _ => trivial) hxy

theorem liftsOnly_of_touched {x y : ρ} (h : Touched o (keeping settings dropped) x y) :
    Later o x y ∧ ∀ server, ∀ e ∈ held x server, e ∈ held y server := by
  induction h with
  | refl x => exact ⟨.refl, fun _ _ he => he⟩
  | head hc ha _ ih =>
    exact ⟨(later_of_answers ha).trans ih.1, fun server e he =>
      ih.2 server e (hnumbered.others _ _ _ _ _ hc ha server e he)⟩

omit hnumbered in
theorem later_of_answered {calls : List (Server × Remote.Call)} {x y : ρ}
    {answers : List (Except Failure String)} (h : Answered o calls x answers y) : Later o x y := by
  induction h with
  | nil x => exact .refl
  | cons ha _ ih => exact (later_of_answers ha).trans ih

omit hnumbered in
theorem later_of_advance {w w' : Shared ρ} {p p' : Process Orchestrator Unit}
    (h : Advance o w p w' p') : Later o w.outside w'.outside := by
  cases h with
  | call _ ha => exact later_of_answers ha
  | callAll _ ha => exact later_of_answered ha
  | _ => exact .refl

/-- **A step of such a worker.** -/
theorem IsTame.advance {w w' : Shared ρ} {p p' : Process Orchestrator Unit}
    (h : IsTame settings o held covers dropped p w.outside) (hs : w.state.settings = settings)
    (hstep : Advance o w p w' p') :
    Adds dropped w.state w'.state ∧ LiftsOnly held covers dropped w.outside w'.outside ∧
      IsTame settings o held covers dropped p' w'.outside := by
  rcases h with hobeys | hmeets
  · obtain ⟨hdisciplined, hp'⟩ := Obeys.of_advance (d := keeping settings dropped)
      (fun _ _ _ _ _ _ => trivial) hobeys hs hstep
    refine ⟨hdisciplined.state, fun server e he hgone => ?_, .inl hp'⟩
    exact absurd ((liftsOnly_of_touched hnumbered hdisciplined.outside).2 server e he) hgone
  · obtain ⟨hchange, hlifts, _, hp'⟩ := hmeets.of_advance hs trivial hstep
    exact ⟨hchange, hlifts, .inr hp'⟩

/-! ## Steps -/

omit hnumbered in
/-- **Nothing is under way** but what lifts what was dropped. -/
structure Tame (settings : Settings) (o : Outside ρ) (held : ρ → UInt64 → List Engine.Decision)
    (covers : String → String → Bool) (dropped : Decision → Prop) (c : Config ρ) : Prop where
  same : c.state.settings = settings
  fit : c.state.scheduler.IsFit
  jobs : ∀ job ∈ c.state.jobs, job.Lifts dropped
  workers : ∀ i p, c.workers i = some p → IsTame settings o held covers dropped p c.outside

namespace Tame

variable {c d : Config ρ} {allowed : Request → Prop}

omit hnumbered in
/-- The state changes. -/
theorem adds (h : Tame settings o held covers dropped c) {s : Orchestrator}
    (hs : Adds dropped c.state s) {unannounced : List RuleEvent} :
    Tame settings o held covers dropped { c with state := s, unannounced } :=
  ⟨hs.settings.trans h.same, hs.fit h.fit, hs.lifts h.jobs, h.workers⟩

omit hnumbered in
/-- A worker takes something else up. -/
theorem worker (h : Tame settings o held covers dropped c) {i : Nat}
    {p : Option (Process Orchestrator Unit)}
    (hp : ∀ q, p = some q → IsTame settings o held covers dropped q c.outside) :
    Tame settings o held covers dropped { c with workers := Function.update c.workers i p } := by
  refine ⟨h.same, h.fit, h.jobs, fun j q hj => ?_⟩
  have hj := (Function.update_apply c.workers i p j).symm.trans hj
  split at hj
  · exact hp q hj
  · exact h.workers j q hj

omit hnumbered in
/-- A job is taken out of the scheduler. -/
theorem picked (h : Tame settings o held covers dropped c) {e : Entry Job} {rest : Scheduler Job}
    (hpick : c.state.scheduler.pick? = some (e, rest)) :
    e.job.Lifts dropped ∧
      Tame settings o held covers dropped
        { c with state := { c.state with scheduler := rest } } := by
  have hperm : c.state.jobs.Perm (e.job :: rest.entries.map (·.job)) := by
    have hentries := (Scheduler.pick?_entries hpick).map (·.job)
    rwa [List.map_cons] at hentries
  exact ⟨h.jobs _ (hperm.mem_iff.mpr List.mem_cons_self), h.same,
    Scheduler.pick?_isFit h.fit hpick,
    fun job hjob => h.jobs job (hperm.mem_iff.mpr (List.mem_cons_of_mem _ hjob)), h.workers⟩

/-- **Every step keeps it**, and lifts nothing but what was dropped. -/
theorem step (h : Tame settings o held covers dropped c) (hstep : Step o allowed c d)
    (hdropped : ∀ e, Hears c.state e → ∀ x, c.state.Drops e x → dropped x) :
    Tame settings o held covers dropped d ∧ LiftsOnly held covers dropped c.outside d.outside := by
  have hstill : LiftsOnly held covers dropped c.outside c.outside := fun _ _ he hgone =>
    absurd he hgone
  cases hstep with
  | request _ =>
    refine ⟨h.adds ?_, hstill⟩
    exact .perform _ _
  | announce _ =>
    refine ⟨h.adds ?_, hstill⟩
    exact .of_eq rfl rfl
  | hear _ =>
    refine ⟨h.adds ?_, hstill⟩
    exact hearRule_adds hdropped
  | pass _ =>
    refine ⟨h.adds ?_, hstill⟩
    exact ⟨rfl, ⟨[], .refl _, nofun⟩, fun hfit => ⟨hfit.isOpen, hfit.numbers, hfit.issued⟩⟩
  | arrive hwaits _ =>
    have hjobs := (Scheduler.arrive_entries h.fit hwaits).map (·.job)
    refine ⟨h.adds ?_, hstill⟩
    exact ⟨rfl, ⟨[], hjobs, nofun⟩, fun hfit => Scheduler.arrive_isFit hfit hwaits⟩
  | start _ hpick =>
    obtain ⟨hlifts, hrest⟩ := h.picked hpick
    exact ⟨hrest.worker fun q hq => Option.some.inj hq ▸ attempt_isTame hnumbered hlifts _, hstill⟩
  | advance hi hadvance =>
    obtain ⟨hadds, hlifts, hp'⟩ := (h.workers _ _ hi).advance hnumbered h.same hadvance
    have hmoved : Tame settings o held covers dropped { c with toShared := _ } :=
      ⟨hadds.settings.trans h.same, hadds.fit h.fit, hadds.lifts h.jobs,
        fun j q hj => (h.workers j q hj).later (later_of_advance hadvance)⟩
    exact ⟨hmoved.worker fun q hq => Option.some.inj hq ▸ hp', hlifts⟩
  | leave _ => exact ⟨h.worker nofun, hstill⟩

end Tame

end

/-! ## Runs -/

/-- No job is under way, whatever is still to be heard. -/
structure Resting (c : Config ρ) : Prop where
  fit : c.state.scheduler.IsFit
  noJobs : c.state.jobs = []
  workers : ∀ i, c.workers i = none

theorem run_head {o : Outside ρ} {allowed : Request → Prop} {n : Nat} {a b c : Config ρ}
    (hstep : Step o allowed a b) (hrun : Run o allowed n b c) : Run o allowed (n + 1) a c :=
  @invariant_of_run _ _ _ (fun m d => Run o allowed (m + 1) a d) (fun _ _ _ => .tail) _ _ _ hrun
    (.tail (.refl a) hstep)

/-- **A decision that was dropped in a run**: it was when one of its events was heard. -/
def DroppedIn (o : Outside ρ) (allowed : Request → Prop) (a c : Config ρ) (d : Decision) : Prop :=
  ∃ m k b e, Run o allowed m a b ∧ Run o allowed k b c ∧ Hears b.state e ∧ b.state.Drops e d

variable {o : Outside ρ} {held : ρ → UInt64 → List Engine.Decision}
  {covers : String → String → Bool} {allowed : Request → Prop} {n : Nat} {a c c' : Config ρ}

theorem liftsOnly_of_run (hnumbered : Numbered a.state.engine o held covers)
    (hresting : Resting a) (hrun : Run o allowed n a c) (hstep : Step o allowed c c') :
    LiftsOnly held covers (DroppedIn o allowed a c) c.outside c'.outside := by
  have hbegin : Tame a.state.settings o held covers (DroppedIn o allowed a c) a := by
    refine ⟨rfl, hresting.fit, fun job hjob => ?_, fun i p hi => ?_⟩
    · rw [hresting.noJobs] at hjob
      cases hjob
    · rw [hresting.workers i] at hi
      cases hi
  have hdropped : ∀ {m k b}, Run o allowed m a b → Run o allowed k b c → ∀ e, Hears b.state e →
      ∀ d, b.state.Drops e d → DroppedIn o allowed a c d :=
    fun hab hbc e he d hd => ⟨_, _, _, e, hab, hbc, he, hd⟩
  -- By induction on how the run begins, for all that it goes on with.
  have hc : Run o allowed n a c ∧ ∀ k, Run o allowed k c c →
      Tame a.state.settings o held covers (DroppedIn o allowed a c) c :=
    @invariant_of_run _ _ _ (fun m b => Run o allowed m a b ∧ ∀ k, Run o allowed k b c →
        Tame a.state.settings o held covers (DroppedIn o allowed a c) b)
      (fun _ _ _ hinv hs => ⟨.tail hinv.1 hs, fun k hrest =>
        ((hinv.2 _ (run_head hs hrest)).step hnumbered hs
          (hdropped hinv.1 (run_head hs hrest))).1⟩)
      _ _ _ hrun ⟨.refl a, fun _ _ => hbegin⟩
  exact ((hc.2 0 (.refl c)).step hnumbered hstep (hdropped hrun (.refl c))).2

/-- **What is lifted was dropped.** When no job was under way in the beginning, and whatever is
asked for, fails, is tried again or happens side by side: a decision that goes, be it wanted or not,
covers an address that was dropped before in the run, for the same reason. -/
theorem dropped_of_lifted (hnumbered : Numbered a.state.engine o held covers)
    (hresting : Resting a) (hrun : Run o allowed n a c) (hstep : Step o allowed c c')
    {server : UInt64} {e : Engine.Decision} (he : e ∈ held c.outside server)
    (hgone : e ∉ held c'.outside server) :
    ∃ d, DroppedIn o allowed a c d ∧ d.reason = e.scenario ∧ covers d.ip e.value = true :=
  liftsOnly_of_run hnumbered hresting hrun hstep server e he hgone

/-! ## A network and an address in it -/

namespace Demo

/-- A rule that bans some targets. -/
def ban (id : UInt64) (targets : String) : Rule where
  id := id
  name := "x"
  mode := .ipBan
  action := .ban
  conditions := [{ field := "ip_address", operator := "equals", value := targets }]

/-- The decision about the network. -/
def network : Engine.Decision where
  id := 1
  kind := "ban"
  scope := "Range"
  value := "10.0.0.0/24"
  scenario := "bastion/abc/rule-1"

/-- What is left of it when some numbers have been lifted. -/
def remaining (lifted : List String) (server : UInt64) : List Engine.Decision :=
  if server = 1 ∧ toString network.id ∉ lifted then [network] else []

/-- A decision is about an address if it is for the address or for a network that it is in. -/
def isAbout (ip value : String) : Bool :=
  ip == value || match Network.parse? value, Address.parse? ip with
    | some network, some address => network.contains address
    | _, _ => false

/-- What becomes of the numbers that have been lifted, if the engine may give an answer: a listing
that can be read is right. -/
def lift? (answer : Except Failure String) (lifted : List String) :
    List String → Option (List String)
  | ["decisions", "delete", "--id", id] => some (id :: lifted)
  | ["decisions", "list", _, ip, _, _] => match answer.toOption.bind Engine.decisionsIn with
    | some ds => if ds = (remaining lifted 1).filter (isAbout ip ·.value) then some lifted else none
    | none => some lifted
  | _ => some lifted

/-- An engine that lists and lifts the decision. -/
def lister : Oracle (List String) := fun server c answer lifted =>
  if server.id = 1 then match c with
    | .run [line] => match arguments? line with
      | some arguments => lift? answer lifted arguments
      | none => some lifted
    | _ => some lifted
  else none

theorem lister_command {server : Server} {arguments : List String} {x y : List String}
    {answer : Except Failure String}
    (h : lister.outside.answers server (.run [Shop.site.engine.command arguments]) x answer y) :
    server.id = 1 ∧ lift? answer x arguments = some y := by
  simp only [Oracle.outside, lister, arguments?_command] at h
  split at h
  · rename_i hserver
    exact ⟨hserver, h⟩
  · cases h

theorem mem_remaining_iff {lifted : List String} {server : UInt64} {e : Engine.Decision} :
    e ∈ remaining lifted server ↔ e = network ∧ server = 1 ∧ toString network.id ∉ lifted := by
  unfold remaining
  split
  · rename_i hleft
    rw [List.mem_singleton]
    exact (and_iff_left hleft).symm
  · rename_i hleft
    exact ⟨fun he => absurd he List.not_mem_nil, fun he => absurd he.2 hleft⟩

theorem numbered : Numbered Shop.site.engine lister.outside remaining isAbout where
  numbers x y server _ e he f hf _ := by
    obtain ⟨rfl, _⟩ := mem_remaining_iff.mp he
    obtain ⟨rfl, _⟩ := mem_remaining_iff.mp hf
    exact ⟨rfl, rfl⟩
  list server ip x output y h ds hds e he := by
    obtain ⟨hserver, hafter⟩ := lister_command h
    simp only [lift?, Except.toOption, Option.bind_some, hds] at hafter
    split at hafter
    · rename_i hlisted
      rw [hlisted] at he
      obtain ⟨he, habout⟩ := List.mem_filter.mp he
      exact ⟨e, hserver ▸ he, rfl, rfl, habout⟩
    · cases hafter
  remove server id x answer y h other e he hid := by
    obtain ⟨hserver, hafter⟩ := lister_command h
    obtain rfl := Option.some.inj hafter
    obtain ⟨rfl, hother, hleft⟩ := mem_remaining_iff.mp he
    refine mem_remaining_iff.mpr ⟨rfl, hother, fun hmem => ?_⟩
    rcases List.mem_cons.mp hmem with heq | hmem
    · exact hid (hother.trans hserver.symm) (Text.toString_inj heq)
    · exact hleft hmem
  others server c x answer y hc h other e he := by
    have hlift : ∀ id, c = .run [Shop.site.engine.command ["decisions", "delete", "--id", id]] →
        e ∈ remaining (id :: x) other := by
      intro id heq
      obtain ⟨rfl, hother, hleft⟩ := mem_remaining_iff.mp he
      refine mem_remaining_iff.mpr ⟨rfl, hother, fun hmem => ?_⟩
      rcases List.mem_cons.mp hmem with rfl | hmem
      · exact hc network.id heq
      · exact hleft hmem
    simp only [Oracle.outside, lister] at h
    split at h
    · split at h
      · split at h
        · rename_i harguments
          obtain rfl := line_of_arguments? harguments
          unfold lift? at h
          split at h
          · exact Option.some.inj h ▸ hlift _ rfl
          · split at h
            · split at h
              · exact Option.some.inj h ▸ he
              · cases h
            · exact Option.some.inj h ▸ he
          · exact Option.some.inj h ▸ he
        · exact Option.some.inj h ▸ he
      · exact Option.some.inj h ▸ he
    · cases h

/-- A rule that bans a network and an address in it has been saved, and the network is banned. -/
def settled : Config (List String) where
  state := ((Request.save "abc" (ban 0 "10.0.0.0/24, 10.0.0.5")).perform Shop.state).2
  held := []
  outside := []

theorem settled_resting : Resting settled where
  fit := ⟨by decide +kernel, by decide +kernel, by decide +kernel⟩
  noJobs := by decide +kernel
  workers := fun _ => rfl

theorem settled_engine : settled.state.engine = Shop.site.engine := by
  have hsettings : settled.state.settings = Shop.state.settings :=
    (@Adds.perform (fun _ => True) Shop.state _).settings
  rw [Orchestrator.engine, hsettings]
  rfl

/-- The address is taken off the rule, for the network has it anyhow. -/
def tidying : Request :=
  .save "abc" (ban 1 "10.0.0.0/24")

/-- What the engine lists for the address. -/
def listing : String :=
  "[\x7b\"decisions\":[\x7b\"id\":1,\"type\":\"ban\",\"scope\":\"Range\"," ++
    "\"value\":\"10.0.0.0/24\",\"scenario\":\"bastion/abc/rule-1\"\x7d]\x7d]"

/-- The rule is saved again, and the job that lifts the address has it listed. -/
def reconsidered : List Choice :=
  [.request tidying, .announce, .hear, .pass 2, .arrive, .start 0] ++ go 2 ++
    [.advance 0 (.ok listing)]

/-- Whether the network is wanted. -/
def wantsNetwork (s : Orchestrator) : Bool :=
  match s.contextOf 1 with
  | .ok c => c.firewall.isActive && c.banRules.any fun rule =>
      (s.bansOf c rule).any fun d => d.ip == network.value && d.reason == network.scenario
  | .error _ => false

theorem wants_of_wantsNetwork {s : Orchestrator} (h : wantsNetwork s = true) :
    s.Wants network.value network.scenario := by
  unfold wantsNetwork at h
  split at h
  · rename_i c hc
    obtain ⟨hactive, hrules⟩ := Bool.and_eq_true_iff.mp h
    obtain ⟨rule, hrule, hbans⟩ := List.any_eq_true.mp hrules
    obtain ⟨d, hd, hmatch⟩ := List.any_eq_true.mp hbans
    obtain ⟨hip, hreason⟩ := Bool.and_eq_true_iff.mp hmatch
    exact ⟨1, c, rule, d, hc, hactive, hrule, hd, beq_iff_eq.mp hip, beq_iff_eq.mp hreason⟩
  · cases h

/-- The next step of the job lifts the network, which was listed for the address. -/
theorem lifts_network : ∃ c c',
    Run lister.outside (· = tidying) reconsidered.length settled c ∧
    Step lister.outside (· = tidying) c c' ∧ network ∈ remaining c.outside 1 ∧
    network ∉ remaining c'.outside 1 ∧ c.state.Wants network.value network.scenario := by
  have hall : ((follow lister reconsidered settled).bind fun c =>
      ((Choice.advance 0 (.ok "")).perform lister c).map fun c' =>
        (c.outside, c'.outside, wantsNetwork c.state)) = some ([], ["1"], true) := by
    decide +kernel
  obtain ⟨c, hfollow, hnext⟩ := Option.bind_eq_some_iff.mp hall
  obtain ⟨c', hperform, heq⟩ := Option.map_eq_some_iff.mp hnext
  obtain ⟨hbefore, heq⟩ := Prod.mk.inj heq
  obtain ⟨hafter, hwants⟩ := Prod.mk.inj heq
  refine ⟨c, c', run_of_follow (by decide +kernel) hfollow,
    step_of_perform (fun _ heq => by cases heq) hperform, ?_, ?_, wants_of_wantsNetwork hwants⟩
  · rw [hbefore]
    decide +kernel
  · rw [hafter]
    decide +kernel

end Demo

/-- In a run in which an address is taken off a rule that also bans a network. -/
theorem dropped_of_lifted_network : ∃ c c',
    (Numbered Demo.settled.state.engine Demo.lister.outside Demo.remaining Demo.isAbout ∧
      Resting Demo.settled ∧
      Run Demo.lister.outside (· = Demo.tidying) Demo.reconsidered.length Demo.settled c ∧
      Step Demo.lister.outside (· = Demo.tidying) c c' ∧
      Demo.network ∈ Demo.remaining c.outside 1 ∧ Demo.network ∉ Demo.remaining c'.outside 1) ∧
    ∃ d, DroppedIn Demo.lister.outside (· = Demo.tidying) Demo.settled c d ∧
      d.reason = Demo.network.scenario ∧ Demo.isAbout d.ip Demo.network.value = true := by
  have hnumbered : Numbered Demo.settled.state.engine Demo.lister.outside Demo.remaining
      Demo.isAbout := Demo.settled_engine ▸ Demo.numbered
  obtain ⟨c, c', hrun, hstep, he, hgone, _⟩ := Demo.lifts_network
  exact ⟨c, c', ⟨hnumbered, Demo.settled_resting, hrun, hstep, he, hgone⟩,
    dropped_of_lifted hnumbered Demo.settled_resting hrun hstep he hgone⟩

/-- **A wanted ban can be lifted**: that of a network, when an address in it is taken off its
rule. -/
theorem wanted_ban_is_lifted : ∃ c c',
    Numbered Demo.settled.state.engine Demo.lister.outside Demo.remaining Demo.isAbout ∧
    Resting Demo.settled ∧
    Run Demo.lister.outside (· = Demo.tidying) Demo.reconsidered.length Demo.settled c ∧
    Step Demo.lister.outside (· = Demo.tidying) c c' ∧
    Demo.network ∈ Demo.remaining c.outside 1 ∧ Demo.network ∉ Demo.remaining c'.outside 1 ∧
    c.state.Wants Demo.network.value Demo.network.scenario := by
  have hnumbered : Numbered Demo.settled.state.engine Demo.lister.outside Demo.remaining
      Demo.isAbout := Demo.settled_engine ▸ Demo.numbered
  obtain ⟨c, c', hlifts⟩ := Demo.lifts_network
  exact ⟨c, c', hnumbered, Demo.settled_resting, hlifts⟩

end Bans

end Rampart
