import Rampart.Proofs.Deployment.Jobs
import Rampart.Proofs.Deployment.Planning

/-!
# What does not concern an application

Most of what the orchestrator does leaves one application alone: the decisions of its rules, the
reload of bouncers, and everything that is done for other applications.

* `Harmless`: changes of the state that an application does not notice.
* `quiet`: the discipline of those who make such changes only, and leave its files alone.
* **`quiet_attempt`**: jobs that are neither a sync nor the registration of the application's
  bouncer keep to it.
-/

namespace Rampart

open Execution

/-- **A change that an application does not notice.** Jobs may be added, and events of others
announced. -/
structure Harmless (site : Site) (s t : Orchestrator) : Prop where
  settings : t.settings = s.settings
  registry : t.registry = s.registry
  knows : site.Knows s.store → site.Knows t.store
  rules : t.store.rules = s.store.rules
  firewall : t.store.firewalls.get? site.firewall = s.store.firewalls.get? site.firewall
  bus : t.ruleBus = s.ruleBus ∨
    ∃ e, e.firewall ≠ site.firewall ∧ t.ruleBus = (s.ruleBus.publish e).2
  jobs : ∃ added, t.jobs.Perm (added ++ s.jobs) ∧
    ∀ job ∈ added, job.IsDeployment ∧ job.syncOf? site.firewall = none
  fit : s.scheduler.IsFit → t.scheduler.IsFit
  generation : t.generation site.firewall = s.generation site.firewall

namespace Harmless

variable {site : Site}

/-- A change of anything but store, bus, scheduler and syncs. -/
theorem of_eq {s t : Orchestrator} (hsettings : t.settings = s.settings)
    (hregistry : t.registry = s.registry) (hstore : t.store = s.store)
    (hbus : t.ruleBus = s.ruleBus) (hscheduler : t.scheduler = s.scheduler)
    (hsyncs : t.syncs = s.syncs) : Harmless site s t := by
  refine ⟨hsettings, hregistry, hstore ▸ id, hstore ▸ rfl, hstore ▸ rfl, .inl hbus, ⟨[], ?_, ?_⟩,
    hscheduler ▸ id, ?_⟩
  · rw [Orchestrator.jobs, hscheduler]
    exact .refl _
  · exact fun _ h => absurd h List.not_mem_nil
  · rw [Orchestrator.generation, Orchestrator.syncState, hsyncs]
    rfl

theorem refl (s : Orchestrator) : Harmless site s s :=
  of_eq rfl rfl rfl rfl rfl rfl

theorem count (s : Orchestrator) (counter : Counter) (n : Nat) :
    Harmless site s (s.count counter n) :=
  of_eq rfl rfl rfl rfl rfl rfl

/-- Jobs are added to the scheduler. -/
theorem of_scheduler {s : Orchestrator} {scheduler : Scheduler Job} {counters : Counters}
    (added : List (Entry Job)) (hjobs : scheduler.entries.Perm (added ++ s.scheduler.entries))
    (hadded : ∀ e ∈ added, e.job.IsDeployment ∧ e.job.syncOf? site.firewall = none)
    (hfit : s.scheduler.IsFit → scheduler.IsFit) :
    Harmless site s { s with scheduler, counters } := by
  refine ⟨rfl, rfl, id, rfl, rfl, .inl rfl, ⟨added.map (·.job), ?_, ?_⟩, hfit, rfl⟩
  · have hperm := hjobs.map (·.job)
    rwa [List.map_append] at hperm
  · intro job hjob
    obtain ⟨e, he, rfl⟩ := List.mem_map.mp hjob
    exact hadded e he

theorem dispatchReload (s : Orchestrator) (server : UInt64) :
    Harmless site s (s.dispatchReload server) := by
  refine of_scheduler [_] (Scheduler.dispatch_entries s.scheduler _ _) ?_
    fun h => Scheduler.dispatch_isFit h _ _
  intro e he
  rw [List.mem_singleton.mp he]
  exact ⟨trivial, rfl⟩

theorem finish (s : Orchestrator) :
    Harmless site s (Orchestrator.works.reschedule .finish s) :=
  of_scheduler [] (.refl _) (fun _ h => absurd h List.not_mem_nil)
    Scheduler.finish_isFit

/-- The end of an attempt that brings no sync of the application back. -/
theorem settle {e : Entry Job} {result : Except Failure Unit}
    (h : (e.job.IsDeployment ∧ e.job.syncOf? site.firewall = none) ∨
      ∀ failure, result = .error failure → failure.isConfiguration = true) (s : Orchestrator) :
    Harmless site s (Orchestrator.works.settle e result s).2 := by
  have hfinish : ∀ counters, Harmless site s
      { s with scheduler := s.scheduler.finish, counters } := fun counters =>
    of_scheduler [] (.refl _) (fun _ h => absurd h List.not_mem_nil)
      Scheduler.finish_isFit
  unfold Works.settle
  cases result with
  | ok _ => exact hfinish _
  | error failure =>
    simp only
    split
    · exact hfinish _
    · rename_i hnot
      have hjob := h.resolve_right fun hall => hnot (hall failure rfl)
      split
      · refine of_scheduler [e] (Scheduler.delayUntil_entries s.scheduler _ e) ?_
          fun hfit => Scheduler.delayUntil_isFit hfit _ _
        intro e' he
        rw [List.mem_singleton.mp he]
        exact hjob
      · exact of_eq rfl rfl rfl rfl rfl rfl

/-- A redeploy that is taken up changes no generation. -/
theorem takeRedeploy (s : Orchestrator) (firewall : UInt64) :
    Harmless site s (s.takeRedeploy firewall).2 := by
  unfold Orchestrator.takeRedeploy
  cases hget : s.syncs.get? firewall with
  | none => exact refl s
  | some state =>
    refine ⟨rfl, rfl, id, rfl, rfl, .inl rfl, ⟨[], .refl _, fun _ h => absurd h List.not_mem_nil⟩,
      id, ?_⟩
    have hsame := Orchestrator.generation_insert s firewall site.firewall
      { state with redeployDue := false }
    refine hsame.trans ?_
    split
    · rename_i hfirewall
      rw [Orchestrator.generation, Orchestrator.syncState, hfirewall, hget]
      rfl
    · rfl

/-- The bouncer of another application. -/
theorem recordBouncer {s : Orchestrator} {firewall : UInt64} (hne : firewall ≠ site.firewall)
    (name key : String) : Harmless site s (s.recordBouncer firewall name key).2 := by
  cases hget : s.store.firewalls.get? firewall with
  | none =>
    simp only [Orchestrator.recordBouncer, Store.recordBouncer, Store.firewall, hget, bind,
      Except.bind, Orchestrator.commit]
    exact refl s
  | some old =>
    simp only [Orchestrator.recordBouncer, Store.recordBouncer, Store.firewall, hget, bind,
      Except.bind, pure, Except.pure, Orchestrator.commit, Orchestrator.announce]
    refine ⟨rfl, rfl, fun h => ?_, rfl, ?_,
      .inr ⟨.firewallChanged firewall, hne, rfl⟩,
      ⟨[], .refl _, fun _ h => absurd h List.not_mem_nil⟩, id, rfl⟩
    · have hid : old.id = firewall := h.numbered _ _ hget
      exact h.insertFirewall hget hid rfl
    · exact (Table.get?_insert _ _ _ _).trans (if_neg hne.symm)

end Harmless

/-! ## The discipline -/

/-- The discipline of those who leave an application alone. -/
def quiet {ρ : Type} (site : Site) (o : Outside ρ) : Discipline where
  state s := s.KnowsSite site
  change := Harmless site
  idle := Harmless.refl
  call _ c := Spares site.dir site.uuid c
  answer server c answer := ∃ x y, o.answers server c x answer y
  lock lock := lock ≠ site.lock

namespace Quiet

variable {ρ : Type} {site : Site} {o : Outside ρ}

theorem upkeep : (quiet site o).Upkeep :=
  ⟨fun s _ => Harmless.count s, fun s _ => Harmless.dispatchReload s⟩

theorem ignores_single {line : String} (h : Remote.Files.Ignores line) :
    ∀ l ∈ [line], Remote.Files.Ignores l := by
  intro l hl
  rw [List.mem_singleton.mp hl]
  exact h

/-- The text of a command of the engine's client. -/
theorem toList_command (engine : Engine.Client) (arguments : List String) :
    ∃ rest, (engine.command arguments).toList = "docker".toList ++ ' ' :: rest := by
  have hdocker : (Text.Word.quote "docker").toList = "docker".toList := by decide
  refine ⟨(Text.Word.quote "exec").toList ++
    Text.Word.behind ([engine.settings.container, "cscli"] ++ arguments), ?_⟩
  rw [Engine.Client.command, Engine.Client.words, List.cons_append, Text.Word.toList_line_cons,
    hdocker]
  rfl

/-! ### Commands that change no files -/

theorem ignores_command (engine : Engine.Client) (arguments : List String) :
    Remote.Files.Ignores (engine.command arguments) := by
  obtain ⟨rest, hrest⟩ := toList_command engine arguments
  exact Remote.Files.ignores_docker _ hrest

theorem ignores_register (engine : Engine.Client) (name : String) (key : Option String) :
    ∀ line ∈ engine.registerCommands name key, Remote.Files.Ignores line := by
  intro line hline
  rcases List.mem_cons.mp hline with rfl | hline
  · obtain ⟨rest, hrest⟩ := toList_command engine ["bouncers", "delete", name]
    refine Remote.Files.ignores_docker (rest ++ " >/dev/null 2>&1 || true".toList) ?_
    rw [Engine.Client.silently, String.toList_append, hrest, List.append_assoc]
    rfl
  · rw [List.mem_singleton.mp hline]
    exact ignores_command engine _

theorem ignores_reload (engine : Engine.Client) : ∀ line ∈
    ["docker kill --signal=SIGHUP " ++ Text.Word.quote engine.settings.container],
      Remote.Files.Ignores line := by
  refine ignores_single (Remote.Files.ignores_docker
    ("kill --signal=SIGHUP ".toList ++ (Text.Word.quote engine.settings.container).toList) ?_)
  rw [String.toList_append]
  rfl

theorem ignores_list (dir : ScenarioDir) : ∀ line ∈ [dir.listCommand],
    Remote.Files.Ignores line := by
  refine ignores_single (Remote.Files.ignores_of_program "ls".toList
    ("-1A ".toList ++ (Text.Word.quote dir.path).toList ++
      " 2>/dev/null || true".toList) ?_ (by decide) (by decide))
  have h : dir.listCommand =
    "ls -1A " ++ Text.Word.quote dir.path ++ " 2>/dev/null || true" := rfl
  rw [h, String.toList_append, String.toList_append]
  rfl

theorem engine (engine : Engine.Client) : (quiet site o).Engine engine :=
  fun _ arguments => Spares.of_ignores (ignores_single (ignores_command engine arguments))

/-! ## Other applications -/

/-- The context of another firewall is that of another application. -/
theorem other_uuid {s : Orchestrator} (h : s.KnowsSite site) {firewall : UInt64}
    (hne : firewall ≠ site.firewall) {c : Context} (hc : s.contextOf firewall = .ok c) :
    isUuid c.uuid = true ∧ c.uuid ≠ site.uuid := by
  unfold Orchestrator.contextOf Store.contextOf at hc
  obtain ⟨fw, hfw, hc⟩ := Except.bind_eq_ok_iff.mp hc
  cases happ : s.store.applications.get? fw.applicationId with
  | none =>
    rw [happ] at hc
    cases hc
  | some application =>
    rw [happ] at hc
    obtain ⟨server, _, hc⟩ := Except.bind_eq_ok_iff.mp hc
    have huuid : c.uuid = application.uuid := by
      rw [← Except.ok.inj hc]
      rfl
    have hget : s.store.firewalls.get? firewall = some fw := by
      unfold Store.firewall at hfw
      split at hfw
      · rename_i hsome
        rw [hsome, Except.ok.inj hfw]
      · cases hfw
    obtain ⟨hvalid, hown⟩ := h.store.valid _ _ happ
    rw [huuid]
    exact ⟨hvalid, fun heq => hne ((h.store.own _ _ hget).mp (hown heq))⟩

theorem isOwned_of_files {c : Context} {settings : Settings.Scenarios}
    {files : List ScenarioFile} (h : c.files settings = .ok files) :
    ∀ f ∈ files, isOwned c.uuid f.name = true := by
  intro f hf
  unfold Context.files at h
  cases hs : c.scenarios settings with
  | error e =>
    rw [hs] at h
    cases h
  | ok scenarios =>
    rw [hs] at h
    rw [← Except.ok.inj h] at hf
    obtain ⟨scenario, hscenario, rfl⟩ := List.mem_map.mp hf
    obtain ⟨rule, _, hrule⟩ := (Except.mem_mapM_iff hs).mp hscenario
    have hname : scenario.fileName = scenarioFileName c.uuid rule :=
      (name_of_scenarioOf hrule).2.2.1
    have howned := isOwned_of_isScenarioName (scenarioFileName_isScenarioName c.uuid rule)
    rw [← hname] at howned
    exact howned

/-- A sync of another application leaves the files of this one alone. -/
theorem mayReplace {other : String} (hu : isUuid site.uuid = true) (ho : isUuid other = true)
    (hne : other ≠ site.uuid) {files : List ScenarioFile}
    (hfiles : ∀ f ∈ files, isOwned other f.name = true) (server : Server) :
    Deploy.MayReplace (quiet site o) site.dir server other files := by
  refine ⟨?_, Spares.of_ignores (ignores_list site.dir), ?_, ?_, ?_⟩
  · exact fun heq => hne (congrArg Lock.uuid heq)
  · intro token htoken f _
    exact Spares.upload (isForeign_staged hu ho hne htoken f.name).not_isScenarioPath _
  · intro token htoken output
    refine Spares.run fun line hline => ?_
    unfold ScenarioDir.activation at hline
    rw [List.mem_append, List.mem_append] at hline
    rcases hline with (hline | hline) | hline
    · obtain ⟨f, hf, rfl⟩ := List.mem_map.mp hline
      exact .move (isForeign_staged hu ho hne htoken f.name).not_isScenarioPath
        (isForeign_owned hu ho hne (hfiles f hf)).not_isScenarioPath
    · obtain ⟨name, hname, rfl⟩ := List.mem_map.mp hline
      have howned := (List.mem_filter.mp (mem_stale.mp hname).1).2
      exact .remove (isForeign_owned hu ho hne howned).not_isScenarioPath
    · rw [List.mem_singleton.mp hline]
      exact .removeAll hu ho hne htoken
  · intro token htoken
    refine Spares.run fun line hline => ?_
    rw [List.mem_singleton.mp hline]
    exact .removeAll hu ho hne htoken

/-! ## Jobs -/

theorem sync {firewall : UInt64} (hne : firewall ≠ site.firewall) (generation : UInt64) :
    Deploy.Keeps (quiet site o) (Deploy.sync firewall generation) := by
  refine Deploy.sync_keeps generation upkeep ?_ ?_ fun s _ => Harmless.takeRedeploy s firewall
  · intro s hs c files hc hfiles
    have hs : s.KnowsSite site := hs
    obtain ⟨c', hc', hc⟩ := Except.bind_eq_ok_iff.mp hc
    have hcc : c' = c := by
      split at hc
      · exact Except.ok.inj hc
      · cases hc
    subst hcc
    obtain ⟨hvalid, hother⟩ := other_uuid hs hne hc'
    have hdir : s.scenarioDir = site.dir := by
      unfold Orchestrator.scenarioDir
      rw [hs.settings]
      rfl
    rw [hdir]
    exact mayReplace hs.store.isUuid hvalid hother (isOwned_of_files hfiles) c'.server
  · exact fun s _ _ => Spares.of_ignores (ignores_reload s.engine)

/-- What the jobs do that leave an application alone. -/
theorem handle {job : Job} (hjob : job.IsDeployment) (hsync : job.syncOf? site.firewall = none)
    (hprovision : job ≠ .provision site.firewall) (attempt : Nat) :
    Deploy.Keeps (quiet site o) (Orchestrator.handle job attempt) := by
  cases job with
  | sync firewall generation =>
    refine sync (fun heq => ?_) generation
    rw [Job.syncOf?, if_pos heq] at hsync
    cases hsync
  | applyDecisions firewall rule =>
    exact Deploy.applyDecisions_keeps (fun s _ server _ => engine s.engine server _)
      (fun s _ server _ => engine s.engine server _) upkeep firewall rule
  | removeDecisions server decisions =>
    exact Deploy.removeDecisions_keeps (fun s _ => engine s.engine) server decisions
  | provision firewall =>
    have hne : firewall ≠ site.firewall := fun heq => hprovision (heq ▸ rfl)
    exact Deploy.provision_keeps upkeep
      (fun s _ _ name key => Spares.of_ignores (ignores_register s.engine name key))
      fun s _ name key => Harmless.recordBouncer hne name key
  | reloadBouncers server =>
    refine Deploy.reloadBouncers_keeps (fun s hs _ contents => ?_) server
    have hs : s.KnowsSite site := hs
    exact Spares.upload (not_isScenarioPath_marker hs.store.isUuid site.dir s.engine) contents
  | install _ _ _ => exact hjob.elim
  | validate _ _ => exact hjob.elim
  | syncAlerts => exact hjob.elim

theorem failed_eq {job : Job} (hjob : job.IsDeployment) (failure : Failure) :
    Orchestrator.failed job failure = .done () := by
  cases job with
  | install _ _ _ => exact hjob.elim
  | _ => rfl

end Quiet

/-- **An attempt of a job that leaves an application alone.** -/
theorem quiet_attempt {ρ : Type} {site : Site} (o : Outside ρ) {e : Entry Job}
    (hjob : e.job.IsDeployment) (hsync : e.job.syncOf? site.firewall = none)
    (hprovision : e.job ≠ .provision site.firewall) :
    (Orchestrator.works.attempt e).Obeys (quiet site o) fun _ => True :=
  Orchestrator.attempt_obeys (Quiet.handle hjob hsync hprovision _) (Quiet.failed_eq hjob)
    (fun now _ s _ => Harmless.settle (e := e.begin now) (.inl ⟨hjob, hsync⟩) s)
    fun s _ => Harmless.finish s

end Rampart
