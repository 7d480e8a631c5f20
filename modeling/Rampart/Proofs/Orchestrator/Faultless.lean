import Rampart.Orchestrator.Work
import Rampart.Proofs.Execution.Discipline
import Rampart.Proofs.Store.Reached

/-!
# Jobs never meet a rule that does not compile

The rules of a store were compiled when they were saved. Whatever has been asked of the store since,
a job that compiles them again, in the context that it finds, succeeds in it; and a plan that looks
for the targets of a ban finds some.

* `onReached`: processes between which only operations change the store, and to which no server
  answers with a compilation failure. `Faultless`: a task that never ends with one.
* `sync_faultless`, `applyDecisions_faultless`: the jobs that compile.
* **`handle_faultless`**: all jobs.
* **`saved_rules_compile`**: scenarios, decisions, versions in events, plans and jobs.
-/

namespace Rampart

open Rampart.Task (obeys_attempt obeys_bind obeys_clock obeys_fresh obeys_modify obeys_modifyGet
  obeys_read obeys_run obeys_tell obeys_upload)

/-! ## Contexts -/

namespace Orchestrator.IsReached

variable {s : Orchestrator}

/-- The uuid and the rules of a context. -/
theorem context (h : s.IsReached) {number : UInt64} {c : Context}
    (hc : s.contextOf number = .ok c) :
    isUuid c.uuid = true ∧ ∀ rule ∈ c.rules, rule.Compiles := by
  obtain ⟨happlication, hrules⟩ := Store.contextOf_parts hc
  exact ⟨h.isSound.uuids _ happlication, fun rule hrule => h.isSound.rules rule (hrules rule hrule)⟩

theorem activeContext (h : s.IsReached) {number : UInt64} {c : Context}
    (hc : s.activeContext number = .ok c) :
    isUuid c.uuid = true ∧ ∀ rule ∈ c.rules, rule.Compiles := by
  obtain ⟨c', hc', hactive⟩ := Except.bind_eq_ok_iff.mp hc
  split at hactive
  · cases hactive
    exact h.context hc'
  · cases hactive

end Orchestrator.IsReached

/-! ## Tasks -/

/-- The failure is not about a rule that does not compile. -/
def Failure.IsOther (failure : Failure) : Prop :=
  ∀ fault, failure ≠ .compilation fault

/-- Processes between whose steps operations change the store and nothing else does, and to which
servers do not answer with a compilation failure. -/
def onReached : Discipline where
  state s := s.IsReached
  change s t := s.IsReached → t.IsReached
  idle _ h := h
  call _ _ := True
  answer _ _ answer := ∀ failure, answer = .error failure → failure.IsOther
  lock _ := True

/-- **The task never ends with a compilation failure.** -/
def Faultless {α : Type} (t : Task Orchestrator α) : Prop :=
  t.Obeys onReached fun result => ∀ failure, result = .error failure → failure.IsOther

namespace Faultless

variable {α β : Type}

theorem bind {t : Task Orchestrator α} {f : α → Task Orchestrator β} (h : Faultless t)
    (hf : ∀ a, Faultless (f a)) : Faultless (t >>= f) := by
  refine obeys_bind (h.mono fun result hresult => ?_)
  cases result with
  | ok a => exact hf a
  | error failure =>
    intro other hother
    cases hother
    exact hresult failure rfl

theorem pure (a : α) : Faultless (Pure.pure a : Task Orchestrator α) :=
  fun _ h => nomatch h

theorem throw {failure : Failure} (h : failure.IsOther) :
    Faultless (MonadExcept.throw failure : Task Orchestrator α) :=
  fun _ heq => Except.error.inj heq ▸ h

/-- After a look at a reached state. -/
theorem read_bind {f : Orchestrator → Except Failure α} {g : α → Task Orchestrator β}
    (hfails : ∀ s failure, s.IsReached → f s = .error failure → failure.IsOther)
    (h : ∀ s a, s.IsReached → f s = .ok a → Faultless (g a)) : Faultless (Task.read f >>= g) := by
  refine obeys_bind (obeys_read fun s hs => ?_)
  cases hf : f s with
  | ok a => exact h s a hs hf
  | error failure =>
    intro other hother
    cases hother
    exact hfails s failure hs hf

theorem modify {f : Orchestrator → Orchestrator} (hstore : ∀ s, (f s).store = s.store)
    (hsettings : ∀ s, (f s).settings = s.settings) : Faultless (Task.modify f) :=
  obeys_modify (fun s _ h => h.of_eq (hstore s) (hsettings s)) fun _ h => nomatch h

theorem modifyGet {f : Orchestrator → Except Failure α × Orchestrator}
    (hchange : ∀ s, s.IsReached → (f s).2.IsReached)
    (hfails : ∀ s failure, (f s).1 = .error failure → failure.IsOther) :
    Faultless (Task.modifyGet f) :=
  obeys_modifyGet fun s _ => ⟨hchange s, hfails s⟩

theorem run (server : Server) (commands : List String) : Faultless (Task.run server commands) :=
  obeys_run trivial fun _ h => h

theorem upload (server : Server) (path contents : String) :
    Faultless (Task.upload server path contents) := by
  refine obeys_upload trivial fun answer h failure hfailure => ?_
  cases answer with
  | ok output => cases hfailure
  | error other =>
    cases hfailure
    exact h failure rfl

theorem ofExcept {r : Except Failure α} (h : ∀ failure, r = .error failure → failure.IsOther) :
    Faultless (Task.ofExcept r : Task Orchestrator α) := h

theorem clock : Faultless Task.clock :=
  obeys_clock fun _ _ h => nomatch h

/-- How an attempt ends is looked at, and it does not end with a compilation failure either. -/
theorem attempt_bind {t : Task Orchestrator α} {f : Except Failure α → Task Orchestrator β}
    (h : Faultless t)
    (hf : ∀ result, (∀ failure, result = .error failure → failure.IsOther) → Faultless (f result)) :
    Faultless (Task.attempt t >>= f) :=
  obeys_bind (obeys_attempt (h.mono hf))

theorem locked {lock : Lock} {t : Task Orchestrator α} (h : Faultless t) :
    Faultless (ScenarioDir.locked lock t) :=
  ⟨trivial, Process.Obeys.bind (h.mono fun _ hresult => ⟨trivial, hresult⟩)⟩

end Faultless

/-! ## Lookups -/

section Lookups

variable {failure : Failure} {s : Orchestrator}

theorem server_isOther {id : UInt64} (h : s.server id = .error failure) : failure.IsOther := by
  unfold Orchestrator.server Registry.get at h
  split at h
  · cases h
  · cases h
    exact fun _ h => nomatch h

theorem firewall_isOther {store : Store} {id : UInt64} (h : store.firewall id = .error failure) :
    failure.IsOther := by
  unfold Store.firewall at h
  split at h
  · cases h
  · cases h
    exact fun _ h => nomatch h

/-- A sequence fails as its first part or as its second. -/
theorem Except.bind_eq_error {ε α β : Type} {x : Except ε α} {f : α → Except ε β} {e : ε}
    (h : (x >>= f) = .error e) : x = .error e ∨ ∃ a, x = .ok a ∧ f a = .error e := by
  cases x with
  | ok a => exact .inr ⟨a, rfl, h⟩
  | error other => exact .inl (congrArg _ (Except.error.inj h))

theorem contextOf_isOther {id : UInt64} (h : s.contextOf id = .error failure) :
    failure.IsOther := by
  rcases Except.bind_eq_error h with h | ⟨firewall, -, h⟩
  · exact firewall_isOther h
  · split at h
    · cases h
      exact fun _ h => nomatch h
    · rcases Except.bind_eq_error h with h | ⟨server, -, h⟩
      · exact server_isOther h
      · cases h

theorem activeContext_isOther {id : UInt64} (h : s.activeContext id = .error failure) :
    failure.IsOther := by
  rcases Except.bind_eq_error h with h | ⟨c, -, h⟩
  · exact contextOf_isOther h
  · split at h
    · cases h
    · cases h
      exact fun _ h => nomatch h

theorem applyUpdate_isOther {id : UInt64} {u : StatusUpdate}
    (h : (s.applyUpdate id u).1 = .error failure) : failure.IsOther := by
  unfold Orchestrator.applyUpdate at h
  split at h
  · cases h
  · rename_i e hresult
    cases h
    unfold Registry.apply at hresult
    split at hresult
    · cases hresult
    · cases hresult
      exact fun _ h => nomatch h

theorem recordBouncer_isOther {firewall : UInt64} {name key : String}
    (h : (s.recordBouncer firewall name key).1 = .error failure) : failure.IsOther := by
  unfold Orchestrator.recordBouncer Orchestrator.commit at h
  split at h
  · cases h
  · rename_i e hresult
    cases h
    rcases Except.bind_eq_error hresult with hresult | ⟨old, -, hresult⟩
    · exact firewall_isOther hresult
    · cases hresult

end Lookups

/-! ## Deployment -/

namespace Deploy

theorem parsed_faultless {α : Type} (listing : Option α) :
    Faultless (Engine.Client.parsed listing : Work α) := by
  refine .ofExcept fun failure h => ?_
  split at h
  · cases h
  · cases h
    exact fun _ h => nomatch h

theorem decisions_faultless (engine : Engine.Client) (server : Server) (ip : String) :
    Faultless (engine.decisions server ip : Work _) :=
  (Faultless.run _ _).bind fun _ => parsed_faultless _

theorem reload_faultless (s : UInt64) : Faultless (Task.modify (·.dispatchReload s)) :=
  .modify (fun _ => rfl) fun _ => rfl

theorem tick_faultless (counter : Counter) : Faultless (Task.modify (·.tick counter)) :=
  .modify (fun _ => rfl) fun _ => rfl

theorem addMissing_faultless (engine : Engine.Client) (server : Server) (ds : List Decision) :
    Faultless (addMissing engine server ds) := by
  induction ds with
  | nil => exact .pure ()
  | cons d ds ih =>
    refine .bind (.bind (decisions_faultless engine server d.ip) fun _ => .pure _) fun present => ?_
    cases present with
    | true => exact ih
    | false =>
      exact .bind (.bind (.run _ _) fun _ => .pure ()) fun _ =>
        .bind (tick_faultless _) fun _ => ih

/-- **The decisions of a rule that is in force can be made again.** -/
theorem applyDecisions_faultless (firewall rule : UInt64) :
    Faultless (applyDecisions firewall rule) := by
  refine .read_bind (fun s failure hs h => ?_) fun s a hs ha => ?_
  · rcases Except.bind_eq_error h with h | ⟨c, hc, h⟩
    · exact activeContext_isOther h
    · obtain ⟨huuid, hrules⟩ := hs.activeContext hc
      split at h
      · cases h
      · rename_i found hfound
        obtain ⟨hrule, hban⟩ := Option.filter_eq_some_iff.mp hfound
        rw [Bool.and_eq_true] at hban
        obtain ⟨ds, hds, -⟩ := Context.decisions_of_compiles s.settings.scenarios
          huuid (hrules found (List.mem_of_find?_eq_some hrule)) hban.1
        rw [hds] at h
        cases h
  · obtain ⟨c, engine, ds⟩ := a
    cases ds with
    | none => exact .pure ()
    | some ds =>
      exact .bind (addMissing_faultless engine c.server ds) fun _ => reload_faultless _

theorem removeListed_faultless (engine : Engine.Client) (server : Server) (reason : String)
    (listed : List Engine.Decision) : Faultless (removeListed engine server reason listed) := by
  induction listed with
  | nil => exact .pure ()
  | cons e es ih =>
    unfold removeListed
    split
    · exact .bind (.bind (.run _ _) fun _ => .pure ()) fun _ => ih
    · exact .bind (.pure ()) fun _ => ih

theorem removeDecisions_faultless (server : UInt64) (ds : List Decision) :
    Faultless (removeDecisions server ds) := by
  refine .read_bind (fun s failure _ h => ?_) fun s a _ _ => ?_
  · rcases Except.bind_eq_error h with h | ⟨target, -, h⟩
    · exact server_isOther h
    · cases h
  · obtain ⟨target, engine⟩ := a
    simp only
    induction ds with
    | nil => exact .pure ()
    | cons d ds ih =>
      exact .bind (decisions_faultless engine target d.ip) fun listed =>
        .bind (removeListed_faultless engine target d.reason listed) fun _ => ih

theorem reloadBouncers_faultless (server : UInt64) : Faultless (reloadBouncers server) := by
  refine .read_bind (fun s failure _ h => ?_) fun s a _ _ => ?_
  · rcases Except.bind_eq_error h with h | ⟨target, -, h⟩
    · exact server_isOther h
    · cases h
  · exact .bind .clock fun _ => .upload _ _ _

theorem provision_faultless (firewall : UInt64) : Faultless (provision firewall) := by
  refine .read_bind (fun s failure _ h => ?_) fun s a _ _ => ?_
  · rcases Except.bind_eq_error h with h | ⟨c, -, h⟩
    · exact contextOf_isOther h
    · cases h
  · obtain ⟨c, engine⟩ := a
    simp only
    split
    · exact .pure ()
    · refine .bind (.bind (.run _ _) fun output => .ofExcept fun failure h => ?_) fun key => ?_
      · split at h
        · cases h
        · cases h
          exact fun _ h => nomatch h
      · refine .bind (.modifyGet (fun s hs => hs.recordBouncer _ _ _) fun s failure h => ?_)
          fun _ => tick_faultless _
        exact recordBouncer_isOther h

theorem uploadAll_faultless (server : Server) (staging : String) (files : List ScenarioFile) :
    Faultless (ScenarioDir.uploadAll server staging files : Work Unit) := by
  induction files with
  | nil => exact .pure ()
  | cons f files ih => exact .bind (.upload _ _ _) fun _ => ih

theorem replaceHeld_faultless (dir : ScenarioDir) (server : Server) (uuid : String)
    (files : List ScenarioFile) : Faultless (dir.replaceHeld server uuid files : Work Unit) := by
  refine .bind (.bind (.run _ _) fun _ => .pure _) fun existing => ?_
  refine .bind (obeys_fresh fun _ _ _ h => nomatch h) fun token => ?_
  refine .attempt_bind (.bind (uploadAll_faultless _ _ _) fun _ =>
    .bind (.run _ _) fun _ => .pure ()) fun result hresult => ?_
  cases result with
  | ok _ => exact .pure ()
  | error failure =>
    exact .attempt_bind (.run _ _) fun _ _ => .throw (hresult failure rfl)

/-- **The scenarios of an active firewall can be compiled again.** -/
theorem sync_faultless (firewall generation : UInt64) : Faultless (sync firewall generation) := by
  refine .read_bind (fun _ _ _ h => by cases h) fun s superseded _ _ => ?_
  cases superseded with
  | true => exact .pure ()
  | false =>
    refine .read_bind (fun s failure hs h => ?_) fun s a _ _ => ?_
    · rcases Except.bind_eq_error h with h | ⟨c, hc, h⟩
      · exact activeContext_isOther h
      · obtain ⟨huuid, hrules⟩ := hs.activeContext hc
        obtain ⟨scenarios, hscenarios⟩ :=
          Context.scenarios_of_compiles s.settings.scenarios huuid hrules
        rw [Context.files, hscenarios] at h
        cases h
    · obtain ⟨c, files, engine, dir⟩ := a
      refine .bind (.locked (.read_bind (fun _ _ _ h => by cases h) fun s current _ _ => ?_))
        fun written => ?_
      · cases current with
        | false => exact .pure false
        | true =>
          exact .bind (replaceHeld_faultless dir c.server c.uuid files) fun _ =>
            .bind (.modify (fun _ => rfl) fun _ => rfl) fun _ => .pure true
      · cases written with
        | false => exact .pure ()
        | true =>
          refine .bind (.bind (.run _ _) fun _ => .pure ()) fun _ => ?_
          refine .bind (.bind (.modifyGet (fun s hs => ?_) fun _ _ h => by cases h) fun due => ?_)
            fun _ => reload_faultless _
          · simp only [Orchestrator.takeRedeploy]
            split <;> exact hs.of_eq rfl rfl
          · cases due with
            | true => exact obeys_bind (obeys_attempt (obeys_tell fun _ => Faultless.pure ()))
            | false => exact .pure ()

end Deploy

/-! ## Installation, validation and alerts -/

namespace Bootstrap

theorem apply_faultless (server : UInt64) (u : StatusUpdate) : Faultless (apply server u) := by
  refine .modifyGet (fun s hs => ?_) fun s failure h => applyUpdate_isOther h
  unfold Orchestrator.applyUpdate
  split <;> exact hs.of_eq rfl rfl

theorem applyAll_faultless (server : UInt64) (us : List StatusUpdate) :
    Faultless (applyAll server us) := by
  induction us with
  | nil => exact .pure ()
  | cons u us ih => exact .bind (apply_faultless server u) fun _ => ih

theorem changeClaims_faultless (f : Claims → Claims) : Faultless (changeClaims f) :=
  .modify (fun _ => rfl) fun _ => rfl

theorem installEngine_faultless (i : Install.Installer) (server : Server) :
    Faultless (i.installEngine server : Work _) := by
  refine .bind (.run _ _) fun _ => .bind (.upload _ _ _) fun _ => .bind (.run _ _) fun _ => ?_
  refine .bind (.run _ _) fun key => ?_
  simp only
  split
  · exact fun failure h => Except.error.inj h ▸ fun _ h => nomatch h
  refine .bind (.upload _ _ _) fun _ => ?_
  have hlisted : Faultless (do
      let listed ← Task.attempt
        (Task.run server [i.client.command ["appsec-configs", "list", "-o", "raw"]])
      return [StatusUpdate.appsec (Install.Installer.appsecAnswer listed)] : Work _) :=
    .attempt_bind (.run _ _) fun _ _ => .pure _
  split
  · exact .attempt_bind (.bind (.upload _ _ _) fun _ => .bind (.run _ _) fun _ => .pure ())
      fun _ _ => hlisted
  · exact hlisted

theorem install_faultless (i : Install.Installer) (component : Component) (server : Server) :
    Faultless (i.install component server : Work _) := by
  cases component with
  | engine => exact installEngine_faultless i server
  | requestLogging | headerLogging => exact .bind (.run _ _) fun _ => .pure _
  | logShipping | trafficLogger =>
    exact .bind (.upload _ _ _) fun _ => .bind (.run _ _) fun _ => .pure _
  | validator => exact .pure _

theorem installNow_faultless (server : UInt64) (component : Component) :
    Faultless (installNow server component) := by
  refine .read_bind (fun s failure _ h => ?_) fun s i _ _ => ?_
  · split at h
    · cases h
    · cases h
      exact fun _ h => nomatch h
  · refine .bind (apply_faultless _ _) fun target => ?_
    refine .bind (install_faultless i component target) fun extra => ?_
    refine .bind (apply_faultless _ _) fun _ => .bind (applyAll_faultless _ _) fun _ => ?_
    exact .modify (fun _ => rfl) fun _ => rfl

theorem installJob_faultless (server : UInt64) (component : Component) (ticket : UInt64) :
    Faultless (Bootstrap.install server component ticket) := by
  refine .read_bind (fun s failure _ h => server_isOther h) fun s target _ _ => ?_
  split
  · exact changeClaims_faultless _
  · refine .bind (.modifyGet (fun s hs => hs.of_eq rfl rfl) fun _ _ h => nomatch h) fun begun => ?_
    cases begun with
    | false => exact .pure ()
    | true =>
      refine .attempt_bind (installNow_faultless server component) fun result hresult => ?_
      cases result with
      | ok _ => exact changeClaims_faultless _
      | error failure =>
        exact .bind (changeClaims_faultless _) fun _ => .throw (hresult failure rfl)

theorem planRevalidation_apart (s : Orchestrator) (server : UInt64) (round : UInt32) :
    (s.planRevalidation server round).store = s.store ∧
      (s.planRevalidation server round).settings = s.settings := by
  unfold Orchestrator.planRevalidation
  split <;> exact ⟨rfl, rfl⟩

theorem validate_faultless (server : UInt64) (round : UInt32) :
    Faultless (validate server round) := by
  refine .bind (apply_faultless _ _) fun target => ?_
  refine .bind (.read_bind (fun _ _ _ h => nomatch h) fun _ checks _ _ => ?_) fun results => ?_
  · exact .bind (t := Task.callAll _) ⟨fun _ _ => trivial, fun _ _ h => nomatch h⟩ fun _ => .pure _
  refine .bind (applyAll_faultless _ _) fun _ => .bind .clock fun time => ?_
  refine .bind (apply_faultless _ _) fun _ => .bind (apply_faultless _ _) fun _ => ?_
  refine .bind (.modify (fun _ => rfl) fun _ => rfl) fun _ => ?_
  split
  · exact .modify (fun s => (planRevalidation_apart s server round).1)
      fun s => (planRevalidation_apart s server round).2
  · exact .pure ()

end Bootstrap

namespace Orchestrator

theorem keepAlerts_apart (s : Orchestrator) (server : UInt64) (now : Instant)
    (alerts : List Engine.Alert) :
    (s.keepAlerts server now alerts).2.store = s.store ∧
      (s.keepAlerts server now alerts).2.settings = s.settings := by
  induction alerts generalizing s with
  | nil => exact ⟨rfl, rfl⟩
  | cons alert alerts ih =>
    have hkeep : (s.keepAlert server now alert).2.store = s.store ∧
        (s.keepAlert server now alert).2.settings = s.settings := by
      unfold keepAlert
      split
      · exact ⟨rfl, rfl⟩
      · split <;> exact ⟨rfl, rfl⟩
    obtain ⟨hstore, hsettings⟩ := ih (s.keepAlert server now alert).2
    exact ⟨hstore.trans hkeep.1, hsettings.trans hkeep.2⟩

end Orchestrator

/-- Servers that do not answer are passed over. -/
theorem pullFrom_obeys (engine : Engine.Client) (hours : UInt64) (servers : List Server) :
    (AlertSync.pullFrom engine hours servers).Obeys onReached fun _ => True := by
  induction servers with
  | nil => exact trivial
  | cons server servers ih =>
    have hrest : ∀ kept : Nat,
        ((AlertSync.pullFrom engine hours servers).bind fun others =>
          .done (kept + others)).Obeys onReached fun _ => True :=
      fun kept => Process.Obeys.bind (ih.mono fun _ _ => trivial)
    have halerts : Faultless (engine.alerts server hours) :=
      .bind (.run _ _) fun _ => Deploy.parsed_faultless _
    refine Process.Obeys.bind (halerts.mono fun result _ => ?_)
    cases result with
    | error failure => exact hrest 0
    | ok alerts =>
      refine fun now s _ => ⟨fun hs => ?_, hrest _⟩
      obtain ⟨hstore, hsettings⟩ := s.keepAlerts_apart server.id now alerts
      exact hs.of_eq hstore hsettings

theorem pull_obeys : AlertSync.pull.Obeys onReached fun _ => True := by
  intro s _
  have hpull := pullFrom_obeys ⟨s.settings.engine⟩ s.settings.alerts.lookbackHours s.engineServers
  refine ⟨fun hs => hs, Process.Obeys.bind (p := AlertSync.pullFrom _ _ _) ?_⟩
  exact hpull.mono fun _ _ s _ => ⟨fun hs => hs.of_eq rfl rfl, trivial⟩

/-- **No job ends with a compilation failure.** -/
theorem handle_faultless (job : Job) (attempt : Nat) :
    Faultless (Orchestrator.handle job attempt) := by
  cases job with
  | sync firewall generation => exact Deploy.sync_faultless firewall generation
  | applyDecisions firewall rule => exact Deploy.applyDecisions_faultless firewall rule
  | removeDecisions server ds => exact Deploy.removeDecisions_faultless server ds
  | provision firewall => exact Deploy.provision_faultless firewall
  | reloadBouncers server => exact Deploy.reloadBouncers_faultless server
  | install server component ticket =>
    exact Bootstrap.installJob_faultless server component ticket
  | validate server round => exact Bootstrap.validate_faultless server round
  | syncAlerts =>
    exact Process.Obeys.bind (pull_obeys.mono fun _ _ _ h => nomatch h)

/-! ## What saving is good for -/

/-- A rule that compiles is a ban with decisions in a context, or has a scenario there. -/
structure CompilesIn (s : Orchestrator) (c : Context) (rule : Rule) : Prop where
  ban : rule.isBan = true → ∃ ds, c.decisions s.settings.scenarios rule = .ok ds ∧ ds ≠ []
  other : rule.isBan = false → ∃ scenario,
    scenarioOf s.settings.scenarios.ns c.uuid rule (rule.durationIn c.firewall) = .ok scenario
  planned : rule.isBan = true → s.bansOf c rule ≠ []

theorem compilesIn_of_compiles {s : Orchestrator} {c : Context} (huuid : isUuid c.uuid = true)
    {rule : Rule} (h : rule.Compiles) : CompilesIn s c rule := by
  refine ⟨Context.decisions_of_compiles _ huuid h, Context.scenario_of_compiles _ huuid h, fun hban => ?_⟩
  obtain ⟨ds, hds, hne⟩ := Context.decisions_of_compiles s.settings.scenarios huuid h
    hban
  rw [Orchestrator.bansOf, hds]
  exact hne

/-- **What was compiled when it was saved compiles for good.** Whatever operations have made of the
store, in every context that it gives

* the scenarios compile together,
* every rule compiles by itself, and so does every version that an event has carried; for a ban this
  means that there are decisions, also for a plan that looks for them;

and no job, whatever happens between its steps, ends with a compilation failure. -/
theorem saved_rules_compile {s : Orchestrator} (operations : List Operation)
    (hs : s.store = .after s.settings.scenarios operations) {number : UInt64} {c : Context}
    (hc : s.contextOf number = .ok c) :
    (∃ scenarios, c.scenarios s.settings.scenarios = .ok scenarios) ∧
      (∀ rule ∈ c.rules, CompilesIn s c rule) ∧
      (∀ e ∈ Store.published s.settings.scenarios {} operations, ∀ rule ∈ e.versions,
        CompilesIn s c rule) ∧
      ∀ job attempt, Faultless (Orchestrator.handle job attempt) := by
  obtain ⟨huuid, hrules⟩ := Orchestrator.IsReached.context ⟨operations, hs⟩ hc
  refine ⟨Context.scenarios_of_compiles _ huuid hrules,
    fun rule hrule => compilesIn_of_compiles huuid (hrules rule hrule), fun e he rule hrule => ?_,
    handle_faultless⟩
  exact compilesIn_of_compiles huuid (Store.IsSound.empty.compiles_of_published he rule hrule)

namespace Faultless.Demo

/-- A rule against an address. -/
def rule : Rule where
  name := "one address"
  mode := .ipBan
  action := .ban
  conditions := [{ field := "ip", operator := "equals", value := "10.0.0.1" }]

/-- A ban becomes a scenario, under a firewall with another duration and an application with another
uuid; a second one is deleted. -/
def operations : List Operation :=
  [.register { id := 1, uuid := "abc", name := "shop", serverId := 1 } { id := 1, enabled := true },
    .save "abc" rule, .save "abc" rule, .save "abc" { rule with id := 1, mode := .inband },
    .update "abc" { banDuration := some 60 },
    .register { id := 1, uuid := "xyz", name := "shop", serverId := 1 } { id := 1, enabled := true },
    .delete "xyz" 2]

/-- The state that they lead to. -/
def state : Orchestrator :=
  { Tenants.Demo.bare with store := .after {} operations }

end Faultless.Demo

/-- The application under its other uuid: its rule, the ban that it was, and the deleted ban. -/
theorem saved_rules_compile_elsewhere :
    (Store.published {} {} Faultless.Demo.operations).map (·.versions.map (·.mode)) =
        [[], [], [.ipBan], [], [.ipBan]] ∧
      ∃ c, Faultless.Demo.state.contextOf 1 = .ok c ∧ c.uuid = "xyz" ∧ c.rules.length = 1 ∧
        (∃ scenarios, c.scenarios {} = .ok scenarios) ∧
        (∀ rule ∈ c.rules, CompilesIn Faultless.Demo.state c rule) ∧
        ∀ e ∈ Store.published {} {} Faultless.Demo.operations, ∀ rule ∈ e.versions,
          CompilesIn Faultless.Demo.state c rule := by
  have hcontext : (Faultless.Demo.state.contextOf 1).map (fun c => (c.uuid, c.rules.length)) =
      .ok ("xyz", 1) := by decide +kernel
  cases hc : Faultless.Demo.state.contextOf 1 with
  | error failure =>
    rw [hc] at hcontext
    cases hcontext
  | ok c =>
    rw [hc] at hcontext
    obtain ⟨huuid, hlength⟩ := Prod.mk.inj (Except.ok.inj hcontext)
    obtain ⟨hscenarios, hrules, hversions, -⟩ :=
      saved_rules_compile Faultless.Demo.operations rfl hc
    exact ⟨by decide +kernel, c, rfl, huuid, hlength, hscenarios, hrules, hversions⟩

end Rampart
