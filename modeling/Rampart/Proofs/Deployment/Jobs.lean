import Rampart.Orchestrator.Work
import Rampart.Proofs.Except
import Rampart.Proofs.Execution.Discipline

/-!
# What the jobs of the deployment do

For every job of the deployment the calls that it may make, the locks that it may take and the
changes that it may make to the state, as disciplines that it keeps to.

* `Upkeep`: disciplines that allow counting, the reload of bouncers and the end of attempts.
* `applyDecisions_keeps`, `removeDecisions_keeps`, `reloadBouncers_keeps`, `provision_keeps`,
  **`sync_keeps`**: the jobs.
* **`attempt_obeys`**: an attempt of a job.
-/

namespace Rampart

open Rampart.Task
open Execution (IsToken)

namespace Discipline

variable {α : Type}

/-- Counting, and having bouncers reloaded, is allowed. -/
structure Upkeep (d : Discipline) : Prop where
  count : ∀ s, d.state s → ∀ counter n, d.change s (s.count counter n)
  reload : ∀ s, d.state s → ∀ server, d.change s (s.dispatchReload server)

/-- Commands of an engine's client are allowed. -/
def Engine (d : Discipline) (engine : Engine.Client) : Prop :=
  ∀ server arguments, d.call server (.run [engine.command arguments])

/-- Decisions may be listed. -/
def Lists (d : Discipline) (engine : Engine.Client) : Prop :=
  ∀ server ip, d.call server (.run [engine.listCommand ip])

/-- Decisions may be made. -/
def Makes (d : Discipline) (engine : Engine.Client) : Prop :=
  ∀ server decision, d.call server (.run [engine.addCommand decision])

end Discipline

namespace Deploy

variable {d : Discipline}

/-- A task that ends anyhow. -/
abbrev Keeps {α : Type} (d : Discipline) (t : Work α) : Prop :=
  t.Obeys d fun _ => True

theorem keeps_bind {α β : Type} {t : Work α} {f : α → Work β} (h : Keeps d t)
    (hf : ∀ a, Keeps d (f a)) : Keeps d (t >>= f) := by
  refine obeys_bind (h.mono fun result _ => ?_)
  cases result with
  | ok a => exact hf a
  | error e => exact trivial

/-- After a look at the state, only what was seen matters. -/
theorem keeps_bind_read {α β : Type} {f : Orchestrator → Except Failure α} {g : α → Work β}
    (h : ∀ s a, d.state s → f s = .ok a → Keeps d (g a)) : Keeps d (Task.read f >>= g) := by
  refine obeys_bind (obeys_read fun s hs => ?_)
  cases hf : f s with
  | ok a => exact h s a hs hf
  | error e => exact trivial

theorem keeps_pure {α : Type} (a : α) : Keeps d (pure a : Work α) := trivial

theorem keeps_modify {f : Orchestrator → Orchestrator}
    (h : ∀ s, d.state s → d.change s (f s)) : Keeps d (Task.modify f) :=
  obeys_modify h trivial

theorem keeps_run {server : Server} {commands : List String}
    (h : d.call server (.run commands)) : Keeps d (Task.run server commands) :=
  obeys_run h fun _ _ => trivial

/-! ## Decisions -/

theorem decisions_keeps {engine : Engine.Client} (h : d.Lists engine) (server : Server)
    (ip : String) : Keeps d (engine.decisions server ip) :=
  keeps_bind (keeps_run (h server ip)) fun _ => trivial

theorem addMissing_keeps {engine : Engine.Client} (hlists : d.Lists engine)
    (hmakes : d.Makes engine) (hd : d.Upkeep) (server : Server) (decisions : List Decision) :
    Keeps d (addMissing engine server decisions) := by
  induction decisions with
  | nil => exact keeps_pure ()
  | cons x xs ih =>
    refine keeps_bind (keeps_bind (decisions_keeps hlists server x.ip) fun _ => keeps_pure _) ?_
    intro present
    cases present with
    | true => exact ih
    | false =>
      refine keeps_bind (keeps_bind (keeps_run (hmakes server x)) fun _ => keeps_pure ()) fun _ => ?_
      exact keeps_bind (keeps_modify fun s hs => hd.count s hs _ _) fun _ => ih

theorem applyDecisions_keeps (hlists : ∀ s, d.state s → d.Lists s.engine)
    (hmakes : ∀ s, d.state s → d.Makes s.engine) (hd : d.Upkeep) (firewall rule : UInt64) :
    Keeps d (applyDecisions firewall rule) := by
  refine keeps_bind_read fun s a hs ha => ?_
  obtain ⟨c, engine, decisions⟩ := a
  have hengine : engine = s.engine := by
    obtain ⟨c', _, ha⟩ := Except.bind_eq_ok_iff.mp ha
    split at ha
    · exact (Prod.mk.inj (Prod.mk.inj (Except.ok.inj ha)).2).1.symm
    · obtain ⟨_, _, ha⟩ := Except.bind_eq_ok_iff.mp ha
      exact (Prod.mk.inj (Prod.mk.inj (Except.ok.inj ha)).2).1.symm
  cases decisions with
  | none => exact keeps_pure ()
  | some decisions =>
    refine keeps_bind (addMissing_keeps (hengine ▸ hlists s hs) (hengine ▸ hmakes s hs) hd
      c.server decisions) fun _ => ?_
    exact keeps_modify fun s hs => hd.reload s hs _

theorem removeListed_keeps {engine : Engine.Client} (h : d.Engine engine) (server : Server)
    (reason : String) (listed : List Engine.Decision) :
    Keeps d (removeListed engine server reason listed) := by
  induction listed with
  | nil => exact keeps_pure ()
  | cons e es ih =>
    unfold removeListed
    split
    · exact keeps_bind (keeps_bind (keeps_run (h server _)) fun _ => keeps_pure ()) fun _ => ih
    · exact keeps_bind (keeps_pure ()) fun _ => ih

theorem removeAll_keeps {engine : Engine.Client} (h : d.Engine engine) (server : Server)
    (decisions : List Decision) : Keeps d (removeAll engine server decisions) := by
  induction decisions with
  | nil => exact keeps_pure ()
  | cons x xs ih =>
    refine keeps_bind (decisions_keeps (fun server _ => h server _) server x.ip) fun listed => ?_
    exact keeps_bind (removeListed_keeps h server x.reason listed) fun _ => ih

theorem removeDecisions_keeps (h : ∀ s, d.state s → d.Engine s.engine) (server : UInt64)
    (decisions : List Decision) : Keeps d (removeDecisions server decisions) := by
  refine keeps_bind_read fun s a hs ha => ?_
  obtain ⟨target, engine⟩ := a
  have hengine : engine = s.engine := by
    obtain ⟨_, _, heq⟩ := Except.bind_eq_ok_iff.mp ha
    exact (Prod.mk.inj (Except.ok.inj heq)).2.symm
  exact removeAll_keeps (hengine ▸ h s hs) target decisions

/-! ## Bouncers -/

theorem reloadBouncers_keeps
    (h : ∀ s, d.state s → ∀ server contents, d.call server (.upload s.engine.markerPath contents))
    (server : UInt64) : Keeps d (reloadBouncers server) := by
  refine keeps_bind_read fun s a hs ha => ?_
  obtain ⟨target, engine⟩ := a
  have hengine : engine = s.engine := by
    obtain ⟨_, _, heq⟩ := Except.bind_eq_ok_iff.mp ha
    exact (Prod.mk.inj (Except.ok.inj heq)).2.symm
  subst hengine
  refine keeps_bind (obeys_clock fun _ => trivial) fun time => ?_
  exact obeys_upload (h s hs target _) fun _ _ => trivial

theorem register_keeps {engine : Engine.Client} (server : Server) (name : String)
    (key : Option String) (h : d.call server (.run (engine.registerCommands name key))) :
    Keeps d (engine.register server name key) :=
  keeps_bind (keeps_run h) fun _ => trivial

theorem provision_keeps {firewall : UInt64} (hd : d.Upkeep)
    (h : ∀ s, d.state s → ∀ server name key,
      d.call server (.run (s.engine.registerCommands name key)))
    (hrecord : ∀ s, d.state s → ∀ name key, d.change s (s.recordBouncer firewall name key).2) :
    Keeps d (provision firewall) := by
  refine keeps_bind_read fun s a hs ha => ?_
  obtain ⟨c, engine⟩ := a
  have hengine : engine = s.engine := by
    obtain ⟨_, _, heq⟩ := Except.bind_eq_ok_iff.mp ha
    exact (Prod.mk.inj (Except.ok.inj heq)).2.symm
  subst hengine
  simp only
  split
  · exact keeps_pure ()
  · refine keeps_bind (register_keeps c.server _ _ (h s hs c.server _ _)) fun key => ?_
    refine keeps_bind (obeys_modifyGet fun s hs => ⟨hrecord s hs _ _, trivial⟩) fun _ => ?_
    exact keeps_modify fun s hs => hd.count s hs _ _

/-! ## Syncs -/

/-- What a sync needs to be allowed to make some files those of an application. -/
structure MayReplace (d : Discipline) (dir : ScenarioDir) (server : Server) (uuid : String)
    (files : List ScenarioFile) : Prop where
  lock : d.lock ⟨uuid, server.id⟩
  list : d.call server (.run [dir.listCommand])
  upload : ∀ token, IsToken token → ∀ f ∈ files,
    d.call server (.upload (ScenarioDir.staged (dir.staging uuid token) f.name) f.contents)
  activation : ∀ token, IsToken token → ∀ output,
    d.call server (.run (dir.activation (dir.staging uuid token)
      (ScenarioDir.ownedIn uuid output) files))
  cleanup : ∀ token, IsToken token →
    d.call server (.run [s!"rm -rf {Text.Word.quote (dir.staging uuid token)}"])

theorem locked_keeps {α : Type} {lock : Lock} {t : Work α} (hlock : d.lock lock)
    (h : Keeps d t) : Keeps d (ScenarioDir.locked lock t) :=
  ⟨hlock, Process.Obeys.bind (h.mono fun _ _ => ⟨hlock, trivial⟩)⟩

theorem uploadAll_keeps {server : Server} {staging : String} {files : List ScenarioFile}
    (h : ∀ f ∈ files, d.call server (.upload (ScenarioDir.staged staging f.name) f.contents)) :
    Keeps d (ScenarioDir.uploadAll server staging files) := by
  induction files with
  | nil => exact keeps_pure ()
  | cons f files ih =>
    refine keeps_bind (obeys_upload (h f List.mem_cons_self) fun _ _ => trivial) fun _ => ?_
    exact ih fun g hg => h g (List.mem_cons_of_mem f hg)

theorem replace_keeps {dir : ScenarioDir} {server : Server} {uuid : String}
    {files : List ScenarioFile} (h : MayReplace d dir server uuid files) (hd : d.Upkeep)
    (isCurrent : Orchestrator → Bool) :
    Keeps d (dir.replace server uuid files isCurrent Orchestrator.count) := by
  refine locked_keeps h.lock (keeps_bind_read fun s current _ _ => ?_)
  cases current with
  | false => exact keeps_pure false
  | true =>
    refine keeps_bind (t := dir.replaceHeld server uuid files) ?_ fun _ => ?_
    · refine obeys_bind (obeys_bind (obeys_run h.list fun answer _ => ?_))
      cases answer with
      | error e => exact trivial
      | ok output =>
        refine obeys_bind (obeys_fresh fun token htoken => ?_)
        refine keeps_bind (obeys_attempt ?_) fun result => ?_
        · refine keeps_bind (uploadAll_keeps (h.upload token htoken)) fun _ => ?_
          exact keeps_bind (keeps_run (h.activation token htoken output)) fun _ => keeps_pure ()
        · cases result with
          | ok _ => exact keeps_pure ()
          | error e =>
            exact keeps_bind (obeys_attempt (keeps_run (h.cleanup token htoken))) fun _ => trivial
    · exact keeps_bind (keeps_modify fun s hs => hd.count s hs _ _) fun _ => keeps_pure true

theorem sync_keeps {firewall : UInt64} (generation : UInt64) (hd : d.Upkeep)
    (h : ∀ s, d.state s → ∀ c files, s.activeContext firewall = .ok c →
      c.files s.settings.scenarios = .ok files →
      MayReplace d s.scenarioDir c.server c.uuid files)
    (hreload : ∀ s, d.state s → ∀ server, d.call server (.run
      ["docker kill --signal=SIGHUP " ++ Text.Word.quote s.engine.settings.container]))
    (hredeploy : ∀ s, d.state s → d.change s (s.takeRedeploy firewall).2) :
    Keeps d (sync firewall generation) := by
  refine keeps_bind_read fun s superseded _ _ => ?_
  cases superseded with
  | true => exact keeps_pure ()
  | false =>
    refine keeps_bind_read fun s a hs ha => ?_
    obtain ⟨c, files, engine, dir⟩ := a
    obtain ⟨c', hc, ha⟩ := Except.bind_eq_ok_iff.mp ha
    obtain ⟨files', hfiles, ha⟩ := Except.bind_eq_ok_iff.mp ha
    obtain ⟨rfl, htail⟩ := Prod.mk.inj (Except.ok.inj ha)
    obtain ⟨rfl, hlast⟩ := Prod.mk.inj htail
    obtain ⟨rfl, rfl⟩ := Prod.mk.inj hlast
    have hfiles' : c'.files s.settings.scenarios = .ok files' := by
      cases hr : c'.files s.settings.scenarios with
      | ok fs => rw [hr] at hfiles; exact congrArg _ (Except.ok.inj hfiles)
      | error e => rw [hr] at hfiles; cases hfiles
    refine keeps_bind (replace_keeps (h s hs c' files' hc hfiles') hd _) fun written => ?_
    cases written with
    | false => exact keeps_pure ()
    | true =>
      refine keeps_bind (keeps_bind (keeps_run (hreload s hs c'.server)) fun _ => keeps_pure ())
        fun _ => ?_
      refine keeps_bind (keeps_bind (obeys_modifyGet fun s hs => ⟨?_, trivial⟩) ?_) fun _ => ?_
      · exact hredeploy s hs
      · intro due
        cases due with
        | true => exact keeps_bind (obeys_attempt (obeys_tell fun _ => trivial)) fun _ => trivial
        | false => exact keeps_pure ()
      · exact keeps_modify fun s hs => hd.reload s hs _

end Deploy

/-! ## Attempts -/

namespace Orchestrator

variable {d : Discipline}

/-- The end of an attempt. -/
def ending (e : Entry Job) (result : Except Failure Unit) : Process Orchestrator Unit :=
  .atomic (fun s => (works.settle e result s).2) fun s =>
    match (works.settle e result s).1 with
    | none => .done ()
    | some failure => (works.failed e.job failure).bind fun _ =>
      .atomic (works.reschedule .finish) fun _ => .done ()

/-- An attempt begins, does its job and ends. -/
theorem attempt_eq (e : Entry Job) :
    works.attempt e = .atomic id fun s =>
      (handle e.job (e.attempts + 1)).process.bind (ending (e.begin s.scheduler.now)) := rfl

theorem ending_obeys {e : Entry Job} {result : Except Failure Unit}
    (hfailed : ∀ failure, failed e.job failure = .done ())
    (hsettle : ∀ s, d.state s → d.change s (works.settle e result s).2)
    (hfinish : ∀ s, d.state s → d.change s (works.reschedule .finish s)) :
    (ending e result).Obeys d fun _ => True := by
  intro s hs
  refine ⟨hsettle s hs, ?_⟩
  cases hreport : (works.settle e result s).1 with
  | none =>
    simp only [hreport]
    trivial
  | some failure =>
    have hnothing : works.failed e.job failure = .done () := hfailed failure
    simp only [hreport, hnothing]
    exact fun t ht => ⟨hfinish t ht, trivial⟩

/-- **An attempt of a job that keeps to a discipline.** -/
theorem attempt_obeys {e : Entry Job} (hjob : Deploy.Keeps d (handle e.job (e.attempts + 1)))
    (hfailed : ∀ failure, failed e.job failure = .done ())
    (hsettle : ∀ now result s, d.state s →
      d.change s (works.settle (e.begin now) result s).2)
    (hfinish : ∀ s, d.state s → d.change s (works.reschedule .finish s)) :
    (works.attempt e).Obeys d fun _ => True := by
  rw [attempt_eq]
  intro s hs
  refine ⟨d.idle s, Process.Obeys.bind (hjob.mono fun result _ => ?_)⟩
  exact ending_obeys hfailed (hsettle s.scheduler.now result) hfinish

end Orchestrator

end Rampart
