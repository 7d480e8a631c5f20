import Rampart.Proofs.Deployment.Quiet

/-!
# The steps of a sync

A sync as the chain of its steps, each with what follows it. Between two steps other processes may
take theirs; what a sync remembers from one step to the next are the files, the names that a
listing showed, and the directory of the new files.

* `Sync.reading`, `Sync.waiting`, …, `Sync.releasing`: what is left of a sync before each step.
* **`sync_eq`**: a sync looks whether it is superseded and then reads.
* **`reading_eq`**: after a look at a state that knows the application, it waits for the lock, and
  from there on it goes through the steps.
-/

namespace Rampart

open Execution

/-! ## Tasks within a process -/

namespace Task

variable {σ α β γ : Type}

/-- How a process goes on after the first part of a task. -/
def onward (f : α → Task σ β) (k : Except Failure β → Process σ γ) :
    Except Failure α → Process σ γ
  | .ok a => (f a).process.bind k
  | .error e => k (.error e)

variable (k : Except Failure β → Process σ γ)

theorem process_bind (t : Task σ α) (f : α → Task σ β) :
    (t >>= f).process.bind k = t.process.bind (onward f k) := by
  refine (Process.bind_assoc _ _ _).trans ?_
  congr 1
  funext result
  cases result <;> rfl

theorem process_pure (b : β) : (pure b : Task σ β).process.bind k = k (.ok b) := rfl

theorem process_read_bind (f : σ → Except Failure α) (g : α → Task σ β) :
    (Task.read f >>= g).process.bind k = .atomic id fun s => onward g k (f s) := by
  rw [process_bind]
  rfl

theorem process_run_bind (server : Server) (commands : List String) (g : String → Task σ β) :
    (Task.run server commands >>= g).process.bind k =
      .call server (.run commands) (onward g k) := by
  rw [process_bind]
  rfl

theorem process_fresh_bind (g : String → Task σ β) :
    (Task.fresh >>= g).process.bind k = .fresh fun name => (g name).process.bind k := by
  rw [process_bind]
  rfl

theorem process_attempt_bind (t : Task σ α) (g : Except Failure α → Task σ β) :
    (Task.attempt t >>= g).process.bind k = t.process.bind fun r => (g r).process.bind k := by
  rw [process_bind]
  exact Process.bind_assoc _ _ _

theorem process_locked_bind (lock : Lock) (t : Task σ α) (g : α → Task σ β) :
    (ScenarioDir.locked lock t >>= g).process.bind k =
      .acquire lock (t.process.bind fun r => .release lock (onward g k r)) := by
  rw [process_bind]
  exact congrArg (Process.acquire lock) (Process.bind_assoc _ _ _)

end Task

/-! ## The steps -/

namespace Sync

variable (site : Site) (generation : UInt64) (k : Except Failure Unit → Process Orchestrator Unit)

/-- What a sync does after it has replaced the files. -/
def finishing (written : Bool) : Deploy.Work Unit := do
  if !written then return
  site.engine.reload site.server
  Deploy.redeployIfDue site.firewall site.application.id
  Task.modify (·.dispatchReload site.server.id)

/-- Before the lock is given back. -/
def releasing (written : Except Failure Bool) : Process Orchestrator Unit :=
  .release site.lock (Task.onward (finishing site) k written)

/-- Before the files are counted; they are in place. -/
def counting (files : List ScenarioFile) : Process Orchestrator Unit :=
  .atomic (Orchestrator.count .scenariosUploaded files.length) fun _ => releasing site k (.ok true)

/-- Before the new files are removed, after a failure. -/
def aborting (staging : String) (failure : Failure) : Process Orchestrator Unit :=
  .call site.server (.run [s!"rm -rf {Text.Word.quote staging}"]) fun _ =>
    releasing site k (.error failure)

/-- How it goes on after the files were put into place, or after a failure. -/
def placed (files : List ScenarioFile) (staging : String) :
    Except Failure Unit → Process Orchestrator Unit
  | .ok _ => counting site k files
  | .error e => aborting site k staging e

/-- Before the rest of the new files is written, and all are put into place. -/
def uploading (files : List ScenarioFile) (existing : List String) (staging : String) :
    List ScenarioFile → Process Orchestrator Unit
  | [] => .call site.server (.run (site.dir.activation staging existing files)) fun answer =>
    placed site k files staging (answer.map fun _ => ())
  | f :: rest => .call site.server (.upload (ScenarioDir.staged staging f.name) f.contents) fun
    | .ok _ => uploading files existing staging rest
    | .error e => aborting site k staging e

/-- Before the new files get a directory. -/
def naming (files : List ScenarioFile) (existing : List String) : Process Orchestrator Unit :=
  .fresh fun token => uploading site k files existing (site.dir.staging site.uuid token) files

/-- Before the files in place are listed. -/
def listing (files : List ScenarioFile) : Process Orchestrator Unit :=
  .call site.server (.run [site.dir.listCommand]) fun
    | .ok output => naming site k files (ScenarioDir.ownedIn site.uuid output)
    | .error e => releasing site k (.error e)

/-- With the lock, before the last look at whether the sync is superseded. -/
def confirming (files : List ScenarioFile) : Process Orchestrator Unit :=
  .atomic id fun s =>
    if s.isSuperseded site.firewall generation then releasing site k (.ok false)
    else listing site k files

/-- Before the lock. -/
def waiting (files : List ScenarioFile) : Process Orchestrator Unit :=
  .acquire site.lock (confirming site generation k files)

/-! ## How they follow each other -/

theorem uploading_eq (files : List ScenarioFile) (existing : List String) (staging : String)
    (rest : List ScenarioFile) :
    (do
      ScenarioDir.uploadAll site.server staging rest
      let _ ← Task.run site.server (site.dir.activation staging existing files) :
        Deploy.Work Unit).process.bind (placed site k files staging) =
      uploading site k files existing staging rest := by
  induction rest with
  | nil =>
    rw [Task.process_bind]
    change Process.call _ _ _ = Process.call _ _ _
    congr 1
    funext answer
    cases answer <;> rfl
  | cons f rest ih =>
    rw [Task.process_bind] at ih ⊢
    change Process.call _ _ _ = Process.call _ _ _
    congr 1
    funext answer
    cases answer with
    | ok _ => exact ih
    | error e => rfl

/-- How it goes on after the files were replaced, or after a failure. -/
def replaced (files : List ScenarioFile) : Except Failure Unit → Process Orchestrator Unit
  | .ok _ => counting site k files
  | .error e => releasing site k (.error e)

theorem listing_eq (files : List ScenarioFile) :
    (site.dir.replaceHeld site.server site.uuid files : Deploy.Work Unit).process.bind
      (replaced site k files) = listing site k files := by
  rw [ScenarioDir.replaceHeld, Task.process_bind, ScenarioDir.present, Task.process_run_bind]
  unfold listing
  congr 1
  funext answer
  cases answer with
  | error e => rfl
  | ok output =>
    simp only [Task.onward]
    rw [Task.process_pure]
    simp only [Task.onward]
    rw [Task.process_fresh_bind]
    unfold naming
    congr 1
    funext token
    rw [Task.process_attempt_bind, ← uploading_eq]
    unfold ScenarioDir.activate
    congr 1
    funext result
    cases result with
    | ok _ => rfl
    | error e =>
      simp only
      rw [Task.process_attempt_bind]
      rfl

theorem waiting_eq (files : List ScenarioFile) :
    (site.dir.replace site.server site.uuid files
        (fun s => !s.isSuperseded site.firewall generation) Orchestrator.count >>=
      finishing site).process.bind k = waiting site generation k files := by
  rw [ScenarioDir.replace, Task.process_locked_bind, Task.process_read_bind]
  unfold waiting confirming
  congr 2
  funext s
  simp only [Task.onward]
  cases s.isSuperseded site.firewall generation with
  | true => rfl
  | false =>
    rw [Bool.not_false, if_pos rfl, Task.process_bind, if_neg Bool.false_ne_true, ← listing_eq]
    congr 1
    funext result
    cases result <;> rfl

/-! ## The beginning -/

/-- Before the rules are read. -/
def reading : Process Orchestrator Unit :=
  (do
    let (c, files, engine, dir) ← Task.read fun s => do
      let c ← s.activeContext site.firewall
      let files ← Failure.ofRule (c.files s.settings.scenarios)
      return (c, files, s.engine, s.scenarioDir)
    let written ← dir.replace c.server c.uuid files
      (fun s => !s.isSuperseded site.firewall generation) Orchestrator.count
    if !written then return
    engine.reload c.server
    Deploy.redeployIfDue site.firewall c.application.id
    Task.modify (·.dispatchReload c.server.id) : Deploy.Work Unit).process.bind k

/-- **A sync** looks whether it is superseded, and then reads. -/
theorem sync_eq :
    (Deploy.sync site.firewall generation).process.bind k = .atomic id fun s =>
      if s.isSuperseded site.firewall generation then k (.ok ())
      else reading site generation k := by
  rw [Deploy.sync, Task.process_read_bind]
  congr 1
  funext s
  simp only [Task.onward]
  cases s.isSuperseded site.firewall generation <;> rfl

/-- **The rules are read** in a state that knows the application: if its firewall is active, the
sync has the files that the rules call for, and otherwise there is nothing to do. -/
theorem reading_eq :
    ∃ next, reading site generation k = .atomic id next ∧
      ∀ s : Orchestrator, s.KnowsSite site → ∀ firewall,
        s.store.firewalls.get? site.firewall = some firewall →
        (firewall.isActive = false ∧
          ∃ failure, failure.isConfiguration = true ∧ next s = k (.error failure)) ∨
        (firewall.isActive = true ∧ ∃ files, AreFilesOf site.uuid files ∧
          (∀ file, file ∈ files ↔ site.IsTarget s.store file) ∧
          next s = waiting site generation k files) := by
  refine ⟨_, by rw [reading, Task.process_read_bind], ?_⟩
  intro s hs firewall hfirewall
  have hcontext := hs.contextOf hfirewall
  obtain ⟨files, hfiles, hof, htarget⟩ := Site.files_eq hs.store hfirewall
  have hsame : (Context.of site.application firewall (s.store.rulesOf site.firewall)
    site.server).firewall = firewall := rfl
  have hengine : s.engine = site.engine := by
    rw [Orchestrator.engine, hs.settings]
    rfl
  have hdir : s.scenarioDir = site.dir := by
    rw [Orchestrator.scenarioDir, hs.settings]
    rfl
  simp only [Orchestrator.activeContext, hcontext, bind, Except.bind, hsame]
  cases hactive : firewall.isActive with
  | false =>
    refine .inl ⟨rfl, _, ?_, rfl⟩
    rfl
  | true =>
    refine .inr ⟨rfl, files, hof, htarget, ?_⟩
    rw [if_pos rfl, ← waiting_eq]
    simp only [pure, Except.pure, hs.settings, hfiles, Failure.ofRule, hengine, hdir]
    rfl

end Sync

end Rampart
