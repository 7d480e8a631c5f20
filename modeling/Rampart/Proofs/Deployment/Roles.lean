import Rampart.Proofs.Bus
import Rampart.Proofs.Deployment.CredentialSteps

/-!
# What the workers are doing for an application

For every worker the part that it plays for one application, which its process alone does not
tell: how far a sync has come, and with which files; or that it is about to record the
application's bouncer; or that it leaves the application alone.

* `Role`, `Role.process`: the parts, each with the process of a worker that plays it.
* `Base`, `Cast`, `News`: what holds of the state, of the workers, and of both together.
* **`News`**: as long as the files of an active firewall are not what its rules call for, something
  is on the way that will make them so.
-/

namespace Rampart.Convergence

open Execution Orchestrator
open Remote (Files)

/-! ## Servers -/

/-- Servers that do what they are asked to, where `files` gives their files. -/
structure Faultless {ρ : Type} (o : Outside ρ) (files : ρ → UInt64 → Files) : Prop where
  effect : ∀ server c x answer y, o.answers server c x answer y →
    files y = Function.update (files x) server.id ((files x server.id).after c).1
  success : ∀ server c x answer y, o.answers server c x answer y →
    ((files x server.id).after c).2 = true → ∃ output, answer = .ok output
  /-- A listing has every file of the directory on a line of its own. -/
  listing : ∀ server (d : ScenarioDir) x output y,
    o.answers server (.run [d.listCommand]) x (.ok output) y →
    ∃ names : List String, output.toList = Text.listing (names.map String.toList) ∧
      ∀ name, '/' ∉ name.toList → files x server.id (d.file name) ≠ none → name ∈ names
  /-- A bouncer that is registered gets a credential. -/
  credential : ∀ server (engine : Engine.Client) name key x output y,
    o.answers server (.run (engine.registerCommands name key)) x (.ok output) y →
    ∃ key, Engine.Client.lastLine? output = some key

/-- The same files at the paths of an application. -/
def SameFiles (site : Site) (fs fs' : Files) : Prop :=
  ∀ path, IsScenarioPath site.dir site.uuid path → fs' path = fs path

/-! ## Roles -/

/-- How far a sync of the application has come. -/
inductive Phase
  | beginning
  | checking
  | reading
  | waiting (files : List ScenarioFile)
  | confirming (files : List ScenarioFile)
  | listing (files : List ScenarioFile)
  | naming (files : List ScenarioFile) (existing : List String)
  | uploading (files : List ScenarioFile) (existing : List String) (token : String)
    (rest : List ScenarioFile)
  | counting (files : List ScenarioFile)
  | releasing (written : Bool)

namespace Phase

/-- What is left to do in an attempt of a sync. -/
def process (site : Site) (e : Entry Job) (generation : UInt64) :
    Phase → Process Orchestrator Unit
  | beginning => works.attempt e
  | checking => (Deploy.sync site.firewall generation).process.bind (ending e)
  | reading => Sync.reading site generation (ending e)
  | waiting files => Sync.waiting site generation (ending e) files
  | confirming files => Sync.confirming site generation (ending e) files
  | listing files => Sync.listing site (ending e) files
  | naming files existing => Sync.naming site (ending e) files existing
  | uploading files existing token rest =>
    Sync.uploading site (ending e) files existing (site.dir.staging site.uuid token) rest
  | counting files => Sync.counting site (ending e) files
  | releasing written => Sync.releasing site (ending e) (.ok written)

/-- The rules have not been read yet. -/
def isUnread : Phase → Bool
  | beginning | checking | reading => true
  | _ => false

/-- The files that were made of the rules and are not in place yet. -/
def files? : Phase → Option (List ScenarioFile)
  | waiting files | confirming files | listing files | naming files _ | uploading files _ _ _ =>
    some files
  | _ => none

/-- Nothing will stop the files from being put into place. -/
def isWriting : Phase → Bool
  | listing _ | naming _ _ | uploading _ _ _ _ => true
  | _ => false

/-- The lock is held. -/
def holds : Phase → Bool
  | confirming _ | listing _ | naming _ _ | uploading _ _ _ _ | counting _ | releasing _ => true
  | _ => false

/-- What a sync remembers fits the files of the server. -/
def Sound (site : Site) (fs : Files) : Phase → Prop
  | waiting files | confirming files | listing files => AreFilesOf site.uuid files
  | naming files existing => AreFilesOf site.uuid files ∧ Covers site.dir site.uuid fs existing
  | uploading files existing token rest => AreFilesOf site.uuid files ∧
    Covers site.dir site.uuid fs existing ∧ IsToken token ∧
    ∃ done, files = done ++ rest ∧ Staged fs (site.dir.staging site.uuid token) done
  | _ => True

end Phase

/-- What a worker is doing, as far as the application is concerned. -/
inductive Role
  /-- The worker is free. -/
  | idle
  /-- The application is left alone. -/
  | quiet (p : Process Orchestrator Unit)
  | sync (e : Entry Job) (generation : UInt64) (phase : Phase)
  /-- A registration of the bouncer that has not begun. -/
  | calling (e : Entry Job)
  /-- A registration of the bouncer, before it looks at the firewall. -/
  | looking (e : Entry Job)
  /-- A registration of the bouncer, before the engine is asked. -/
  | registering (e : Entry Job) (name : String) (key : Option String)
  /-- A registration of the bouncer, before it is recorded. -/
  | recording (e : Entry Job) (name key : String)

namespace Role

/-- The process of a worker. -/
def process (site : Site) : Role → Option (Process Orchestrator Unit)
  | idle => none
  | quiet p => some p
  | sync e generation phase => some (phase.process site e generation)
  | calling e => some (works.attempt e)
  | looking e => some ((Deploy.provision site.firewall).process.bind (ending e))
  | registering e name key => some (Provision.registering site (ending e) name key)
  | recording e name key => some (Provision.recording site (ending e) name key)

/-- The generation of a sync. -/
def generation? : Role → Option UInt64
  | sync _ generation _ => some generation
  | _ => none

/-- The lock is held. -/
def holds : Role → Bool
  | sync _ _ phase => phase.holds
  | _ => false

/-- A sync of a generation that has not read the rules. -/
def isDue (generation : UInt64) : Role → Bool
  | sync _ g phase => g == generation && phase.isUnread
  | _ => false

/-- A sync of a generation whose files are not in place yet. -/
def isUnderway (generation : UInt64) : Role → Bool
  | sync _ g phase => g == generation && phase.files?.isSome
  | _ => false

/-- The bouncer will be recorded if it is still missing. -/
def mayRecord : Role → Bool
  | calling _ | looking _ => true
  | _ => false

/-- The bouncer will be recorded. -/
def willRecord : Role → Bool
  | registering _ _ _ | recording _ _ _ => true
  | _ => false

/-- What a sync of a generation has made of the rules is what they call for. -/
def Fresh (isTarget : ScenarioFile → Prop) (generation : UInt64) : Role → Prop
  | sync _ g phase => g = generation → ∀ files ∈ phase.files?, ∀ f, f ∈ files ↔ isTarget f
  | _ => True

/-- If the files are put into place for certain, they are what the rules call for. -/
def WritesOnly (isTarget : ScenarioFile → Prop) : Role → Prop
  | sync _ _ phase => phase.isWriting = true → ∀ files ∈ phase.files?, ∀ f, f ∈ files ↔ isTarget f
  | _ => True

/-- What a worker remembers fits the rest. -/
def Sound {ρ : Type} (site : Site) (o : Outside ρ) (fs : Files) (newest : UInt64) : Role → Prop
  | idle => True
  | quiet p => p.Obeys (Rampart.quiet site o) fun _ => True
  | sync e generation phase => e.job = .sync site.firewall generation ∧ generation ≤ newest ∧
    phase.Sound site fs
  | calling e | looking e | registering e _ _ | recording e _ _ => e.job = .provision site.firewall

end Role

/-! ## Invariants -/

section

variable {ρ : Type} (site : Site) (o : Outside ρ) (files : ρ → UInt64 → Files)

/-- The generations of the syncs of the application that have not begun. -/
def syncs (s : Orchestrator) : List UInt64 :=
  s.jobs.filterMap (Job.syncOf? site.firewall)

/-- The files of the application's server. -/
def filesOf (c : Config ρ) : Files :=
  files c.outside site.server.id

/-- What holds of the state after so many steps. -/
structure Base (n : Nat) (c : Config ρ) : Prop where
  knows : c.state.KnowsSite site
  bus : ∃ position, c.state.ruleBus.Follows Simulation.deployer position
  fit : c.state.scheduler.IsFit
  deployment : ∀ job ∈ c.state.jobs, job.IsDeployment
  bounded : (c.state.generation site.firewall).toNat ≤ n
  old : ∀ g ∈ syncs site c.state, g ≤ c.state.generation site.firewall
  distinct : (syncs site c.state).Nodup
  blankFree : ∀ name, IsScenarioName site.uuid name →
    filesOf site files c (site.dir.file name) ≠ none → IsBlankFree name

/-- What holds of the workers: every sync is done by one of them, and one of them holds the
lock. -/
structure Cast (c : Config ρ) (roles : Nat → Role) : Prop where
  workers : ∀ i, c.workers i = (roles i).process site
  sound : ∀ i, (roles i).Sound site o (filesOf site files c) (c.state.generation site.firewall)
  apart : ∀ i g, (roles i).generation? = some g → g ∉ syncs site c.state
  single : ∀ i j g, (roles i).generation? = some g → (roles j).generation? = some g → i = j
  held : ∀ i, (roles i).holds = true → site.lock ∈ c.held
  exclusive : ∀ i j, (roles i).holds = true → (roles j).holds = true → i = j

/-- An event that leads to a sync has not been handled, or events were lost. -/
def Notice (c : Config ρ) : Prop :=
  c.state.ruleBus.IsBehind Simulation.deployer ∨
    ∃ e, (e ∈ c.unannounced ∨ e ∈ c.state.ruleBus.unread Simulation.deployer) ∧
      site.WillSync c.state.store e

/-- The newest sync will put its files into place, or has done so and nobody will undo it. -/
def Supply (c : Config ρ) (roles : Nat → Role) : Prop :=
  c.state.generation site.firewall ∈ syncs site c.state ∨
  (∃ i, (roles i).isDue (c.state.generation site.firewall) = true) ∨
  (∃ i, (roles i).isUnderway (c.state.generation site.firewall) = true) ∨
  (HasExactly site.dir site.uuid (filesOf site files c) (site.IsTarget c.state.store) ∧
    ∀ i, (roles i).WritesOnly (site.IsTarget c.state.store))

/-- **Something is on the way** as long as the files of an active firewall are not those that its
rules call for: an event, a bouncer whose recording is such an event, or the newest sync. -/
def News (c : Config ρ) (roles : Nat → Role) : Prop :=
  ∀ firewall, c.state.store.firewalls.get? site.firewall = some firewall →
    firewall.isActive = true →
    Notice site c ∨ (∃ i, (roles i).willRecord = true) ∨
    (firewall.needsBouncer = true ∧ (.provision site.firewall ∈ c.state.jobs ∨
      ∃ i, (roles i).mayRecord = true)) ∨
    ((∀ i, (roles i).Fresh (site.IsTarget c.state.store) (c.state.generation site.firewall)) ∧
      Supply site files c roles)

end

end Rampart.Convergence
