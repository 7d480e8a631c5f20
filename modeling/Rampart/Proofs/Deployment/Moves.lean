import Rampart.Proofs.Deployment.Frame

/-!
# What the steps of the workers mean for an application

The steps of a worker's process, seen from one application whose server does what it is asked to.

* `Turn`: how a role goes over into another while nothing of the application changes.
* `Moves`: all that a step may be: a turn, the lock that is taken or given back, a file that is
  written, the files that are put into place, or the bouncer that is recorded.
* **`moves_of_advance`**: every step of a worker's process is a move of its role.
-/

namespace Rampart.Convergence

open Execution Orchestrator
open Remote (Files)
open ScenarioDir (staged)

section

variable {ρ : Type} (site : Site) (o : Outside ρ) (files : ρ → UInt64 → Files)

/-- A step that changes nothing of an application. -/
structure Aside (w w' : Shared ρ) : Prop where
  state : Harmless site w.state w'.state
  files : SameFiles site (files w.outside site.server.id) (files w'.outside site.server.id)
  held : site.lock ∈ w'.held ↔ site.lock ∈ w.held

/-- How a role goes over into another while nothing of the application changes. -/
inductive Turn (w : Shared ρ) : Role → Role → Prop
  | quiet {p p' : Process Orchestrator Unit}
    (h : p'.Obeys (Rampart.quiet site o) fun _ => True) : Turn w (.quiet p) (.quiet p')
  | begin {e e' : Entry Job} {g : UInt64} (h : e'.job = e.job) :
    Turn w (.sync e g .beginning) (.sync e' g .checking)
  | check {e : Entry Job} {g : UInt64} : Turn w (.sync e g .checking) (.sync e g .reading)
  | drop {e : Entry Job} {g : UInt64} {p' : Process Orchestrator Unit}
    (h : p'.Obeys (Rampart.quiet site o) fun _ => True)
    (hold : g < w.state.generation site.firewall) : Turn w (.sync e g .checking) (.quiet p')
  | stop {e : Entry Job} {g : UInt64} {p' : Process Orchestrator Unit}
    (h : p'.Obeys (Rampart.quiet site o) fun _ => True)
    (hinactive : ∀ firewall, w.state.store.firewalls.get? site.firewall = some firewall →
      firewall.isActive = false) : Turn w (.sync e g .reading) (.quiet p')
  | read {e : Entry Job} {g : UInt64} {fs : List ScenarioFile} (hfiles : AreFilesOf site.uuid fs)
    (htarget : ∀ f, f ∈ fs ↔ site.IsTarget w.state.store f) :
    Turn w (.sync e g .reading) (.sync e g (.waiting fs))
  | confirm {e : Entry Job} {g : UInt64} {fs : List ScenarioFile}
    (h : g = w.state.generation site.firewall) :
    Turn w (.sync e g (.confirming fs)) (.sync e g (.listing fs))
  | reject {e : Entry Job} {g : UInt64} {fs : List ScenarioFile}
    (h : g < w.state.generation site.firewall) :
    Turn w (.sync e g (.confirming fs)) (.sync e g (.releasing false))
  | list {e : Entry Job} {g : UInt64} {fs : List ScenarioFile} {existing : List String}
    (h : Covers site.dir site.uuid (files w.outside site.server.id) existing) :
    Turn w (.sync e g (.listing fs)) (.sync e g (.naming fs existing))
  | name {e : Entry Job} {g : UInt64} {fs : List ScenarioFile} {existing : List String}
    {token : String} (h : IsToken token) :
    Turn w (.sync e g (.naming fs existing)) (.sync e g (.uploading fs existing token fs))
  | count {e : Entry Job} {g : UInt64} {fs : List ScenarioFile} :
    Turn w (.sync e g (.counting fs)) (.sync e g (.releasing true))
  | call {e e' : Entry Job} (h : e'.job = e.job) : Turn w (.calling e) (.looking e')
  | unneeded {e : Entry Job} {p' : Process Orchestrator Unit}
    (h : p'.Obeys (Rampart.quiet site o) fun _ => True)
    (hneeds : ∀ firewall, w.state.store.firewalls.get? site.firewall = some firewall →
      firewall.needsBouncer = false) : Turn w (.looking e) (.quiet p')
  | need {e : Entry Job} {name : String} {key : Option String} :
    Turn w (.looking e) (.registering e name key)
  | register {e : Entry Job} {name key' : String} {key : Option String} :
    Turn w (.registering e name key) (.recording e name key')

/-- **What a step of a worker may be.** -/
inductive Moves (w : Shared ρ) : Role → Shared ρ → Role → Prop
  | turn {r r' : Role} {w' : Shared ρ} (hr : Turn site o files w r r')
    (h : Aside site files w w') : Moves w r w' r'
  | lock {e : Entry Job} {g : UInt64} {fs : List ScenarioFile} (h : site.lock ∉ w.held) :
    Moves w (.sync e g (.waiting fs)) { w with held := site.lock :: w.held }
      (.sync e g (.confirming fs))
  | upload {e : Entry Job} {g : UInt64} {fs rest : List ScenarioFile} {existing : List String}
    {token : String} {f : ScenarioFile} {after : ρ}
    (h : files after site.server.id = (files w.outside site.server.id).write
      (staged (site.dir.staging site.uuid token) f.name) f.contents) :
    Moves w (.sync e g (.uploading fs existing token (f :: rest))) { w with outside := after }
      (.sync e g (.uploading fs existing token rest))
  | place {e : Entry Job} {g : UInt64} {fs : List ScenarioFile} {existing : List String}
    {token : String} {after : ρ}
    (h : HasExactly site.dir site.uuid (files after site.server.id) (· ∈ fs)) :
    Moves w (.sync e g (.uploading fs existing token [])) { w with outside := after }
      (.sync e g (.counting fs))
  | unlock {e : Entry Job} {g : UInt64} {written : Bool} {p' : Process Orchestrator Unit}
    (h : p'.Obeys (Rampart.quiet site o) fun _ => True) :
    Moves w (.sync e g (.releasing written)) { w with held := w.held.erase site.lock }
      (.quiet p')
  | record {e : Entry Job} {name key : String} {store : Store} {p' : Process Orchestrator Unit}
    (hknows : site.Knows store) (h : p'.Obeys (Rampart.quiet site o) fun _ => True) :
    Moves w (.recording e name key)
      { w with state := ({ w.state with store }.announce (.firewallChanged site.firewall)).2 }
      (.quiet p')

end

variable {ρ : Type} {site : Site} {o : Outside ρ} {files : ρ → UInt64 → Files}

/-! ## Steps aside -/

theorem Aside.refl (w : Shared ρ) : Aside site files w w :=
  ⟨.refl _, .refl _, Iff.rfl⟩

/-- A call that leaves the application's files alone. -/
theorem sameFiles_of_answers (hfaultless : Faultless o files) {server : Server} {c : Remote.Call}
    {x y : ρ} {answer : Except Failure String} (h : o.answers server c x answer y)
    (hspares : Spares site.dir site.uuid c) :
    SameFiles site (files x site.server.id) (files y site.server.id) := by
  intro path hpath
  rw [hfaultless.effect server c x answer y h]
  by_cases hid : site.server.id = server.id
  · rw [hid, Function.update_self]
    exact hspares _ path hpath
  · rw [Function.update_of_ne hid]

theorem sameFiles_of_touched (hfaultless : Faultless o files) {x y : ρ}
    (h : Touched o (Rampart.quiet site o) x y) :
    SameFiles site (files x site.server.id) (files y site.server.id) := by
  induction h with
  | refl x => exact .refl _
  | head hc ha _ ih =>
    exact fun path hpath =>
      (ih path hpath).trans (sameFiles_of_answers hfaultless ha hc path hpath)

/-- A step of a process that leaves the application alone. -/
theorem Aside.of_disciplined (hfaultless : Faultless o files) {w w' : Shared ρ}
    (h : Disciplined o (Rampart.quiet site o) w w') : Aside site files w w' :=
  ⟨h.state, sameFiles_of_touched hfaultless h.outside, h.held site.lock fun hlock => hlock rfl⟩

/-- Commands that change no files succeed, and they are a step aside. -/
theorem of_answers_run (site : Site) (hfaultless : Faultless o files) {server : Server}
    {lines : List String} {w : Shared ρ} {answer : Except Failure String} {after : ρ}
    (h : o.answers server (.run lines) w.outside answer after)
    (hlines : ∀ line ∈ lines, Files.Ignores line) :
    (∃ output, answer = .ok output) ∧ Aside site files w { w with outside := after } := by
  constructor
  · refine hfaultless.success server _ _ answer after h ?_
    rw [Files.after, Files.script_of_ignores hlines]
  · exact ⟨.refl _, sameFiles_of_answers hfaultless h (.of_ignores hlines), Iff.rfl⟩

/-! ## How attempts end -/

/-- After an attempt that has succeeded or will not be repeated. -/
theorem ending_quiet {e : Entry Job} (hjob : e.job.IsDeployment) {result : Except Failure Unit}
    (h : ∀ failure, result = .error failure → failure.isConfiguration = true) :
    (ending e result).Obeys (quiet site o) fun _ => True :=
  ending_obeys (Quiet.failed_eq hjob) (fun s _ => Harmless.settle (.inr h) s)
    fun s _ => Harmless.finish s

theorem ending_quiet_ok {e : Entry Job} (hjob : e.job.IsDeployment) :
    (ending e (.ok ())).Obeys (quiet site o) fun _ => True :=
  ending_quiet hjob fun _ h => by cases h

/-- What a sync does after it has replaced the files succeeds. -/
theorem finishing_quiet (hfaultless : Faultless o files) (written : Bool) :
    (Sync.finishing site written).Obeys (quiet site o) fun result => result = .ok () := by
  cases written with
  | false => exact Task.obeys_pure rfl
  | true =>
    refine Task.obeys_bind (Task.obeys_bind (Task.obeys_run ?_ fun answer hanswer => ?_))
    · exact Spares.of_ignores (Quiet.ignores_reload site.engine)
    · obtain ⟨x, y, hanswer⟩ := hanswer
      obtain ⟨output, rfl⟩ := hfaultless.success _ _ _ _ _ hanswer (by
        rw [Files.after, Files.script_of_ignores (Quiet.ignores_reload site.engine)])
      refine Task.obeys_pure (Task.obeys_bind (Task.obeys_bind ?_))
      refine Task.obeys_modifyGet fun s hs => ⟨Harmless.takeRedeploy s site.firewall, ?_⟩
      have hreload : (Task.modify (·.dispatchReload site.server.id) : Deploy.Work Unit).Obeys
          (quiet site o) fun result => result = .ok () :=
        Task.obeys_modify (fun s _ => Harmless.dispatchReload s _) rfl
      rcases s.takeRedeploy site.firewall with ⟨due, t⟩
      cases due with
      | false => exact hreload
      | true => exact Task.obeys_bind (Task.obeys_attempt (Task.obeys_tell fun _ => hreload))

/-! ## Roles of syncs -/

section

variable {w w' : Shared ρ} {p' : Process Orchestrator Unit} {e : Entry Job} {g : UInt64}

/-- A step of a worker's process is a move of its role. -/
def IsMove (site : Site) (o : Outside ρ) (files : ρ → UInt64 → Files) (w : Shared ρ) (r : Role)
    (w' : Shared ρ) (p' : Process Orchestrator Unit) : Prop :=
  ∃ r', r'.process site = some p' ∧ Moves site o files w r w' r'

theorem isMove_quiet (hfaultless : Faultless o files) {p : Process Orchestrator Unit}
    (hknows : w.state.KnowsSite site) (hp : p.Obeys (quiet site o) fun _ => True)
    (h : Advance o w p w' p') : IsMove site o files w (.quiet p) w' p' := by
  obtain ⟨hdisciplined, hp'⟩ := Obeys.of_advance (d := quiet site o)
    (fun _ _ x _ y ha => ⟨x, y, ha⟩) hp hknows h
  exact ⟨.quiet p', rfl, .turn (.quiet hp') (.of_disciplined hfaultless hdisciplined)⟩

theorem isMove_beginning (hjob : e.job = .sync site.firewall g)
    (h : Advance o w (works.attempt e) w' p') :
    IsMove site o files w (.sync e g .beginning) w' p' := by
  rw [attempt_eq] at h
  obtain ⟨rfl, rfl⟩ := h.of_atomic
  refine ⟨.sync (e.begin w.state.scheduler.now) g .checking, ?_, .turn (.begin rfl) (.refl w)⟩
  rw [hjob]
  rfl

theorem isMove_checking (hjob : e.job = .sync site.firewall g)
    (h : Advance o w ((Deploy.sync site.firewall g).process.bind (ending e)) w' p') :
    IsMove site o files w (.sync e g .checking) w' p' := by
  rw [Sync.sync_eq] at h
  obtain ⟨rfl, rfl⟩ := h.of_atomic
  have hdeployment : e.job.IsDeployment := hjob ▸ trivial
  cases hold : w.state.isSuperseded site.firewall g with
  | true =>
    exact ⟨.quiet _, rfl, .turn (.drop (ending_quiet_ok hdeployment) (of_decide_eq_true hold))
      (.refl w)⟩
  | false => exact ⟨.sync e g .reading, rfl, .turn .check (.refl w)⟩

theorem isMove_reading (hknows : w.state.KnowsSite site) (hjob : e.job = .sync site.firewall g)
    (h : Advance o w (Sync.reading site g (ending e)) w' p') :
    IsMove site o files w (.sync e g .reading) w' p' := by
  obtain ⟨next, hreading, hnext⟩ := Sync.reading_eq site g (ending e)
  rw [hreading] at h
  obtain ⟨rfl, rfl⟩ := h.of_atomic
  obtain ⟨firewall, hfirewall⟩ := hknows.store.firewall
  rcases hnext w.state hknows firewall hfirewall with
    ⟨hinactive, failure, hfailure, heq⟩ | ⟨_, fs, hfs, htarget, heq⟩
  · refine ⟨.quiet _, rfl, .turn (.stop ?_ fun other hother => ?_) (.refl w)⟩
    · rw [heq]
      exact ending_quiet (hjob ▸ trivial) fun f hf => Except.error.inj hf ▸ hfailure
    · rw [hfirewall] at hother
      exact Option.some.inj hother ▸ hinactive
  · exact ⟨.sync e g (.waiting fs), congrArg some heq.symm, .turn (.read hfs htarget) (.refl w)⟩

theorem isMove_waiting {fs : List ScenarioFile}
    (h : Advance o w (Sync.waiting site g (ending e) fs) w' p') :
    IsMove site o files w (.sync e g (.waiting fs)) w' p' := by
  obtain ⟨hfree, rfl, rfl⟩ := Advance.of_acquire h
  exact ⟨.sync e g (.confirming fs), rfl, .lock hfree⟩

theorem isMove_confirming {fs : List ScenarioFile}
    (hle : g ≤ w.state.generation site.firewall)
    (h : Advance o w (Sync.confirming site g (ending e) fs) w' p') :
    IsMove site o files w (.sync e g (.confirming fs)) w' p' := by
  obtain ⟨rfl, rfl⟩ := Advance.of_atomic h
  cases hold : w.state.isSuperseded site.firewall g with
  | true =>
    exact ⟨.sync e g (.releasing false), rfl, .turn (.reject (of_decide_eq_true hold)) (.refl w)⟩
  | false =>
    have hnot : ¬ g < w.state.generation site.firewall := of_decide_eq_false hold
    exact ⟨.sync e g (.listing fs), rfl,
      .turn (.confirm (UInt64.le_antisymm hle (UInt64.not_lt.mp hnot))) (.refl w)⟩

/-- A listing shows all files of the application that are in place. -/
theorem isMove_listing (hfaultless : Faultless o files) (hu : isUuid site.uuid = true)
    {fs : List ScenarioFile}
    (hblank : ∀ name, IsScenarioName site.uuid name →
      files w.outside site.server.id (site.dir.file name) ≠ none → IsBlankFree name)
    (h : Advance o w (Sync.listing site (ending e) fs) w' p') :
    IsMove site o files w (.sync e g (.listing fs)) w' p' := by
  obtain ⟨answer, after, hanswer, rfl, rfl⟩ := Advance.of_call h
  obtain ⟨⟨output, rfl⟩, haside⟩ :=
    of_answers_run site hfaultless hanswer (Quiet.ignores_list site.dir)
  obtain ⟨names, houtput, hnames⟩ := hfaultless.listing _ _ _ _ _ hanswer
  refine ⟨.sync e g (.naming fs (ScenarioDir.ownedIn site.uuid output)), rfl,
    .turn (.list fun name hname hthere => ?_) haside⟩
  have hmem := hnames name (slash_not_mem_of_isScenarioName hu hname) hthere
  exact mem_ownedIn houtput hmem (hblank name hname hthere) (isOwned_of_isScenarioName hname)

theorem isMove_naming {fs : List ScenarioFile} {existing : List String}
    (h : Advance o w (Sync.naming site (ending e) fs existing) w' p') :
    IsMove site o files w (.sync e g (.naming fs existing)) w' p' := by
  obtain ⟨token, htoken, rfl, rfl⟩ := Advance.of_fresh h
  exact ⟨.sync e g (.uploading fs existing token fs), rfl, .turn (.name htoken) (.refl _)⟩

theorem isMove_uploading (hfaultless : Faultless o files) {fs rest : List ScenarioFile}
    {existing : List String} {token : String} {f : ScenarioFile}
    (h : Advance o w (Sync.uploading site (ending e) fs existing
      (site.dir.staging site.uuid token) (f :: rest)) w' p') :
    IsMove site o files w (.sync e g (.uploading fs existing token (f :: rest))) w' p' := by
  obtain ⟨answer, after, hanswer, rfl, rfl⟩ := Advance.of_call h
  obtain ⟨output, rfl⟩ := hfaultless.success _ _ _ _ _ hanswer rfl
  have heffect := hfaultless.effect _ _ _ _ _ hanswer
  refine ⟨.sync e g (.uploading fs existing token rest), rfl, .upload ?_⟩
  rw [heffect, Function.update_self]
  rfl

/-- With all new files written, putting them into place leaves the application with them. -/
theorem isMove_placing (hfaultless : Faultless o files) (hu : isUuid site.uuid = true)
    {fs : List ScenarioFile} {existing : List String} {token : String}
    (hsound : (Phase.uploading fs existing token []).Sound site
      (files w.outside site.server.id))
    (h : Advance o w (Sync.uploading site (ending e) fs existing
      (site.dir.staging site.uuid token) []) w' p') :
    IsMove site o files w (.sync e g (.uploading fs existing token [])) w' p' := by
  obtain ⟨answer, after, hanswer, rfl, rfl⟩ := Advance.of_call h
  obtain ⟨hfs, hcovers, _, done, hsplit, hstaged⟩ := hsound
  rw [List.append_nil] at hsplit
  obtain ⟨placed, hscript, hexactly⟩ := script_activation hu hfs (hsplit ▸ hstaged) hcovers
  obtain ⟨output, rfl⟩ := hfaultless.success _ _ _ _ _ hanswer (by rw [Files.after, hscript])
  have heffect := hfaultless.effect _ _ _ _ _ hanswer
  refine ⟨.sync e g (.counting fs), rfl, .place ?_⟩
  rw [heffect, Function.update_self, Files.after, hscript]
  exact hexactly

theorem isMove_counting {fs : List ScenarioFile}
    (h : Advance o w (Sync.counting site (ending e) fs) w' p') :
    IsMove site o files w (.sync e g (.counting fs)) w' p' := by
  obtain ⟨rfl, rfl⟩ := Advance.of_atomic h
  exact ⟨.sync e g (.releasing true), rfl,
    .turn .count ⟨Harmless.count _ _ _, .refl _, Iff.rfl⟩⟩

theorem isMove_releasing (hfaultless : Faultless o files) (hjob : e.job = .sync site.firewall g)
    {written : Bool} (h : Advance o w (Sync.releasing site (ending e) (.ok written)) w' p') :
    IsMove site o files w (.sync e g (.releasing written)) w' p' := by
  obtain ⟨rfl, rfl⟩ := Advance.of_release h
  refine ⟨.quiet _, rfl, .unlock (Process.Obeys.bind ?_)⟩
  refine (finishing_quiet hfaultless written).mono fun result hresult => ?_
  rw [hresult]
  exact ending_quiet_ok (hjob ▸ trivial)

/-! ## Roles of registrations -/

theorem isMove_calling (hjob : e.job = .provision site.firewall)
    (h : Advance o w (works.attempt e) w' p') : IsMove site o files w (.calling e) w' p' := by
  rw [attempt_eq] at h
  obtain ⟨rfl, rfl⟩ := h.of_atomic
  refine ⟨.looking (e.begin w.state.scheduler.now), ?_, .turn (.call rfl) (.refl w)⟩
  rw [hjob]
  rfl

theorem isMove_looking (hknows : w.state.KnowsSite site) (hjob : e.job = .provision site.firewall)
    (h : Advance o w ((Deploy.provision site.firewall).process.bind (ending e)) w' p') :
    IsMove site o files w (.looking e) w' p' := by
  obtain ⟨next, hlooking, hnext⟩ := Provision.provision_eq site (ending e)
  rw [hlooking] at h
  obtain ⟨rfl, rfl⟩ := h.of_atomic
  obtain ⟨firewall, hfirewall⟩ := hknows.store.firewall
  rcases hnext w.state hknows firewall hfirewall with ⟨hneeds, heq⟩ | ⟨_, name, key, heq⟩
  · refine ⟨.quiet _, rfl, .turn (.unneeded ?_ fun other hother => ?_) (.refl w)⟩
    · rw [heq]
      exact ending_quiet_ok (hjob ▸ trivial)
    · rw [hfirewall] at hother
      exact Option.some.inj hother ▸ hneeds
  · exact ⟨.registering e name key, congrArg some heq.symm, .turn .need (.refl w)⟩

theorem isMove_registering (hfaultless : Faultless o files) {name : String} {key : Option String}
    (h : Advance o w (Provision.registering site (ending e) name key) w' p') :
    IsMove site o files w (.registering e name key) w' p' := by
  obtain ⟨answer, after, hanswer, rfl, rfl⟩ := Advance.of_call h
  obtain ⟨⟨output, rfl⟩, haside⟩ :=
    of_answers_run site hfaultless hanswer (Quiet.ignores_register site.engine name key)
  obtain ⟨credential, hcredential⟩ := hfaultless.credential _ _ _ _ _ _ _ hanswer
  refine ⟨.recording e name credential, ?_, .turn .register haside⟩
  simp only [hcredential]
  rfl

theorem isMove_recording (hknows : w.state.KnowsSite site)
    (hjob : e.job = .provision site.firewall) {name key : String}
    (h : Advance o w (Provision.recording site (ending e) name key) w' p') :
    IsMove site o files w (.recording e name key) w' p' := by
  obtain ⟨rfl, rfl⟩ := Advance.of_atomic h
  obtain ⟨firewall, store, hrecord, hstore⟩ := Site.recordBouncer_spec hknows.store name key
  simp only [hrecord]
  refine ⟨.quiet _, rfl, .record hstore fun s _ => ⟨Harmless.count s _ _, ?_⟩⟩
  exact ending_quiet_ok (hjob ▸ trivial)

end

/-! ## All roles -/

/-- **Every step of a worker's process is a move of its role**, in a state that knows the
application. -/
theorem moves_of_advance (hfaultless : Faultless o files) {w w' : Shared ρ} {r : Role}
    {p p' : Process Orchestrator Unit} (hknows : w.state.KnowsSite site)
    (hblank : ∀ name, IsScenarioName site.uuid name →
      files w.outside site.server.id (site.dir.file name) ≠ none → IsBlankFree name)
    (hsound : r.Sound site o (files w.outside site.server.id)
      (w.state.generation site.firewall))
    (hp : r.process site = some p) (h : Advance o w p w' p') :
    IsMove site o files w r w' p' := by
  cases r with
  | idle => cases hp
  | quiet q =>
    obtain rfl := Option.some.inj hp
    exact isMove_quiet hfaultless hknows hsound h
  | sync e g phase =>
    obtain rfl := Option.some.inj hp
    obtain ⟨hjob, hle, hphase⟩ := hsound
    cases phase with
    | beginning => exact isMove_beginning hjob h
    | checking => exact isMove_checking hjob h
    | reading => exact isMove_reading hknows hjob h
    | waiting fs => exact isMove_waiting h
    | confirming fs => exact isMove_confirming hle h
    | listing fs => exact isMove_listing hfaultless hknows.store.isUuid hblank h
    | naming fs existing => exact isMove_naming h
    | uploading fs existing token rest => cases rest with
      | nil => exact isMove_placing hfaultless hknows.store.isUuid hphase h
      | cons f rest => exact isMove_uploading hfaultless h
    | counting fs => exact isMove_counting h
    | releasing written => exact isMove_releasing hfaultless hjob h
  | calling e =>
    obtain rfl := Option.some.inj hp
    exact isMove_calling hsound h
  | looking e =>
    obtain rfl := Option.some.inj hp
    exact isMove_looking hknows hsound h
  | registering e name key =>
    obtain rfl := Option.some.inj hp
    exact isMove_registering hfaultless h
  | recording e name key =>
    obtain rfl := Option.some.inj hp
    exact isMove_recording hknows hsound h

end Rampart.Convergence
