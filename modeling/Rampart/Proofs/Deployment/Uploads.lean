import Rampart.Orchestrator.Work
import Rampart.Proofs.Execution.Deeds
import Rampart.Proofs.Scenario.Replacement

/-!
# What a sync writes

From what a sync has read in the state to the contents that it writes to the server, whatever
happens to the state meanwhile and whatever the server answers.

* `Deed.uploads`: the contents that a step writes. `Replacement.uploads_of_does`: a replacement that
  is carried out writes its files, and nothing else.
* `Orchestrator.filesFor`: the files that the rules of a firewall call for. **`does_sync_iff`**: a
  sync replaces those that are there by them.
* `Sync.CarriedOut`: a sync that is carried out. **`CarriedOut.uploads_eq`**: it has written the
  files; `Sync.exists_carriedOut`: there is one.
-/

namespace Rampart

/-! ## Uploads -/

/-- The contents that a call writes, with the server. -/
def uploadOf? : Server × Remote.Call → Option (Server × String)
  | (server, .upload _ contents) => some (server, contents)
  | _ => none

/-- The contents that a step writes, with their servers. -/
def Deed.uploads {σ : Type} : Deed σ → List (Server × String)
  | .call server c => (uploadOf? (server, c)).toList
  | .callAll calls => calls.filterMap uploadOf?
  | _ => []

namespace Replacement

open Process

variable {d : ScenarioDir} {server : Server} {r : Replacement} {deeds : List (Deed Orchestrator)}
  {result : Except Failure Bool}

theorem does_releasingLeft_iff {outcome : Except Failure Bool} :
    (Stage.releasingLeft server r outcome).Does deeds result ↔
      deeds = [.release (r.lock server)] ∧ result = outcome := by
  rw [Stage.releasingLeft, does_release_iff]
  simp only [does_done_iff]
  constructor
  · rintro ⟨rest, rfl, rfl, rfl⟩
    exact ⟨rfl, rfl⟩
  · rintro ⟨rfl, rfl⟩
    exact ⟨[], rfl, rfl, rfl⟩

/-- What is given up ends with the failure. -/
theorem eq_of_does_abortingLeft {token : String} {failure : Failure}
    (h : (Stage.abortingLeft d server r token failure).Does deeds result) :
    result = .error failure := by
  obtain ⟨_, _, _, h⟩ := does_call_iff.mp h
  exact (does_releasingLeft_iff.mp h).2

/-- The rest of the files is written, one after another. -/
theorem uploads_of_does_uploadingLeft {existing : List String} {token : String} {written : Bool}
    {files : List ScenarioFile}
    (h : (Stage.uploadingLeft d server r existing token files).Does deeds (.ok written)) :
    written = true ∧
      deeds.flatMap Deed.uploads = files.map fun file => (server, file.contents) := by
  induction files generalizing deeds with
  | nil =>
    obtain ⟨answer, rest, rfl, h⟩ := does_call_iff.mp h
    cases answer with
    | error failure => cases eq_of_does_abortingLeft h
    | ok _ =>
      obtain ⟨t, rest, rfl, hcounted⟩ := does_atomic_iff.mp h
      obtain ⟨rfl, hwritten⟩ := does_releasingLeft_iff.mp hcounted
      exact ⟨Except.ok.inj hwritten, rfl⟩
  | cons file files ih =>
    obtain ⟨answer, rest, rfl, h⟩ := does_call_iff.mp h
    cases answer with
    | error failure => cases eq_of_does_abortingLeft h
    | ok _ =>
      obtain ⟨hwritten, huploads⟩ := ih h
      refine ⟨hwritten, ?_⟩
      rw [List.flatMap_cons, huploads]
      rfl

/-- A replacement begins with the lock and a look at the state. -/
theorem exists_of_does (h : (r.process d server).Does deeds result) :
    ∃ lock t t' rest, deeds = .acquire lock :: .step t t' :: rest := by
  rw [process_eq] at h
  obtain ⟨rest, rfl, hasking⟩ := does_acquire_iff.mp h
  obtain ⟨t, rest, rfl, -⟩ := does_atomic_iff.mp hasking
  exact ⟨_, t, _, rest, rfl⟩

/-- **A replacement that is current when it has the lock** and does not fail writes its files, and
nothing else. -/
theorem uploads_of_does {lock : Lock} {t t' : Orchestrator} {written : Bool}
    (ht : r.isCurrent t = true)
    (h : (r.process d server).Does (.acquire lock :: .step t t' :: deeds) (.ok written)) :
    written = true ∧
      deeds.flatMap Deed.uploads = r.files.map fun file => (server, file.contents) := by
  rw [process_eq] at h
  obtain ⟨rest, heq, h⟩ := does_acquire_iff.mp h
  obtain rfl := (List.cons.inj heq).2
  obtain ⟨-, h⟩ := does_atomic_step_iff.mp h
  rw [if_pos ht] at h
  obtain ⟨answer, rest, rfl, h⟩ := does_call_iff.mp h
  cases answer with
  | error failure => cases (does_releasingLeft_iff.mp h).2
  | ok output =>
    obtain ⟨token, rest, rfl, hnamed⟩ := does_fresh_iff.mp h
    have huploads := uploads_of_does_uploadingLeft hnamed
    exact huploads

/-- A replacement can be carried out, whatever the state is meanwhile. -/
theorem exists_does (d : ScenarioDir) (server : Server) {t : Orchestrator}
    (ht : r.isCurrent t = true) :
    ∃ lock rest, (r.process d server).Does (.acquire lock :: .step t t :: rest) (.ok true) := by
  have huploading : ∀ existing token files, ∃ deeds,
      (Stage.uploadingLeft d server r existing token files).Does deeds (.ok true) := by
    intro existing token files
    induction files with
    | nil => exact ⟨_, .call (.ok "") (.atomic t (.release (.done _)))⟩
    | cons file files ih =>
      obtain ⟨deeds, h⟩ := ih
      exact ⟨_, .call (.ok "") h⟩
  obtain ⟨deeds, h⟩ := huploading (ScenarioDir.ownedIn r.uuid "") "0" r.files
  have hlisting : (if r.isCurrent t then Stage.listingLeft d server r
      else Stage.releasingLeft server r (.ok false)).Does
      (.call server (.run [d.listCommand]) :: .fresh :: deeds) (.ok true) := by
    rw [if_pos ht]
    exact .call (.ok "") (.fresh "0" h)
  rw [process_eq]
  exact ⟨_, _, .acquire (.atomic t hlisting)⟩

end Replacement

namespace Sync

variable (site : Site)

/-- The last step of a sync. -/
def noting : Process Orchestrator (Except Failure Unit) :=
  .atomic (·.dispatchReload site.server.id) fun _ => .done (.ok ())

/-- **What a sync does once the files are in place**: it has the engine read them, and asks for a
redeploy if one is due. -/
theorem process_finishing :
    (finishing site true).process =
      .call site.server
        (.run ["docker kill --signal=SIGHUP " ++ Text.Word.quote site.engine.settings.container])
        fun
        | .error failure => .done (.error failure)
        | .ok _ => .atomic (fun s => (s.takeRedeploy site.firewall).2) fun s =>
          if (s.takeRedeploy site.firewall).1 then
            .tell (.redeploy site.application.id false) fun _ => noting site
          else noting site := by
  refine congrArg (Process.call site.server _) (funext fun answer => ?_)
  cases answer with
  | error failure => rfl
  | ok _ =>
    refine congrArg (Process.atomic _) (funext fun s => ?_)
    dsimp only
    cases (s.takeRedeploy site.firewall).1 with
    | true =>
      rw [if_pos rfl]
      rfl
    | false => rfl

variable {site} {deeds : List (Deed Orchestrator)} {result : Except Failure Unit}

open Process

theorem uploads_of_does_noting (h : (noting site).Does deeds result) :
    deeds.flatMap Deed.uploads = [] := by
  obtain ⟨s, rest, rfl, hdone⟩ := does_atomic_iff.mp h
  obtain ⟨rfl, -⟩ := does_done_iff.mp hdone
  rfl

/-- Nothing more is written. -/
theorem uploads_of_does_finishing (h : (finishing site true).process.Does deeds result) :
    deeds.flatMap Deed.uploads = [] := by
  rw [process_finishing] at h
  obtain ⟨answer, rest, rfl, hanswer⟩ := does_call_iff.mp h
  cases answer with
  | error failure =>
    obtain ⟨rfl, -⟩ := does_done_iff.mp hanswer
    rfl
  | ok _ =>
    obtain ⟨s, rest, rfl, htaken⟩ := does_atomic_iff.mp hanswer
    split at htaken
    · obtain ⟨_, rest, rfl, htold⟩ := does_tell_iff.mp htaken
      have hnone := uploads_of_does_noting htold
      exact hnone
    · have hnone := uploads_of_does_noting htaken
      exact hnone

theorem exists_does_finishing (site : Site) (s : Orchestrator) :
    ∃ deeds, (finishing site true).process.Does deeds (.ok ()) := by
  have hnoting : (noting site).Does _ (.ok ()) := .atomic s (.done _)
  have htaken : ∃ deeds, (if (s.takeRedeploy site.firewall).1 then
      .tell (.redeploy site.application.id false) fun _ => noting site
      else noting site).Does deeds (.ok ()) := by
    split
    · exact ⟨_, .tell (.ok ()) hnoting⟩
    · exact ⟨_, hnoting⟩
  obtain ⟨deeds, h⟩ := htaken
  rw [process_finishing]
  exact ⟨_, .call (.ok "") (.atomic s h)⟩

end Sync

/-! ## What the rules call for -/

namespace Orchestrator

/-- What a firewall's deployment depends on, and the files that its rules call for. -/
def filesFor (s : Orchestrator) (firewall : UInt64) :
    Except Failure (Context × List ScenarioFile) := do
  let c ← s.contextOf firewall
  let files ← Failure.ofRule (c.files s.settings.scenarios)
  return (c, files)

theorem contextOf_of_filesFor {s : Orchestrator} {firewall : UInt64} {c : Context}
    {files : List ScenarioFile} (h : s.filesFor firewall = .ok (c, files)) :
    s.contextOf firewall = .ok c := by
  obtain ⟨_, hc, hrest⟩ := Except.bind_eq_ok_iff.mp h
  obtain ⟨_, _, heq⟩ := Except.bind_eq_ok_iff.mp hrest
  cases heq
  exact hc

end Orchestrator

section

variable {s : Orchestrator} {id generation : UInt64} {c : Context} {files : List ScenarioFile}
  {deeds : List (Deed Orchestrator)}

/-- What is left of a sync that has read the rules. -/
def Sync.passing (s : Orchestrator) (firewall generation : UInt64) (c : Context)
    (files : List ScenarioFile) : Deploy.Work Unit :=
  s.scenarioDir.replace c.server c.uuid files (fun t => !t.isSuperseded firewall generation)
    Orchestrator.count >>= Sync.finishing ⟨firewall, c.application, c.server, s.settings⟩

/-- **A sync** that is not superseded reads the rules, and replaces the files by those that they
call for. -/
theorem does_sync_iff
    (hactive : ∀ c, s.contextOf id = .ok c → c.firewall.isActive = true)
    {r r' s' : Orchestrator} (hr : r.isSuperseded id generation = false) {attempt : Nat}
    {rest : List (Deed Orchestrator)} {answer : Except Failure Unit} :
    (Orchestrator.handle (.sync id generation) attempt).process.Does
        (.step r r' :: .step s s' :: rest) answer ↔
      r' = r ∧ s' = s ∧ match s.filesFor id with
        | .error failure => rest = [] ∧ answer = .error failure
        | .ok (c, files) => (Sync.passing s id generation c files).process.Does rest answer := by
  rw [← Process.bind_pure (Orchestrator.handle _ _).process, Orchestrator.handle, Deploy.sync,
    Task.process_read_bind, Process.does_atomic_step_iff]
  refine and_congr Iff.rfl ?_
  simp only [Task.onward, hr, Bool.false_eq_true, if_false]
  rw [Task.process_read_bind, Process.does_atomic_step_iff]
  refine and_congr Iff.rfl ?_
  unfold Orchestrator.filesFor Orchestrator.activeContext
  cases hc : s.contextOf id with
  | error failure => exact Process.does_done_iff
  | ok c =>
    dsimp only [bind, Except.bind]
    rw [hactive c hc, if_pos rfl]
    dsimp only [pure, Except.pure]
    cases Failure.ofRule (c.files s.settings.scenarios) with
    | error failure => exact Process.does_done_iff
    | ok files =>
      show ((Sync.passing s id generation c files).process.bind .done).Does rest answer ↔
        (Sync.passing s id generation c files).process.Does rest answer
      rw [Process.bind_pure]

/-- What is left of a sync that is not superseded when it has the lock, and that does not fail,
writes the files, and nothing else. -/
theorem Sync.uploads_of_does_passing {lock : Lock} {t t' : Orchestrator}
    {rest : List (Deed Orchestrator)} (ht : t.isSuperseded id generation = false)
    (h : (passing s id generation c files).process.Does (.acquire lock :: .step t t' :: rest)
      (.ok ())) :
    rest.flatMap Deed.uploads = files.map fun file => (c.server, file.contents) := by
  rw [← Process.bind_pure (passing s id generation c files).process, passing,
    Task.process_bind] at h
  obtain ⟨result, first, second, hdeeds, hfirst, hsecond⟩ := h.of_bind
  cases result with
  | error failure => cases (Process.does_done_iff.mp hsecond).2
  | ok written =>
    have hreplace : (Replacement.process s.scenarioDir c.server
        ⟨c.uuid, files, fun t => !t.isSuperseded id generation⟩).Does first (.ok written) := hfirst
    obtain ⟨lock', u, u', more, rfl⟩ := Replacement.exists_of_does hreplace
    rw [List.cons_append, List.cons_append, List.cons.injEq, List.cons.injEq] at hdeeds
    obtain ⟨-, hstep, rfl⟩ := hdeeds
    cases hstep
    have hcurrent : (!t.isSuperseded id generation) = true := by
      rw [ht]
      rfl
    obtain ⟨rfl, huploads⟩ := Replacement.uploads_of_does hcurrent hreplace
    rw [Task.onward, Process.bind_pure] at hsecond
    rw [List.flatMap_append, huploads, uploads_of_does_finishing hsecond, List.append_nil]

/-- **A sync that is carried out** after it has read `s`: it is superseded neither when it begins
nor when it has the lock, and it does not fail. -/
structure Sync.CarriedOut (s : Orchestrator) (id generation : UInt64)
    (deeds : List (Deed Orchestrator)) : Prop where
  run : ∃ attempt, (Orchestrator.handle (.sync id generation) attempt).process.Does deeds (.ok ())
  current : ∃ r r' s' lock t t' rest,
    deeds = .step r r' :: .step s s' :: .acquire lock :: .step t t' :: rest ∧
      r.isSuperseded id generation = false ∧ t.isSuperseded id generation = false

/-- **What a sync has written** when it is carried out. -/
theorem Sync.CarriedOut.uploads_eq (h : CarriedOut s id generation deeds)
    (hactive : ∀ c, s.contextOf id = .ok c → c.firewall.isActive = true)
    (hfiles : s.filesFor id = .ok (c, files)) :
    deeds.flatMap Deed.uploads = files.map fun file => (c.server, file.contents) := by
  obtain ⟨attempt, hrun⟩ := h.run
  obtain ⟨r, r', s', lock, t, t', rest, rfl, hr, ht⟩ := h.current
  obtain ⟨-, -, hleft⟩ := (does_sync_iff hactive hr).mp hrun
  rw [hfiles] at hleft
  have huploads := uploads_of_does_passing ht hleft
  exact huploads

/-- A sync that is not superseded can be carried out. -/
theorem Sync.exists_carriedOut
    (hactive : ∀ c, s.contextOf id = .ok c → c.firewall.isActive = true)
    (hfiles : s.filesFor id = .ok (c, files)) (hs : s.isSuperseded id generation = false) :
    ∃ deeds, CarriedOut s id generation deeds := by
  have hcurrent : (!s.isSuperseded id generation) = true := by
    rw [hs]
    rfl
  obtain ⟨lock, first, hfirst⟩ := Replacement.exists_does (r :=
    ⟨c.uuid, files, fun t => !t.isSuperseded id generation⟩) s.scenarioDir c.server hcurrent
  obtain ⟨second, hsecond⟩ := exists_does_finishing ⟨id, c.application, c.server, s.settings⟩ s
  have hpassing : (passing s id generation c files).process.Does
      (.acquire lock :: .step s s :: (first ++ second)) (.ok ()) := by
    rw [← Process.bind_pure (passing s id generation c files).process, passing,
      Task.process_bind]
    refine hfirst.bind ?_
    rw [Task.onward, Process.bind_pure]
    exact hsecond
  refine ⟨.step s s :: .step s s :: .acquire lock :: .step s s :: (first ++ second),
    ⟨1, (does_sync_iff hactive hs).mpr ⟨rfl, rfl, ?_⟩⟩, s, s, s, lock, s, s, _, rfl, hs, hs⟩
  rw [hfiles]
  exact hpassing

end

end Rampart
