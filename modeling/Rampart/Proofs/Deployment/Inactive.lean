import Rampart.Label
import Rampart.Orchestrator.Audit
import Rampart.Proofs.Deployment.SyncSteps
import Rampart.Proofs.Execution.Deeds
import Rampart.Proofs.Job.Stages
import Rampart.Proofs.Store.Reached

/-!
# Firewalls that are not active

Whether a firewall is active is asked in many places: when an event is handled, when everything is
deployed from scratch, when a job has begun, when labels are made and when an audit is. Of a
firewall that is switched off, or has no credential, nothing is deployed by any of them. Only its
bouncer may still have to be registered, which gives it a credential.

* `Job.firewall?`: for which firewall a job is.
* `handleEvent_of_inactive`, **`resync_of_inactive`**: what is planned.
* **`does_sync_of_inactive`**, **`does_applyDecisions_of_inactive`**: attempts that read their context
  while the firewall is inactive end with that.
* `IsInert`, **`inactive_firewall_is_inert`**: all of it.
-/

namespace Rampart

open Orchestrator

/-- The firewall that a job is for, if it is for one. -/
def Job.firewall? : Job → Option UInt64
  | .sync firewall _ | .applyDecisions firewall _ | .provision firewall => some firewall
  | _ => none

namespace Inactive

variable {s : Orchestrator} {f : UInt64} {c : Context}

/-! ## What is planned -/

theorem isActive_eq_false_iff (firewall : Firewall) :
    firewall.isActive = false ↔
      firewall.enabled = false ∨ Text.isBlankText firewall.apiKey = true := by
  cases henabled : firewall.enabled <;> simp [Firewall.isActive, henabled]

theorem needsBouncer_iff (firewall : Firewall) :
    firewall.needsBouncer = true ↔ firewall.enabled = true ∧ firewall.bouncerName = none := by
  simp [Firewall.needsBouncer]

/-- What is planned for a change of an inactive firewall: its bouncer, if that is missing. -/
theorem handleEvent_firewallChanged_of_inactive (hc : s.contextOf f = .ok c)
    (hinactive : c.firewall.isActive = false) :
    s.handleEvent (.firewallChanged f) =
      if c.firewall.needsBouncer then
        ([.provision f], s.dispatchDeploy (.provision f) 0)
      else ([.skipped "firewall inactive"], s) := by
  rw [handleEvent_firewallChanged hc, hinactive]
  rfl

theorem firewall?_of_mem_resyncJobs {job : Job} (h : job ∈ s.resyncJobs f) :
    job.firewall? = some f := by
  rcases mem_resyncJobs h with ⟨rfl, _⟩ | rfl | ⟨rule, rfl⟩ <;> rfl

/-- **What is planned from scratch for an inactive firewall**: its bouncer, if that is missing. -/
theorem resync_of_inactive (h : s.IsReached) (hc : s.contextOf f = .ok c)
    (hinactive : c.firewall.isActive = false) :
    ∃ added, Plans s s.resync.2 added ∧ (∀ job ∈ added, ∃ firewall, job.firewall? = some firewall) ∧
      added.filter (·.firewall? = some f) =
        if c.firewall.needsBouncer then [.provision f] else [] := by
  refine ⟨_, resync_plans h.nodup_firewalls, fun job hjob => ?_, ?_⟩
  · obtain ⟨id, _, hjob⟩ := List.mem_flatMap.mp hjob
    exact ⟨id, firewall?_of_mem_resyncJobs hjob⟩
  · obtain ⟨firewall, hfirewall, _⟩ := Except.bind_eq_ok_iff.mp hc
    have hmem := mem_reverse_firewallIds h.nodup_firewalls
      (Store.firewall_eq_ok_iff.mp hfirewall)
    have hown : (s.resyncJobs f).filter (·.firewall? = some f) = s.resyncJobs f :=
      List.filter_eq_self.mpr fun job hjob =>
        decide_eq_true (firewall?_of_mem_resyncJobs hjob)
    have hothers : ∀ id ∈ s.store.firewallIds.reverse, id ≠ f →
        (s.resyncJobs id).filter (·.firewall? = some f) = [] := by
      intro id _ hne
      refine List.filter_eq_nil_iff.mpr fun job hjob hf => hne ?_
      have hf := of_decide_eq_true hf
      rw [firewall?_of_mem_resyncJobs hjob] at hf
      exact Option.some.inj hf
    rw [List.filter_flatMap,
      flatMap_eq_of_mem (reverse_firewallIds_nodup h.nodup_firewalls) hmem hothers, hown,
      resyncJobs_of_context hc, hinactive]
    split <;> rfl

/-! ## What attempts do -/

/-- A state when a job has ended that had nothing to do. -/
def skipped (s : Orchestrator) : Orchestrator :=
  { s with scheduler := s.scheduler.finish, counters := s.counters.add (.jobs .skipped) 1 }

/-- **An attempt that has nothing to do ends**: its job is not tried again, and nothing is
reported. -/
theorem does_ending {e : Entry Job} {failure : Failure} (h : failure.isConfiguration = true)
    {deeds : List (Deed Orchestrator)} :
    (ending e (.error failure)).Does deeds () ↔ ∃ s, deeds = [.step s (skipped s)] := by
  have hsettle : ∀ s, works.settle e (.error failure) s = (none, skipped s) :=
    fun s => Accounting.settle_skip h
  unfold ending
  simp only [Process.does_atomic_iff, hsettle, Process.does_done_iff]
  constructor
  · rintro ⟨s, rest, rfl, rfl, -⟩
    exact ⟨s, rfl⟩
  · rintro ⟨s, rfl⟩
    exact ⟨s, [], rfl, rfl, trivial⟩

/-- What a job is told of an inactive firewall. -/
def refusal (c : Context) : Failure :=
  .configuration s!"firewall for {c.uuid} is inactive"

theorem activeContext_of_inactive (hc : s.contextOf f = .ok c)
    (hinactive : c.firewall.isActive = false) : s.activeContext f = .error (refusal c) := by
  simp only [activeContext, hc, bind, Except.bind, hinactive, Bool.false_eq_true, if_false]
  rfl

/-- The first step of an attempt is to begin. -/
theorem does_attempt {e : Entry Job} {t t' : Orchestrator} {rest : List (Deed Orchestrator)}
    (h : (works.attempt e).Does (.step t t' :: rest) ()) :
    ((handle e.job (e.attempts + 1)).process.bind
      (ending (e.begin t.scheduler.now))).Does rest () := by
  rw [attempt_eq, Process.does_atomic_step_iff] at h
  exact h.2

/-- **A sync that is not superseded reads its context next**, and finds that there is nothing to
do. -/
theorem does_sync_of_inactive (hc : s.contextOf f = .ok c)
    (hinactive : c.firewall.isActive = false) {e : Entry Job} {generation : UInt64}
    (hjob : e.job = .sync f generation) {t t' r r' s' : Orchestrator}
    {rest : List (Deed Orchestrator)} (hr : r.isSuperseded f generation = false)
    (h : (works.attempt e).Does (.step t t' :: .step r r' :: .step s s' :: rest) ()) :
    s' = s ∧ ∃ u, rest = [.step u (skipped u)] := by
  have hrun := does_attempt h
  rw [hjob, handle, Deploy.sync, Task.process_read_bind, Process.does_atomic_step_iff] at hrun
  obtain ⟨-, hrun⟩ := hrun
  simp only [Task.onward, hr, Bool.false_eq_true, if_false] at hrun
  rw [Task.process_read_bind, Process.does_atomic_step_iff,
    activeContext_of_inactive hc hinactive] at hrun
  have hskip : (refusal c).isConfiguration = true := rfl
  exact ⟨hrun.1, (does_ending hskip).mp hrun.2⟩

/-- **Decisions are made after the context has been read**, and there is nothing to do. -/
theorem does_applyDecisions_of_inactive (hc : s.contextOf f = .ok c)
    (hinactive : c.firewall.isActive = false) {e : Entry Job} {rule : UInt64}
    (hjob : e.job = .applyDecisions f rule) {t t' s' : Orchestrator}
    {rest : List (Deed Orchestrator)}
    (h : (works.attempt e).Does (.step t t' :: .step s s' :: rest) ()) :
    s' = s ∧ ∃ u, rest = [.step u (skipped u)] := by
  have hrun := does_attempt h
  rw [hjob, handle, Deploy.applyDecisions, Task.process_read_bind, Process.does_atomic_step_iff,
    activeContext_of_inactive hc hinactive] at hrun
  have hskip : (refusal c).isConfiguration = true := rfl
  exact ⟨hrun.1, (does_ending hskip).mp hrun.2⟩

/-! ## Labels and audits -/

theorem labels_of_inactive (m : LabelMaker) {l : LabelContext}
    (hinactive : l.firewall.isActive = false) : m.labels l = {} := by
  rw [LabelMaker.labels, hinactive]
  rfl

theorem sorted_nil : Audit.sorted [] = [] := by
  rw [Audit.sorted, List.mergeSort_nil]
  rfl

/-- **An audit of an inactive firewall** expects nothing, whatever the engine has loaded. -/
theorem does_audit_of_inactive {uuid : String} (hc : s.contextFor uuid = .ok c)
    (hinactive : c.firewall.isActive = false) {s' : Orchestrator}
    {rest : List (Deed Orchestrator)} {audit : Audit}
    (h : (Audit.run uuid).process.Does (.step s s' :: rest) (.ok audit)) :
    audit.expected = [] ∧ audit.missing = [] := by
  rw [← Process.bind_pure (Audit.run uuid).process, Audit.run, Task.process_read_bind,
    Process.does_atomic_step_iff] at h
  obtain ⟨-, h⟩ := h
  have hread : Audit.expectedNames c s.settings.scenarios = .ok [] := by
    rw [Audit.expectedNames, hinactive]
    rfl
  simp only [hc, hread, bind, Except.bind, Failure.ofRule] at h
  -- What is left is to ask the engine and to compare.
  have hleft : ((do
      let loaded ← s.engine.scenarios c.server
      return Audit.of c.uuid c.server.id []
        (Audit.ownNames s.settings.scenarios.ns c.uuid loaded) :
      Deploy.Work Audit).process.bind .done).Does rest (.ok audit) := h
  rw [Task.process_bind] at hleft
  obtain ⟨loaded, _, _, -, -, hsecond⟩ := hleft.of_bind
  cases loaded with
  | error failure =>
    obtain ⟨-, hresult⟩ := Process.does_done_iff.mp hsecond
    cases hresult
  | ok loaded =>
    obtain ⟨-, hresult⟩ := Process.does_done_iff.mp hsecond
    rw [Except.ok.inj hresult]
    simp [Audit.of, sorted_nil]

/-! ## All of it -/

/-- **Nothing is deployed for a firewall**, whichever way somebody asks for it. -/
structure IsInert (s : Orchestrator) (f : UInt64) (c : Context) : Prop where
  saved : ∀ rule previous, s.handleEvent (.saved rule f previous) =
    ([.skipped "firewall inactive"], s)
  deleted : ∀ rule, s.handleEvent (.deleted rule f) = ([.skipped "firewall inactive"], s)
  changed : s.handleEvent (.firewallChanged f) =
    if c.firewall.enabled = true ∧ c.firewall.bouncerName = none then
      ([.provision f], s.dispatchDeploy (.provision f) 0)
    else ([.skipped "firewall inactive"], s)
  /-- From scratch, only its bouncer is planned; every job that is planned is some firewall's. -/
  resynced : ∃ added, Plans s s.resync.2 added ∧
    (∀ job ∈ added, ∃ firewall, job.firewall? = some firewall) ∧
    added.filter (·.firewall? = some f) =
      if c.firewall.enabled = true ∧ c.firewall.bouncerName = none then [.provision f] else []
  /-- An attempt of a sync begins, looks whether it is superseded and reads its context; then it
  only ends. -/
  sync : ∀ (e : Entry Job) generation, e.job = .sync f generation →
    ∀ t t' r r' s' rest, r.isSuperseded f generation = false →
      (works.attempt e).Does (.step t t' :: .step r r' :: .step s s' :: rest) () →
      s' = s ∧ ∃ u, rest = [.step u (skipped u)]
  /-- An attempt to make decisions begins and reads its context; then it only ends. -/
  applyDecisions : ∀ (e : Entry Job) rule, e.job = .applyDecisions f rule →
    ∀ t t' s' rest, (works.attempt e).Does (.step t t' :: .step s s' :: rest) () →
      s' = s ∧ ∃ u, rest = [.step u (skipped u)]
  labels : ∀ (m : LabelMaker) (l : LabelContext), l.firewall = c.firewall →
    (m.labels l).labels = [] ∧ (m.labels l).middlewares = []
  audit : ∀ uuid, s.contextFor uuid = .ok c → ∀ s' rest audit,
    (Audit.run uuid).process.Does (.step s s' :: rest) (.ok audit) →
    audit.expected = [] ∧ audit.missing = []

/-- **An inactive firewall is inert.** In every state that operations on an empty store lead to, and
for every firewall that has a context there: while it is switched off or its credential is blank,
events of its rules lead to nothing; a change of it, and a deployment of everything from scratch,
lead to its bouncer's registration if it is switched on without one, and to nothing else for it;
attempts of its jobs that read their context then do nothing more than to end, without another
attempt and without a report; it has no labels; and no scenario is expected of it. -/
theorem inactive_firewall_is_inert (h : s.IsReached) (hc : s.contextOf f = .ok c)
    (hinactive : c.firewall.enabled = false ∨ Text.isBlankText c.firewall.apiKey = true) :
    IsInert s f c := by
  have hinactive := (isActive_eq_false_iff c.firewall).mpr hinactive
  have hneeds : ∀ {α : Type} (a b : α),
      (if c.firewall.enabled = true ∧ c.firewall.bouncerName = none then a else b) =
        if c.firewall.needsBouncer then a else b :=
    fun a b => if_congr (needsBouncer_iff c.firewall).symm rfl rfl
  refine ⟨fun rule previous => ?_, fun rule => ?_, ?_, ?_, ?_, ?_, ?_, ?_⟩
  · rw [handleEvent_saved hc, hinactive]
    rfl
  · rw [handleEvent_deleted hc, hinactive]
    rfl
  · rw [hneeds]
    exact handleEvent_firewallChanged_of_inactive hc hinactive
  · rw [hneeds]
    exact resync_of_inactive h hc hinactive
  · exact fun e generation hjob t t' r r' s' rest hr hdoes =>
      does_sync_of_inactive hc hinactive hjob hr hdoes
  · exact fun e rule hjob t t' s' rest hdoes =>
      does_applyDecisions_of_inactive hc hinactive hjob hdoes
  · intro m l hl
    rw [labels_of_inactive m (hl ▸ hinactive)]
    exact ⟨rfl, rfl⟩
  · exact fun uuid hcontext s' rest audit hdoes =>
      does_audit_of_inactive hcontext hinactive hdoes

namespace Demo

/-- A server, and nothing else. -/
def bare : Orchestrator where
  registry := ⟨[{ id := 1, name := "one", host := "one.test" }]⟩

/-- A rule about a host. -/
def rule : Rule where
  name := "x"
  mode := .inband
  action := .ban
  conditions := [{ field := "host", operator := "equals", value := "v" }]

/-- An application whose firewall is switched on, with a blank credential and no bouncer. -/
def blank : Orchestrator :=
  ((bare.register { id := 1, uuid := "abc", name := "shop", serverId := 1 }
    { id := 1, enabled := true, apiKey := " " }).2.saveRule "abc" rule).2

theorem blank_isReached : blank.IsReached :=
  Orchestrator.IsReached.saveRule (Orchestrator.IsReached.register ⟨[], rfl⟩ _ _) _ _

end Demo

/-- A rule was saved, and a bouncer is missing. -/
theorem inactive_firewall_is_inert_blank :
    ∃ c, (Demo.blank.IsReached ∧ Demo.blank.contextOf 1 = .ok c ∧
        Text.isBlankText c.firewall.apiKey = true ∧ c.rules.length = 1) ∧
      IsInert Demo.blank 1 c ∧
      Demo.blank.handleEvent (.saved 1 1 none) = ([.skipped "firewall inactive"], Demo.blank) ∧
      (Demo.blank.handleEvent (.firewallChanged 1)).1 = [.provision 1] := by
  have hfacts : (Demo.blank.contextOf 1).map (fun c =>
      (Text.isBlankText c.firewall.apiKey, c.rules.length, c.firewall.needsBouncer)) =
        .ok (true, 1, true) := by cbv
  cases hc : Demo.blank.contextOf 1 with
  | error failure =>
    rw [hc] at hfacts
    cases hfacts
  | ok c =>
    rw [hc] at hfacts
    obtain ⟨hblank, hfacts⟩ := Prod.mk.inj (Except.ok.inj hfacts)
    obtain ⟨hrules, hneeds⟩ := Prod.mk.inj hfacts
    have hinert := inactive_firewall_is_inert Demo.blank_isReached hc (.inr hblank)
    refine ⟨c, ⟨Demo.blank_isReached, rfl, hblank, hrules⟩, hinert, hinert.saved 1 none, ?_⟩
    rw [hinert.changed, if_pos ((needsBouncer_iff c.firewall).mp hneeds)]

end Inactive

end Rampart
