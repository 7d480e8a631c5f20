import Rampart.Proofs.Deployment.Request
import Rampart.Proofs.Job.Scheduler

/-!
# What is planned

Planning adds jobs to the scheduler and counts the syncs of every firewall, and does nothing else.

* `Plans s t added`: from `s` to `t` exactly the jobs `added` were given to the scheduler.
* `planSave_plans`, `planDelete_plans`: the jobs that follow a saved and a deleted rule.
* **`handleEvent_spec`**, **`resync_spec`**: what is planned for an application when an event of
  any firewall is handled, and when events were lost.
-/

namespace Rampart

/-- The generation of a sync of a firewall. -/
def Job.syncOf? (firewall : UInt64) : Job → Option UInt64
  | .sync f generation => if f = firewall then some generation else none
  | _ => none

/-- The jobs of the deployment of rules. -/
def Job.IsDeployment : Job → Prop
  | .sync _ _ | .applyDecisions _ _ | .removeDecisions _ _ | .provision _ | .reloadBouncers _ => True
  | .install _ _ _ | .validate _ _ | .syncAlerts => False

namespace Orchestrator

/-- The jobs that have not begun. -/
def jobs (s : Orchestrator) : List Job :=
  s.scheduler.entries.map (·.job)

/-- The generation of the newest sync of a firewall. -/
def generation (s : Orchestrator) (firewall : UInt64) : UInt64 :=
  (s.syncState firewall).generation

/-- New generations, the newest first, from one generation to another. -/
inductive Counts (n : UInt64) : List UInt64 → UInt64 → Prop
  | nil : Counts n [] n
  | cons {generations : List UInt64} {m : UInt64} (h : Counts n generations m) :
    Counts n ((m + 1) :: generations) (m + 1)

theorem Counts.append {a b c : UInt64} {xs ys : List UInt64} (h : Counts a xs b)
    (h' : Counts b ys c) : Counts a (ys ++ xs) c := by
  induction h' with
  | nil => exact h
  | cons _ ih => exact .cons ih

theorem Counts.eq_of_nil {a b : UInt64} (h : Counts a [] b) : b = a := by
  cases h
  rfl

theorem Counts.eq_of_singleton {a b g : UInt64} (h : Counts a [g] b) : g = a + 1 ∧ b = a + 1 := by
  cases h with
  | cons h =>
    rw [h.eq_of_nil]
    exact ⟨rfl, rfl⟩

/-- **Exactly these jobs are planned**, and nothing else happens. -/
structure Plans (s t : Orchestrator) (added : List Job) : Prop where
  frame : ∃ scheduler syncs, t = { s with scheduler, syncs }
  jobs : t.jobs.Perm (added ++ s.jobs)
  fit : s.scheduler.IsFit → t.scheduler.IsFit
  deployment : ∀ job ∈ added, job.IsDeployment
  counts : ∀ firewall, Counts (s.generation firewall) (added.filterMap (Job.syncOf? firewall))
    (t.generation firewall)

namespace Plans

theorem refl (s : Orchestrator) : Plans s s [] :=
  ⟨⟨s.scheduler, s.syncs, rfl⟩, .refl _, id, fun _ h => absurd h List.not_mem_nil,
    fun _ => .nil⟩

theorem trans {s t u : Orchestrator} {first second : List Job} (h : Plans s t first)
    (h' : Plans t u second) : Plans s u (second ++ first) := by
  obtain ⟨scheduler, syncs, rfl⟩ := h.frame
  obtain ⟨scheduler', syncs', rfl⟩ := h'.frame
  refine ⟨⟨scheduler', syncs', rfl⟩, ?_, h'.fit ∘ h.fit, ?_, ?_⟩
  · rw [List.append_assoc]
    exact h'.jobs.trans (h.jobs.append_left second)
  · intro job hjob
    rcases List.mem_append.mp hjob with hjob | hjob
    · exact h'.deployment job hjob
    · exact h.deployment job hjob
  · intro firewall
    rw [List.filterMap_append]
    exact (h.counts firewall).append (h'.counts firewall)

end Plans

/-! ## Single jobs -/

theorem dispatchDeploy_plans (s : Orchestrator) (job : Job) (hjob : job.IsDeployment)
    (hsync : ∀ firewall, job.syncOf? firewall = none) (delay : UInt64) :
    Plans s (s.dispatchDeploy job delay) [job] := by
  refine ⟨⟨_, s.syncs, rfl⟩, ?_, fun h => Scheduler.dispatch_isFit h _ _, ?_, ?_⟩
  · exact (Scheduler.dispatch_entries s.scheduler _ _).map (·.job)
  · intro other hother
    rw [List.mem_singleton.mp hother]
    exact hjob
  · intro firewall
    simp only [List.filterMap_cons, hsync, List.filterMap_nil]
    exact .nil

theorem planProvision_plans (s : Orchestrator) (firewall : UInt64) :
    Plans s (s.planProvision firewall).2 [.provision firewall] :=
  dispatchDeploy_plans s (.provision firewall) trivial (fun _ => rfl) 0

theorem planDecisions_plans (s : Orchestrator) (firewall rule : UInt64) :
    Plans s (s.planDecisions firewall rule).2 [.applyDecisions firewall rule] :=
  dispatchDeploy_plans s (.applyDecisions firewall rule) trivial (fun _ => rfl) _

/-- The job that lifts decisions, if there are any. -/
def removalJobs (server : UInt64) (decisions : List Decision) : List Job :=
  if decisions.isEmpty then [] else [.removeDecisions server decisions]

theorem planRemoval_plans (s : Orchestrator) (server rule : UInt64) (decisions : List Decision) :
    Plans s (s.planRemoval server rule decisions).2 (removalJobs server decisions) := by
  unfold planRemoval removalJobs
  split
  · exact .refl s
  · exact dispatchDeploy_plans s (.removeDecisions server decisions) trivial (fun _ => rfl) _

theorem generation_insert (s : Orchestrator) (firewall other : UInt64) (state : SyncState) :
    generation { s with syncs := s.syncs.insert firewall state } other =
      if other = firewall then state.generation else s.generation other := by
  unfold generation syncState
  rw [Table.get?_insert]
  split <;> rfl

theorem planSync_plans (s : Orchestrator) (firewall : UInt64) (redeploy : Bool) :
    Plans s (s.planSync firewall redeploy).2 [.sync firewall (s.generation firewall + 1)] := by
  refine ⟨⟨_, _, rfl⟩, ?_, fun h => Scheduler.dispatch_isFit h _ _, ?_, ?_⟩
  · exact (Scheduler.dispatch_entries s.scheduler _ _).map (·.job)
  · intro other hother
    rw [List.mem_singleton.mp hother]
    trivial
  · intro other
    have hafter : (s.planSync firewall redeploy).2.generation other =
        if other = firewall then s.generation firewall + 1 else s.generation other :=
      generation_insert s firewall other _
    rw [hafter]
    by_cases hother : other = firewall
    · subst hother
      simp only [List.filterMap_cons, Job.syncOf?, if_pos, List.filterMap_nil]
      exact .cons .nil
    · have hother' : firewall ≠ other := fun heq => hother heq.symm
      simp only [List.filterMap_cons, Job.syncOf?, if_neg hother', if_neg hother,
        List.filterMap_nil]
      exact .nil

/-! ## Rules -/

/-- The decisions that a saved rule leaves behind. -/
def staleOf (s : Orchestrator) (c : Context) (rule : Rule) (previous : Option Rule) :
    List Decision :=
  let wanted := if rule.isBan && rule.enabled then s.bansOf c rule else []
  match liftedFrom? rule previous with
  | some old => (s.bansOf c old).filter fun d => !wanted.any fun w => w.ip = d.ip
  | none => []

/-- What is left behind are the decisions of the replaced version about the addresses that are not
wanted any more. -/
theorem mem_staleOf_iff {s : Orchestrator} {c : Context} {rule : Rule} {previous : Option Rule}
    {d : Decision} :
    d ∈ s.staleOf c rule previous ↔
      ∃ old, liftedFrom? rule previous = some old ∧ d ∈ s.bansOf c old ∧
        ∀ w ∈ if rule.isBan && rule.enabled then s.bansOf c rule else [], w.ip ≠ d.ip := by
  unfold staleOf
  cases hlifted : liftedFrom? rule previous with
  | none => simp
  | some old =>
    simp only [List.mem_filter, Bool.not_eq_true', List.any_eq_false, decide_eq_true_eq]
    constructor
    · rintro ⟨hd, hnot⟩
      exact ⟨old, rfl, hd, hnot⟩
    · rintro ⟨_, heq, hd, hnot⟩
      rw [Option.some.inj heq]
      exact ⟨hd, hnot⟩

/-- Whether a saved rule leads to a sync. -/
def savesSync (rule : Rule) (previous : Option Rule) : Bool :=
  !rule.isBan || match previous with
    | some previous => !previous.isBan
    | none => false

/-- The jobs that follow a saved rule. -/
def saveJobs (s : Orchestrator) (c : Context) (firewall : UInt64) (rule : Rule)
    (previous : Option Rule) : List Job :=
  (if savesSync rule previous then [.sync firewall (s.generation firewall + 1)] else []) ++
    (if rule.isBan && rule.enabled then [.applyDecisions firewall rule.id] else []) ++
    removalJobs c.server.id (s.staleOf c rule previous)

theorem Plans.generation_eq {s t : Orchestrator} {added : List Job} (h : Plans s t added)
    {firewall : UInt64} (hnone : ∀ job ∈ added, job.syncOf? firewall = none) :
    t.generation firewall = s.generation firewall := by
  have hcounts := h.counts firewall
  rw [List.filterMap_eq_nil_iff.mpr hnone] at hcounts
  exact hcounts.eq_of_nil

theorem syncOf?_of_mem_removalJobs {server firewall : UInt64} {decisions : List Decision}
    {job : Job} (h : job ∈ removalJobs server decisions) : job.syncOf? firewall = none := by
  unfold removalJobs at h
  split at h
  · cases h
  · rw [List.mem_singleton.mp h]
    rfl

/-- **The jobs that follow a saved rule.** -/
theorem planSave_plans (s : Orchestrator) (c : Context) (firewall : UInt64) (rule : Rule)
    (previous : Option Rule) :
    Plans s (s.planSave c firewall rule previous).2 (s.saveJobs c firewall rule previous) := by
  have hremoval := planRemoval_plans s c.server.id rule.id (s.staleOf c rule previous)
  let t := (s.planRemoval c.server.id rule.id (s.staleOf c rule previous)).2
  have hdecisions : Plans t
      (if rule.isBan && rule.enabled then t.planDecisions firewall rule.id else ([], t)).2
      (if rule.isBan && rule.enabled then [.applyDecisions firewall rule.id] else []) := by
    split
    · exact planDecisions_plans t firewall rule.id
    · exact .refl t
  let u := (if rule.isBan && rule.enabled then t.planDecisions firewall rule.id else ([], t)).2
  have hboth : Plans s u ((if rule.isBan && rule.enabled then
      [.applyDecisions firewall rule.id] else []) ++
      removalJobs c.server.id (s.staleOf c rule previous)) := hremoval.trans hdecisions
  have hgeneration : u.generation firewall = s.generation firewall := by
    refine hboth.generation_eq fun job hjob => ?_
    rcases List.mem_append.mp hjob with hjob | hjob
    · split at hjob
      · rw [List.mem_singleton.mp hjob]
        rfl
      · cases hjob
    · exact syncOf?_of_mem_removalJobs hjob
  have hsync : Plans u
      (if savesSync rule previous then u.planSync firewall true else ([], u)).2
      (if savesSync rule previous then [.sync firewall (s.generation firewall + 1)] else []) := by
    rw [← hgeneration]
    split
    · exact planSync_plans u firewall true
    · exact .refl u
  have hall := hboth.trans hsync
  rw [← List.append_assoc] at hall
  exact hall

/-- **The jobs that follow a deleted rule.** -/
theorem planDelete_plans (s : Orchestrator) (c : Context) (firewall : UInt64) (rule : Rule) :
    Plans s (s.planDelete c firewall rule).2
      (.sync firewall (s.generation firewall + 1) ::
        removalJobs c.server.id (if rule.isBan then s.bansOf c rule else [])) := by
  have hremoval := planRemoval_plans s c.server.id rule.id
    (if rule.isBan then s.bansOf c rule else [])
  have hgeneration := hremoval.generation_eq fun job (hjob : job ∈ removalJobs _ _) =>
    @syncOf?_of_mem_removalJobs _ firewall _ _ hjob
  have hsync := planSync_plans
    (s.planRemoval c.server.id rule.id (if rule.isBan then s.bansOf c rule else [])).2
    firewall false
  rw [hgeneration] at hsync
  exact hremoval.trans hsync

/-! ## Events -/

theorem filterMap_eq_nil_of_removalJobs (server firewall : UInt64) (decisions : List Decision) :
    (removalJobs server decisions).filterMap (Job.syncOf? firewall) = [] :=
  List.filterMap_eq_nil_iff.mpr fun _ => syncOf?_of_mem_removalJobs

theorem syncs_saveJobs (s : Orchestrator) (c : Context) (firewall : UInt64) (rule : Rule)
    (previous : Option Rule) :
    (s.saveJobs c firewall rule previous).filterMap (Job.syncOf? firewall) =
      if savesSync rule previous then [s.generation firewall + 1] else [] := by
  unfold saveJobs
  rw [List.filterMap_append, List.filterMap_append, filterMap_eq_nil_of_removalJobs,
    List.append_nil]
  split <;> split <;> simp [Job.syncOf?]

/-- The firewalls of the syncs among some jobs. -/
def SyncsOnly (firewall : UInt64) (added : List Job) : Prop :=
  ∀ other, other ≠ firewall → added.filterMap (Job.syncOf? other) = []

theorem syncsOnly_sync (firewall generation : UInt64) {added : List Job}
    (h : SyncsOnly firewall added) : SyncsOnly firewall (.sync firewall generation :: added) := by
  intro other hother
  have hne : firewall ≠ other := fun heq => hother heq.symm
  rw [List.filterMap_cons, Job.syncOf?, if_neg hne]
  exact h other hother

theorem syncsOnly_saveJobs (s : Orchestrator) (c : Context) (firewall : UInt64) (rule : Rule)
    (previous : Option Rule) : SyncsOnly firewall (s.saveJobs c firewall rule previous) := by
  intro other hother
  have hne : firewall ≠ other := fun heq => hother heq.symm
  unfold saveJobs
  rw [List.filterMap_append, List.filterMap_append, filterMap_eq_nil_of_removalJobs,
    List.append_nil]
  split <;> split <;> simp [Job.syncOf?, hne]

/-- What follows a saved rule of an active firewall. -/
theorem handleEvent_saved {s : Orchestrator} {c : Context} {id firewall : UInt64}
    (hc : s.contextOf firewall = .ok c) (previous : Option Rule) :
    s.handleEvent (.saved id firewall previous) =
      if !c.firewall.isActive then ([.skipped "firewall inactive"], s)
      else match c.rule? id with
        | some rule => s.planSave c firewall rule previous
        | none => ([.skipped s!"rule {id} no longer exists"], s) := by
  cases hactive : c.firewall.isActive <;> cases hrule : c.rule? id <;>
    simp [handleEvent, RuleEvent.firewall, hc, hactive, hrule]

/-- What follows a deleted rule of an active firewall. -/
theorem handleEvent_deleted {s : Orchestrator} {c : Context} {firewall : UInt64}
    (hc : s.contextOf firewall = .ok c) (rule : Rule) :
    s.handleEvent (.deleted rule firewall) =
      if !c.firewall.isActive then ([.skipped "firewall inactive"], s)
      else s.planDelete c firewall rule := by
  simp [handleEvent, RuleEvent.firewall, hc]

/-- What follows a change of a firewall. -/
theorem handleEvent_firewallChanged {s : Orchestrator} {c : Context} {firewall : UInt64}
    (hc : s.contextOf firewall = .ok c) :
    s.handleEvent (.firewallChanged firewall) =
      if c.firewall.needsBouncer then s.planProvision firewall
      else if !c.firewall.isActive then ([.skipped "firewall inactive"], s)
      else s.planSync firewall true := by
  simp [handleEvent, RuleEvent.firewall, hc]

/-- What an event of a firewall leads to does not touch the syncs of others. -/
theorem handleEvent_plans (s : Orchestrator) (e : RuleEvent) :
    ∃ added, Plans s (s.handleEvent e).2 added ∧ SyncsOnly e.firewall added := by
  have hnothing : ∃ added, Plans s s added ∧ SyncsOnly e.firewall added :=
    ⟨[], .refl s, fun _ _ => rfl⟩
  cases hc : s.contextOf e.firewall with
  | error failure =>
    simp only [handleEvent, hc]
    exact hnothing
  | ok c => cases e with
    | saved id firewall previous =>
      have hc : s.contextOf firewall = .ok c := hc
      rw [handleEvent_saved hc]
      split
      · exact hnothing
      · split
        · exact ⟨_, planSave_plans s c firewall _ previous, syncsOnly_saveJobs s c firewall _ _⟩
        · exact hnothing
    | deleted rule firewall =>
      have hc : s.contextOf firewall = .ok c := hc
      rw [handleEvent_deleted hc]
      split
      · exact hnothing
      · exact ⟨_, planDelete_plans s c firewall rule, syncsOnly_sync firewall _ fun other _ =>
          filterMap_eq_nil_of_removalJobs _ other _⟩
    | firewallChanged firewall =>
      have hc : s.contextOf firewall = .ok c := hc
      rw [handleEvent_firewallChanged hc]
      split
      · exact ⟨_, planProvision_plans s firewall, fun _ _ => rfl⟩
      · split
        · exact hnothing
        · exact ⟨_, planSync_plans s firewall true, syncsOnly_sync firewall _ fun _ _ => rfl⟩

/-! ## Events of an application -/

/-- A state that knows an application. -/
structure KnowsSite (s : Orchestrator) (site : Site) : Prop where
  settings : s.settings = site.settings
  server : s.registry.get site.application.serverId = .ok site.server
  store : site.Knows s.store

/-- What is planned for an application: a sync; or none, for a reason. -/
def Outcome (s : Orchestrator) (site : Site) (firewall : Firewall) (added : List Job)
    (noNeed : Prop) : Prop :=
  added.filterMap (Job.syncOf? site.firewall) = [s.generation site.firewall + 1] ∨
    (added.filterMap (Job.syncOf? site.firewall) = [] ∧
      (firewall.isActive = false ∨ noNeed ∨
        (firewall.needsBouncer = true ∧ .provision site.firewall ∈ added)))

theorem KnowsSite.contextOf {s : Orchestrator} {site : Site} (h : s.KnowsSite site)
    {firewall : Firewall} (hfirewall : s.store.firewalls.get? site.firewall = some firewall) :
    s.contextOf site.firewall = .ok (.of site.application firewall
      (s.store.rulesOf site.firewall) site.server) :=
  Site.contextOf_eq h.store h.server hfirewall

theorem KnowsSite.engine {s : Orchestrator} {site : Site} (h : s.KnowsSite site) :
    s.engine = site.engine := by
  unfold Orchestrator.engine Site.engine
  rw [h.settings]

theorem KnowsSite.perform {s : Orchestrator} {site : Site} (h : s.KnowsSite site)
    {r : Execution.Request} (hr : r.uuid = site.uuid) : (r.perform s).2.KnowsSite site := by
  obtain ⟨store, counters, hstate, hstore, _⟩ := Site.perform_spec h.settings h.store hr
  rw [hstate]
  exact ⟨h.settings, h.server, hstore⟩

/-- The server is also known by its own number. -/
theorem KnowsSite.ownServer {s : Orchestrator} {site : Site} (h : s.KnowsSite site) :
    s.server site.server.id = .ok site.server := by
  have hget := h.server
  unfold Registry.get at hget
  split at hget
  · rename_i server hfind
    obtain rfl := Except.ok.inj hget
    have hid := List.find?_some hfind
    rw [beq_iff_eq] at hid
    rw [Orchestrator.server, Registry.get, hid, hfind]
  · cases hget

/-- **What is planned when an event is handled.** An active firewall gets a sync if the event calls
for one, unless it gets a bouncer first. -/
theorem handleEvent_spec {s : Orchestrator} {site : Site} (h : s.KnowsSite site)
    {firewall : Firewall} (hfirewall : s.store.firewalls.get? site.firewall = some firewall)
    (e : RuleEvent) :
    ∃ added, Plans s (s.handleEvent e).2 added ∧
      Outcome s site firewall added (¬ site.WillSync s.store e) := by
  by_cases hown : e.firewall = site.firewall
  · have hcontext := h.contextOf hfirewall
    have hinactive (hactive : firewall.isActive = false) : ∃ added, Plans s s added ∧
        Outcome s site firewall added (¬ site.WillSync s.store e) :=
      ⟨[], .refl s, .inr ⟨rfl, .inl hactive⟩⟩
    have hsame : (Context.of site.application firewall (s.store.rulesOf site.firewall)
      site.server).firewall = firewall := rfl
    cases e with
    | saved id f previous =>
      obtain rfl : f = site.firewall := hown
      rw [handleEvent_saved hcontext, hsame]
      cases hactive : firewall.isActive with
      | false => exact hinactive hactive
      | true =>
        rw [Bool.not_true, if_neg Bool.false_ne_true]
        cases hrule : (Context.of site.application firewall (s.store.rulesOf site.firewall)
            site.server).rule? id with
        | none =>
          refine ⟨[], .refl s, .inr ⟨rfl, .inr (.inl ?_)⟩⟩
          rintro ⟨_, rule, hget, hf, _⟩
          rw [(Site.rule?_eq_some_iff h.store).mpr ⟨hget, hf⟩] at hrule
          cases hrule
        | some rule =>
          refine ⟨_, planSave_plans s _ site.firewall rule previous, ?_⟩
          unfold Outcome
          rw [syncs_saveJobs]
          cases hsaves : savesSync rule previous with
          | true => exact .inl rfl
          | false =>
            refine .inr ⟨rfl, .inr (.inl ?_)⟩
            rintro ⟨_, rule', hget, hf, hkind⟩
            rw [(Site.rule?_eq_some_iff h.store).mpr ⟨hget, hf⟩] at hrule
            obtain rfl := Option.some.inj hrule
            unfold savesSync at hsaves
            rcases hkind with hban | ⟨old, rfl, hban⟩ <;> simp [hban] at hsaves
    | deleted rule f =>
      obtain rfl : f = site.firewall := hown
      rw [handleEvent_deleted hcontext, hsame]
      cases hactive : firewall.isActive with
      | false => exact hinactive hactive
      | true =>
        rw [Bool.not_true, if_neg Bool.false_ne_true]
        refine ⟨_, planDelete_plans s _ site.firewall rule, .inl ?_⟩
        rw [List.filterMap_cons, Job.syncOf?, if_pos rfl, filterMap_eq_nil_of_removalJobs]
    | firewallChanged f =>
      obtain rfl : f = site.firewall := hown
      rw [handleEvent_firewallChanged hcontext, hsame]
      cases hneeds : firewall.needsBouncer with
      | true =>
        rw [if_pos rfl]
        exact ⟨_, planProvision_plans s site.firewall,
          .inr ⟨rfl, .inr (.inr ⟨hneeds, List.mem_singleton_self _⟩)⟩⟩
      | false =>
        rw [if_neg Bool.false_ne_true]
        cases hactive : firewall.isActive with
        | false => exact hinactive hactive
        | true =>
          rw [Bool.not_true, if_neg Bool.false_ne_true]
          refine ⟨_, planSync_plans s site.firewall true, .inl ?_⟩
          rw [List.filterMap_cons, Job.syncOf?, if_pos rfl, List.filterMap_nil]
  · obtain ⟨added, hplans, honly⟩ := handleEvent_plans s e
    refine ⟨added, hplans, .inr ⟨honly site.firewall fun heq => hown heq.symm, .inr (.inl ?_)⟩⟩
    intro hwill
    cases e with
    | saved _ _ _ => exact hown hwill.1
    | deleted _ _ => exact hown hwill
    | firewallChanged _ => exact hown hwill

/-! ## Lost events -/

/-- The decisions of all these rules are planned. -/
theorem planAllDecisions_jobs (s : Orchestrator) (firewall : UInt64) (rules : List Rule) :
    Plans s (s.planAllDecisions firewall rules).2
      (rules.reverse.map fun rule => .applyDecisions firewall rule.id) := by
  have hall : ∀ (plan : Planned) (before : List Job), Plans s plan.2 before →
      Plans s (rules.foldl (fun plan rule =>
        planBoth plan fun s => s.planDecisions firewall rule.id) plan).2
        ((rules.reverse.map fun rule => .applyDecisions firewall rule.id) ++ before) := by
    induction rules with
    | nil => exact fun _ _ h => h
    | cons rule rules ih =>
      intro plan before h
      have hrest := ih (planBoth plan fun s => s.planDecisions firewall rule.id) _
        (h.trans (planDecisions_plans plan.2 firewall rule.id))
      rw [List.reverse_cons, List.map_append, List.append_assoc]
      exact hrest
  have hplans := hall ([], s) [] (.refl s)
  rwa [List.append_nil] at hplans

/-- The jobs of a firewall when everything is deployed from scratch. -/
def resyncJobs (s : Orchestrator) (firewall : UInt64) : List Job :=
  match s.contextOf firewall with
  | .error _ => []
  | .ok c =>
    if c.firewall.needsBouncer then [.provision firewall]
    else if !c.firewall.isActive then []
    else (c.banRules.reverse.map fun rule => .applyDecisions firewall rule.id) ++
      [.sync firewall (s.generation firewall + 1)]

theorem resyncJobs_of_context {s : Orchestrator} {firewall : UInt64} {c : Context}
    (hc : s.contextOf firewall = .ok c) :
    s.resyncJobs firewall =
      if c.firewall.needsBouncer then [.provision firewall]
      else if !c.firewall.isActive then []
      else (c.banRules.reverse.map fun rule => .applyDecisions firewall rule.id) ++
        [.sync firewall (s.generation firewall + 1)] := by
  rw [resyncJobs, hc]

theorem resyncOne_plans (s : Orchestrator) (firewall : UInt64) :
    Plans s (s.resyncOne firewall).2 (s.resyncJobs firewall) := by
  unfold resyncOne resyncJobs
  cases s.contextOf firewall with
  | error failure => exact .refl s
  | ok c =>
    simp only
    split
    · exact planProvision_plans s firewall
    · split
      · exact .refl s
      · exact (planSync_plans s firewall true).trans
          (planAllDecisions_jobs (s.planSync firewall true).2 firewall c.banRules)

/-- **Only such jobs are planned for a firewall**: its bouncer's, or else a sync and the decisions of
its rules. -/
theorem mem_resyncJobs {s : Orchestrator} {firewall : UInt64} {job : Job}
    (h : job ∈ s.resyncJobs firewall) :
    (job = .provision firewall ∧
        ∃ c, s.contextOf firewall = .ok c ∧ c.firewall.needsBouncer = true) ∨
      job = .sync firewall (s.generation firewall + 1) ∨
      ∃ rule : Rule, job = .applyDecisions firewall rule.id := by
  cases hc : s.contextOf firewall with
  | error failure =>
    rw [resyncJobs, hc] at h
    cases h
  | ok c =>
    rw [resyncJobs_of_context hc] at h
    split at h
    · rename_i hneeds
      exact .inl ⟨List.mem_singleton.mp h, c, rfl, hneeds⟩
    · split at h
      · cases h
      · rcases List.mem_append.mp h with h | h
        · obtain ⟨rule, _, rfl⟩ := List.mem_map.mp h
          exact .inr (.inr ⟨rule, rfl⟩)
        · exact .inr (.inl (List.mem_singleton.mp h))

theorem syncs_applyDecisions (firewall other : UInt64) (rules : List Rule) :
    (rules.map fun rule => Job.applyDecisions firewall rule.id).filterMap (Job.syncOf? other) =
      [] := by
  refine List.filterMap_eq_nil_iff.mpr fun job hjob => ?_
  obtain ⟨rule, _, rfl⟩ := List.mem_map.mp hjob
  rfl

/-- What is planned for one firewall does not touch the syncs of others. -/
theorem syncsOnly_resyncJobs (s : Orchestrator) (firewall : UInt64) :
    SyncsOnly firewall (s.resyncJobs firewall) := by
  intro other hother
  refine List.filterMap_eq_nil_iff.mpr fun job hjob => ?_
  rcases mem_resyncJobs hjob with ⟨rfl, _⟩ | rfl | ⟨rule, rfl⟩
  · rfl
  · exact if_neg fun heq => hother heq.symm
  · rfl

/-- Plans for other firewalls change nothing of what is planned for one. -/
theorem Plans.resyncJobs_same {s t : Orchestrator} {added : List Job} (h : Plans s t added)
    {firewall : UInt64} (hnone : added.filterMap (Job.syncOf? firewall) = []) :
    t.resyncJobs firewall = s.resyncJobs firewall := by
  have hgeneration := h.generation_eq (List.filterMap_eq_nil_iff.mp hnone)
  obtain ⟨scheduler, syncs, rfl⟩ := h.frame
  unfold resyncJobs
  rw [hgeneration]
  rfl

/-- **What is planned when events were lost**: the jobs of every firewall, each once. -/
theorem resync_plans {s : Orchestrator} (h : s.store.firewalls.keys.Nodup) :
    Plans s s.resync.2 (s.store.firewallIds.reverse.flatMap s.resyncJobs) := by
  have hall : ∀ (ids : List UInt64), ids.Nodup → ∀ (plan : Planned) (before : List Job),
      Plans s plan.2 before → (∀ id ∈ ids, before.filterMap (Job.syncOf? id) = []) →
      Plans s (ids.foldl (fun plan id => planBoth plan (·.resyncOne id)) plan).2
        (ids.reverse.flatMap s.resyncJobs ++ before) := by
    intro ids
    induction ids with
    | nil => exact fun _ _ _ hbefore _ => hbefore
    | cons id ids ih =>
      intro hnodup plan before hbefore hnone
      obtain ⟨hnot, hnodup⟩ := List.nodup_cons.mp hnodup
      rw [List.forall_mem_cons] at hnone
      have hone := resyncOne_plans plan.2 id
      rw [hbefore.resyncJobs_same hnone.1] at hone
      have hrest := ih hnodup (planBoth plan (·.resyncOne id)) _ (hbefore.trans hone)
        fun other hother => by
          have hne : other ≠ id := fun heq => hnot (heq ▸ hother)
          rw [List.filterMap_append, syncsOnly_resyncJobs s id other hne, hnone.2 other hother]
          rfl
      rw [List.reverse_cons, List.flatMap_append, List.flatMap_singleton, List.append_assoc]
      exact hrest
  have hids : s.store.firewallIds.Nodup := (List.mergeSort_perm _ _).nodup_iff.mpr h
  have hplans := hall s.store.firewallIds hids ([], s) [] (.refl s) fun _ _ => rfl
  rwa [List.append_nil] at hplans

/-- Only one of several different elements has anything. -/
theorem flatMap_eq_of_mem {α β : Type} {xs : List α} (hnodup : xs.Nodup) {x : α} (hx : x ∈ xs)
    {f : α → List β} (hother : ∀ y ∈ xs, y ≠ x → f y = []) : xs.flatMap f = f x := by
  obtain ⟨before, after, rfl⟩ := List.append_of_mem hx
  obtain ⟨-, hafter, hdisjoint⟩ := List.nodup_append.mp hnodup
  have hnone : ∀ ys : List α, (∀ y ∈ ys, y ∈ before ++ x :: after ∧ y ≠ x) → ys.flatMap f = [] :=
    fun ys hys => List.flatMap_eq_nil_iff.mpr fun y hy => hother y (hys y hy).1 (hys y hy).2
  rw [List.flatMap_append, List.flatMap_cons, hnone before, hnone after, List.nil_append,
    List.append_nil]
  · refine fun y hy => ⟨by simp [hy], ?_⟩
    rintro rfl
    exact (List.nodup_cons.mp hafter).1 hy
  · exact fun y hy => ⟨by simp [hy], hdisjoint y hy x List.mem_cons_self⟩

/-- The firewalls that are deployed from scratch, in the order of their jobs. -/
theorem reverse_firewallIds_nodup {s : Orchestrator} (h : s.store.firewalls.keys.Nodup) :
    s.store.firewallIds.reverse.Nodup :=
  List.nodup_reverse.mpr ((List.mergeSort_perm _ _).nodup_iff.mpr h)

theorem mem_reverse_firewallIds {s : Orchestrator} (h : s.store.firewalls.keys.Nodup)
    {id : UInt64} {firewall : Firewall} (hget : s.store.firewalls.get? id = some firewall) :
    id ∈ s.store.firewallIds.reverse :=
  List.mem_reverse.mpr (List.mem_mergeSort.mpr ((Table.mem_keys_iff h).mpr ⟨firewall, hget⟩))

theorem KnowsSite.of_plans {s t : Orchestrator} {site : Site} {added : List Job}
    (h : s.KnowsSite site) (hplans : Plans s t added) : t.KnowsSite site := by
  obtain ⟨scheduler, syncs, rfl⟩ := hplans.frame
  exact ⟨h.settings, h.server, h.store⟩

/-- **What is planned for an application when events were lost.** It gets a sync if its firewall is
active and has its bouncer. -/
theorem resync_spec {s : Orchestrator} {site : Site} (h : s.KnowsSite site)
    {firewall : Firewall} (hfirewall : s.store.firewalls.get? site.firewall = some firewall) :
    ∃ added, Plans s s.resync.2 added ∧ Outcome s site firewall added False := by
  refine ⟨_, resync_plans h.store.distinct, ?_⟩
  have hmem := mem_reverse_firewallIds h.store.distinct hfirewall
  have hsyncs : (s.store.firewallIds.reverse.flatMap s.resyncJobs).filterMap
      (Job.syncOf? site.firewall) =
        (s.resyncJobs site.firewall).filterMap (Job.syncOf? site.firewall) := by
    rw [List.filterMap_flatMap]
    exact flatMap_eq_of_mem (reverse_firewallIds_nodup h.store.distinct) hmem
      fun id _ hne => syncsOnly_resyncJobs s id site.firewall hne.symm
  have hjobs := resyncJobs_of_context (h.contextOf hfirewall)
  have hsame : (Context.of site.application firewall (s.store.rulesOf site.firewall)
    site.server).firewall = firewall := rfl
  rw [hsame] at hjobs
  unfold Outcome
  rw [hsyncs]
  cases hneeds : firewall.needsBouncer with
  | true =>
    rw [hneeds, if_pos rfl] at hjobs
    rw [hjobs]
    refine .inr ⟨rfl, .inr (.inr ⟨rfl, List.mem_flatMap.mpr ⟨site.firewall, hmem, ?_⟩⟩)⟩
    rw [hjobs]
    exact List.mem_singleton_self _
  | false =>
    rw [hneeds, if_neg Bool.false_ne_true] at hjobs
    cases hactive : firewall.isActive with
    | false =>
      rw [hactive, Bool.not_false, if_pos rfl] at hjobs
      rw [hjobs]
      exact .inr ⟨rfl, .inl rfl⟩
    | true =>
      rw [hactive, Bool.not_true, if_neg Bool.false_ne_true] at hjobs
      rw [hjobs, List.filterMap_append, syncs_applyDecisions, List.filterMap_cons, Job.syncOf?,
        if_pos rfl, List.filterMap_nil]
      exact .inl rfl

end Orchestrator

end Rampart
