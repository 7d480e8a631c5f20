import Mathlib
import Rampart.Proofs.Deployment.Invariant
import Rampart.Proofs.Execution.Schedule
import Rampart.Proofs.Deployment.Shop

/-!
# The newest rules win

However requests, events, jobs and the steps of many workers come in between each other: once
nothing is left to be done, the scenario files of an application with an active firewall are those
that its rules call for.

* `Invariant.request`, `Invariant.announce`, `Invariant.hear`, `Invariant.start`, …: what each step
  keeps.
* **`invariant_of_step`**: so do all steps, as long as the generations of syncs are not used up.
* **`files_converge`**: what is in place in the end.
-/

namespace Rampart.Convergence

open Execution Orchestrator
open Remote (Files)

section

variable {ρ : Type} {site : Site} {o : Outside ρ} {files : ρ → UInt64 → Files} {n : Nat}
  {c : Config ρ} {roles : Nat → Role}

theorem Base.mono {m : Nat} (h : Base site files n c) (hle : n ≤ m) : Base site files m c :=
  { h with bounded := Nat.le_trans h.bounded hle }

theorem Invariant.mono {m : Nat} (h : Invariant site o files n c roles) (hle : n ≤ m) :
    Invariant site o files m c roles :=
  ⟨h.base.mono hle, h.cast, h.news⟩

/-! ## Requests and announcements -/

theorem Invariant.frame (h : Invariant site o files n c roles) {t : Orchestrator}
    (hs : Harmless site c.state t) : Invariant site o files n { c with state := t } roles := by
  refine ⟨h.base.frame hs fun _ _ => rfl, h.cast.frame ?_ (fun g hg => .inl ?_) (.refl _) rfl rfl,
    h.news.frame h.base hs (fun _ _ => rfl) rfl⟩
  · rw [hs.generation]
    exact UInt64.le_refl _
  · exact (syncs_perm_of_harmless hs).mem_iff.mp hg

/-- **Requests**: if the application's files should change, the event of the change is on the way. -/
theorem Invariant.request (h : Invariant site o files n c roles) {r : Request}
    (hr : r.uuid = site.uuid) :
    Invariant site o files n
      { c with
        state := (r.perform c.state).2
        unannounced := c.unannounced ++ (r.perform c.state).1.toList } roles := by
  obtain ⟨store, counters, hstate, hknows, hkind⟩ :=
    Site.perform_spec h.base.knows.settings h.base.knows.store hr
  rw [hstate]
  refine ⟨?_, h.cast.frame (UInt64.le_refl _) (fun g hg => .inl hg) (.refl _) rfl rfl, ?_⟩
  · exact ⟨⟨h.base.knows.settings, h.base.knows.server, hknows⟩, h.base.bus, h.base.fit,
      h.base.deployment, h.base.bounded, h.base.old, h.base.distinct, h.base.blankFree⟩
  · rcases hkind with ⟨hnone, hrules, hfirewalls⟩ | ⟨event, hevent, hannounces⟩
    · refine h.news.of_same (congrArg (·.get? site.firewall) hfirewalls)
        (isTarget_congr hrules (congrArg (·.get? site.firewall) hfirewalls)) (fun hnotice => ?_)
        (fun _ hjob => hjob) rfl fun _ _ => rfl
      refine hnotice.imp_right fun ⟨e, hmem, he⟩ => ⟨e, hmem.imp_left ?_, ?_⟩
      · exact List.mem_append_left _
      · exact (willSync_congr hrules e).mpr he
    · have hnew : event ∈ c.unannounced ++ (r.perform c.state).1.toList := by
        rw [hevent]
        exact List.mem_append_right _ (List.mem_singleton_self _)
      rcases hannounces.same with hwill | ⟨htarget, hfirewalls⟩
      · exact fun _ _ _ => .inl (.inr ⟨event, .inl hnew, hwill⟩)
      · refine h.news.of_same (congrArg (·.get? site.firewall) hfirewalls) htarget
          (fun hnotice => hnotice.imp_right fun ⟨e, hmem, he⟩ => ?_) (fun _ hjob => hjob) rfl
          fun _ _ => rfl
        rcases hannounces.keeps e he with hwill | hwill
        · exact ⟨e, hmem.imp_left (List.mem_append_left _), hwill⟩
        · exact ⟨event, .inl hnew, hwill⟩

theorem Invariant.announce (h : Invariant site o files n c roles) {before after : List RuleEvent}
    {event : RuleEvent} (hevents : c.unannounced = before ++ event :: after) :
    Invariant site o files n
      { c with state := (c.state.announce event).2, unannounced := before ++ after } roles := by
  obtain ⟨position, hfollows⟩ := h.base.bus
  refine ⟨?_, h.cast.frame (UInt64.le_refl _) (fun g hg => .inl hg) (.refl _) rfl rfl, ?_⟩
  · exact ⟨⟨h.base.knows.settings, h.base.knows.server, h.base.knows.store⟩,
      ⟨position, Bus.publish_follows hfollows event⟩, h.base.fit, h.base.deployment,
      h.base.bounded, h.base.old, h.base.distinct, h.base.blankFree⟩
  · refine h.news.of_same rfl (fun _ => Iff.rfl) (fun hnotice => ?_) (fun _ hjob => hjob) rfl
      fun _ _ => rfl
    refine hnotice.publish h.base.bus rfl (fun e he => ?_) fun _ he => he
    rw [hevents] at he
    rcases List.mem_append.mp he with he | he
    · exact .inl (List.mem_append_left _ he)
    · rcases List.mem_cons.mp he with rfl | he
      · exact .inr rfl
      · exact .inl (List.mem_append_right _ he)

/-! ## Planning -/

theorem toNat_succ {g : UInt64} (hg : g.toNat ≤ n) (hn : n + 1 < 2 ^ 64) :
    (g + 1).toNat = g.toNat + 1 := by
  have hone : (1 : UInt64).toNat = 1 := rfl
  rw [UInt64.toNat_add, hone, Nat.mod_eq_of_lt (by omega)]

/-- A sync that is newer than all that have begun is what everything waits for. -/
theorem Cast.fresh_of_lt (h : Cast site o files c roles) {isTarget : ScenarioFile → Prop}
    {g : UInt64} (hg : c.state.generation site.firewall < g) (i : Nat) :
    (roles i).Fresh isTarget g := by
  have hold : ∀ g, (roles i).generation? = some g → g ≤ c.state.generation site.firewall :=
    fun _ => h.old
  cases hr : roles i with
  | sync e g' phase =>
    rw [hr] at hold
    exact fun heq => absurd (heq ▸ hold g' rfl) (UInt64.not_le.mpr hg)
  | _ => trivial

/-- **Planning**: a sync that is planned is the newest; if none is planned there is a reason. -/
theorem Invariant.plan (h : Invariant site o files n c roles) (hn : n + 1 < 2 ^ 64)
    {bus : Bus RuleEvent} {position : Nat} (hfollows : bus.Follows Simulation.deployer position)
    {t : Orchestrator} {added : List Job} (hplans : Plans { c.state with ruleBus := bus } t added)
    {firewall : Firewall} (hfirewall : c.state.store.firewalls.get? site.firewall = some firewall)
    {noNeed : Prop}
    (houtcome : Orchestrator.Outcome { c.state with ruleBus := bus } site firewall added noNeed)
    (hnotice : noNeed → Notice site c →
      Notice site { c with state := { c.state with ruleBus := bus } }) :
    Invariant site o files (n + 1) { c with state := t } roles := by
  obtain ⟨scheduler, counted, ht⟩ := hplans.frame
  have hperm : (syncs site t).Perm
      (added.filterMap (Job.syncOf? site.firewall) ++ syncs site c.state) := by
    have hperm := hplans.jobs.filterMap (Job.syncOf? site.firewall)
    rwa [List.filterMap_append] at hperm
  have hknows : t.KnowsSite site := by
    rw [ht]
    exact ⟨h.base.knows.settings, h.base.knows.server, h.base.knows.store⟩
  have hbus : ∃ position, t.ruleBus.Follows Simulation.deployer position := by
    rw [ht]
    exact ⟨position, hfollows⟩
  have hfit : t.scheduler.IsFit := hplans.fit h.base.fit
  have hdeployment : ∀ job ∈ t.jobs, job.IsDeployment := by
    intro job hjob
    rcases List.mem_append.mp (hplans.jobs.mem_iff.mp hjob) with hjob | hjob
    · exact hplans.deployment job hjob
    · exact h.base.deployment job hjob
  have hcounts : Counts (c.state.generation site.firewall)
      (added.filterMap (Job.syncOf? site.firewall)) (t.generation site.firewall) :=
    hplans.counts site.firewall
  rcases houtcome with hsync | ⟨hnil, hreason⟩
  · -- The new sync is the newest, and no worker has begun it.
    rw [hsync] at hperm hcounts
    obtain ⟨hg, hgeneration⟩ := hcounts.eq_of_singleton
    rw [hg] at hperm
    have hsucc := toNat_succ h.base.bounded hn
    have hlt : c.state.generation site.firewall < c.state.generation site.firewall + 1 := by
      rw [UInt64.lt_iff_toNat_lt, hsucc]
      exact Nat.lt_succ_self _
    refine ⟨⟨hknows, hbus, hfit, hdeployment, ?_, fun g hg => ?_, ?_, h.base.blankFree⟩,
      h.cast.frame ?_ (fun g hg => ?_) (.refl _) rfl rfl, fun _ _ _ => ?_⟩
    · change (t.generation site.firewall).toNat ≤ n + 1
      rw [hgeneration, hsucc]
      exact Nat.succ_le_succ h.base.bounded
    · change g ≤ t.generation site.firewall
      rw [hgeneration]
      rcases List.mem_cons.mp (hperm.mem_iff.mp hg) with rfl | hg
      · exact UInt64.le_refl _
      · exact UInt64.le_of_lt (UInt64.lt_of_le_of_lt (h.base.old g hg) hlt)
    · refine hperm.nodup_iff.mpr (List.nodup_cons.mpr ⟨fun hmem => ?_, h.base.distinct⟩)
      exact absurd (h.base.old _ hmem) (UInt64.not_le.mpr hlt)
    · change _ ≤ t.generation site.firewall
      rw [hgeneration]
      exact UInt64.le_of_lt hlt
    · rcases List.mem_cons.mp (hperm.mem_iff.mp hg) with rfl | hg
      · exact .inr hlt
      · exact .inl hg
    · refine .inr (.inr (.inr ⟨fun i => ?_, .inl ?_⟩))
      · change (roles i).Fresh _ (t.generation site.firewall)
        rw [hgeneration]
        exact h.cast.fresh_of_lt hlt i
      · change t.generation site.firewall ∈ syncs site t
        rw [hgeneration]
        exact hperm.mem_iff.mpr List.mem_cons_self
  · -- No new sync: what was on the way still is, unless the firewall gets its bouncer first.
    rw [hnil] at hperm hcounts
    have hgeneration : t.generation site.firewall = c.state.generation site.firewall :=
      hcounts.eq_of_nil
    have hmem : ∀ {g}, g ∈ syncs site t ↔ g ∈ syncs site c.state := hperm.mem_iff
    refine ⟨⟨hknows, hbus, hfit, hdeployment, ?_, fun g hg => ?_, hperm.nodup_iff.mpr
      h.base.distinct, h.base.blankFree⟩, h.cast.frame ?_ (fun g hg => .inl (hmem.mp hg)) (.refl _)
      rfl rfl, ?_⟩
    · change (t.generation site.firewall).toNat ≤ n + 1
      rw [hgeneration]
      exact Nat.le_succ_of_le h.base.bounded
    · change g ≤ t.generation site.firewall
      rw [hgeneration]
      exact h.base.old g (hmem.mp hg)
    · change _ ≤ t.generation site.firewall
      rw [hgeneration]
      exact UInt64.le_refl _
    · have hstore : t.store = c.state.store := by rw [ht]
      have hmore : ∀ job ∈ c.state.jobs, job ∈ t.jobs := fun job hjob =>
        hplans.jobs.mem_iff.mpr (List.mem_append_right _ hjob)
      rcases hreason with hinactive | hno | ⟨hneeds, hprovision⟩
      · intro other hother hactive
        change t.store.firewalls.get? site.firewall = some other at hother
        rw [hstore, hfirewall] at hother
        rw [← Option.some.inj hother, hinactive] at hactive
        cases hactive
      · refine h.news.of_same (congrArg (fun s : Store => s.firewalls.get? site.firewall) hstore)
          (fun f => ?_) (fun hold => ?_) hmore hgeneration fun _ _ => rfl
        · change site.IsTarget t.store f ↔ _
          rw [hstore]
        · rw [ht]
          exact hnotice hno hold
      · intro other hother _
        change t.store.firewalls.get? site.firewall = some other at hother
        rw [hstore, hfirewall] at hother
        refine .inr (.inr (.inl ⟨Option.some.inj hother ▸ hneeds, .inl ?_⟩))
        exact hplans.jobs.mem_iff.mpr (List.mem_append_left _ hprovision)

/-- **An event is heard**, or that events were lost. -/
theorem Invariant.hear (h : Invariant site o files n c roles) (hn : n + 1 < 2 ^ 64) :
    Invariant site o files (n + 1) { c with state := Simulation.World.hearRule c.state }
      roles := by
  obtain ⟨position, hfollows⟩ := h.base.bus
  obtain ⟨firewall, hfirewall⟩ := h.base.knows.store.firewall
  have hknows : ∀ bus, KnowsSite { c.state with ruleBus := bus } site := fun _ =>
    ⟨h.base.knows.settings, h.base.knows.server, h.base.knows.store⟩
  rcases Bus.next_cases hfollows with ⟨_, k, after, _, hnext, hafter, _, _⟩ |
    ⟨hnot, e, after, _, hnext, hafter, _, hunread⟩ | ⟨_, _, hnext⟩
  · obtain ⟨added, hplans, houtcome⟩ := resync_spec (hknows after) hfirewall
    have hheard : Simulation.World.hearRule c.state =
        (resync { c.state with ruleBus := after }).2 := by
      simp only [Simulation.World.hearRule, hnext]
    rw [hheard]
    exact h.plan hn hafter hplans hfirewall houtcome False.elim
  · obtain ⟨added, hplans, houtcome⟩ := handleEvent_spec (hknows after) hfirewall e
    have hheard : Simulation.World.hearRule c.state =
        (handleEvent { c.state with ruleBus := after } e).2 := by
      simp only [Simulation.World.hearRule, hnext]
    rw [hheard]
    refine h.plan hn hafter hplans hfirewall houtcome fun hno hold => ?_
    rcases hold with hbehind | ⟨e', hmem, he'⟩
    · exact absurd hbehind hnot
    · refine .inr ⟨e', hmem.imp_right fun hmem => ?_, he'⟩
      rw [hunread] at hmem
      rcases List.mem_cons.mp hmem with rfl | hmem
      · exact absurd he' hno
      · exact hmem
  · have hheard : Simulation.World.hearRule c.state = c.state := by
      rcases hnext with hnext | hnext <;> simp only [Simulation.World.hearRule, hnext]
    rw [hheard]
    exact h.mono (Nat.le_succ n)

/-! ## Workers -/

/-- The role of a worker who begins a job. -/
structure Begins (site : Site) (o : Outside ρ) (e : Entry Job) (r : Role) : Prop where
  process : r.process site = some (works.attempt e)
  sound : ∀ fs newest, (∀ g, e.job.syncOf? site.firewall = some g → g ≤ newest) →
    r.Sound site o fs newest
  generation : r.generation? = e.job.syncOf? site.firewall
  holds : r.holds = false
  call : e.job = .provision site.firewall → r.mayRecord = true
  due : ∀ g, e.job.syncOf? site.firewall = some g → r.isDue g = true
  fresh : ∀ isTarget g, r.Fresh isTarget g
  writes : ∀ isTarget, r.WritesOnly isTarget

theorem exists_begins (site : Site) (o : Outside ρ) {e : Entry Job} (hjob : e.job.IsDeployment) :
    ∃ r, Begins site o e r := by
  have hquiet (hsync : e.job.syncOf? site.firewall = none)
      (hprovision : e.job ≠ .provision site.firewall) : Begins site o e
        (.quiet (works.attempt e)) := by
    refine ⟨rfl, fun _ _ _ => quiet_attempt o hjob hsync hprovision, hsync.symm, rfl,
      fun h => absurd h hprovision, fun g hg => ?_, fun _ _ => trivial, fun _ => trivial⟩
    rw [hsync] at hg
    cases hg
  cases hsync : e.job.syncOf? site.firewall with
  | none =>
    by_cases hprovision : e.job = .provision site.firewall
    · refine ⟨.calling e, rfl, fun _ _ _ => hprovision, hsync.symm, rfl, fun _ => rfl,
        fun g hg => ?_, fun _ _ => trivial, fun _ => trivial⟩
      rw [hsync] at hg
      cases hg
    · exact ⟨_, hquiet hsync hprovision⟩
  | some g =>
    have heq : e.job = .sync site.firewall g := by
      cases hj : e.job with
      | sync f g' =>
        rw [hj, Job.syncOf?] at hsync
        split at hsync
        · rename_i hf
          rw [hf, Option.some.inj hsync]
        · cases hsync
      | _ =>
        rw [hj] at hsync
        cases hsync
    refine ⟨.sync e g .beginning, rfl, fun fs newest hle => ⟨heq, hle g hsync, trivial⟩, hsync.symm,
      rfl, fun _ => ?_, fun g' hg' => ?_, fun _ _ _ _ hnone => ?_, fun _ hw => ?_⟩
    · rename_i hprovision
      rw [heq] at hprovision
      cases hprovision
    · rw [hsync] at hg'
      rw [Option.some.inj hg']
      exact Bool.and_eq_true_iff.mpr ⟨beq_self_eq_true _, rfl⟩
    · cases hnone
    · cases hw

theorem role_eq_idle (h : Cast site o files c roles) {i : Nat} (hi : c.workers i = none) :
    roles i = .idle := by
  have hworker := h.workers i
  rw [hi] at hworker
  cases hr : roles i with
  | idle => rfl
  | _ =>
    rw [hr] at hworker
    cases hworker

/-- **A worker begins a job.** What the job was on the way for, the worker is now. -/
theorem Invariant.start (h : Invariant site o files n c roles) {i : Nat} {e : Entry Job}
    {rest : Scheduler Job} (hfree : c.workers i = none)
    (hpick : c.state.scheduler.pick? = some (e, rest)) :
    ∃ roles, Invariant site o files n
      { c with
        state := { c.state with scheduler := rest }
        workers := Function.update c.workers i (some (works.attempt e)) } roles := by
  have hjobs : c.state.jobs.Perm (e.job :: jobs { c.state with scheduler := rest }) :=
    (Scheduler.pick?_entries hpick).map fun e : Entry Job => e.job
  have hperm : (syncs site c.state).Perm ((e.job.syncOf? site.firewall).toList ++
      syncs site { c.state with scheduler := rest }) := by
    have hperm := hjobs.filterMap (Job.syncOf? site.firewall)
    rw [List.filterMap_cons] at hperm
    cases hsync : e.job.syncOf? site.firewall with
    | none => rwa [hsync] at hperm
    | some g => rwa [hsync] at hperm
  have hless : ∀ g ∈ syncs site { c.state with scheduler := rest }, g ∈ syncs site c.state :=
    fun g hg => hperm.mem_iff.mpr (List.mem_append_right _ hg)
  have hown : ∀ g, e.job.syncOf? site.firewall = some g → g ∈ syncs site c.state ∧
      g ∉ syncs site { c.state with scheduler := rest } := by
    intro g hg
    rw [hg] at hperm
    exact ⟨hperm.mem_iff.mpr List.mem_cons_self,
      (List.nodup_cons.mp (hperm.nodup_iff.mp h.base.distinct)).1⟩
  have hidle := role_eq_idle h.cast hfree
  obtain ⟨r, hr⟩ := exists_begins site o
    (h.base.deployment e.job (hjobs.mem_iff.mpr List.mem_cons_self))
  refine ⟨Function.update roles i r, ?_, ?_, ?_⟩
  · refine ⟨⟨h.base.knows.settings, h.base.knows.server, h.base.knows.store⟩, h.base.bus,
      Scheduler.pick?_isFit h.base.fit hpick, fun job hjob => ?_, h.base.bounded,
      fun g hg => h.base.old g (hless g hg), ?_, h.base.blankFree⟩
    · exact h.base.deployment job (hjobs.mem_iff.mpr (List.mem_cons_of_mem _ hjob))
    · exact (hperm.nodup_iff.mp h.base.distinct).sublist (List.sublist_append_right _ _)
  · refine h.cast.update i r (by rw [hr.process]) rfl hless
      (fun j _ hj => ⟨.refl _, h.cast.held j hj⟩) (hr.sound _ _ fun g hg => ?_)
      (fun g hg => .inr ?_) fun hholds => ?_
    · exact h.base.old g (hown g hg).1
    · rw [hr.generation] at hg
      exact ⟨(hown g hg).2, fun j hj => h.cast.apart j g hj (hown g hg).1⟩
    · rw [hr.holds] at hholds
      cases hholds
  · have hsucceeds : ∀ isTarget newest needsBouncer,
        Succeeds isTarget newest needsBouncer (roles i) r := fun isTarget newest _ => by
      rw [hidle]
      exact ⟨nofun, nofun, fun _ => hr.fresh _ _, nofun, nofun, fun _ _ => hr.writes _⟩
    have hself : Function.update roles i r i = r := Function.update_self i r roles
    refine (h.news.update i r c.workers fun _ _ _ => hsucceeds _ _ _).of_begun rfl
      (fun _ => Iff.rfl) (fun hnotice => hnotice) (fun hjob => ?_) (fun g hg => ?_) rfl
      fun _ _ => rfl
    · rcases List.mem_cons.mp (hjobs.mem_iff.mp hjob) with heq | hjob
      · exact .inr ⟨i, by rw [hself]; exact hr.call heq.symm⟩
      · exact .inl hjob
    · rcases List.mem_append.mp (hperm.mem_iff.mp hg) with hmine | hg
      · exact .inr ⟨i, by rw [hself]; exact hr.due g (Option.mem_toList.mp hmine)⟩
      · exact .inl hg

/-- Only a worker that leaves the application alone can have done its job. -/
theorem exists_quiet_of_done {r : Role} (h : r.process site = some (.done ())) :
    ∃ p, r = .quiet p := by
  cases r with
  | quiet p => exact ⟨p, rfl⟩
  | sync e g phase =>
    have h := Option.some.inj h
    cases phase with
    | beginning => cases (attempt_eq e).symm.trans h
    | checking => cases (Sync.sync_eq site g (ending e)).symm.trans h
    | reading =>
      obtain ⟨next, hreading, _⟩ := Sync.reading_eq site g (ending e)
      cases hreading.symm.trans h
    | uploading files existing token rest => cases rest <;> cases h
    | _ => cases h
  | calling e => cases (attempt_eq e).symm.trans (Option.some.inj h)
  | looking e =>
    obtain ⟨next, hlooking, _⟩ := Provision.provision_eq site (ending e)
    cases hlooking.symm.trans (Option.some.inj h)
  | _ => cases h

theorem Invariant.leave (h : Invariant site o files n c roles) {i : Nat}
    (hi : c.workers i = some (.done ())) :
    ∃ roles, Invariant site o files n
      { c with workers := Function.update c.workers i none } roles := by
  obtain ⟨p, hp⟩ := exists_quiet_of_done ((h.cast.workers i).symm.trans hi)
  refine ⟨Function.update roles i .idle, ?_⟩
  have hsucceeds : ∀ isTarget newest needsBouncer,
      Succeeds isTarget newest needsBouncer (roles i) .idle := fun _ _ _ => by
    rw [hp]
    exact ⟨nofun, nofun, fun _ => trivial, nofun, nofun, fun _ _ => trivial⟩
  have hmove : Invariant site o files n (stepped site c i c.toShared .idle)
      (Function.update roles i .idle) :=
    h.move (.refl _) (fun _ _ => rfl) (fun j _ hj => ⟨.refl _, h.cast.held j hj⟩) trivial nofun
      nofun fun _ _ _ => hsucceeds _ _ _
  exact hmove

/-! ## All steps -/

/-- **Every step keeps the invariant**, as long as the generations of syncs are not used up. -/
theorem invariant_of_step (hfaultless : Faultless o files) (hn : n + 1 < 2 ^ 64) {d : Config ρ}
    (h : Invariant site o files n c roles)
    (hstep : Step o (fun r => r.uuid = site.uuid) c d) :
    ∃ roles, Invariant site o files (n + 1) d roles := by
  cases hstep with
  | request hr => exact ⟨roles, (h.request hr).mono (Nat.le_succ n)⟩
  | announce hevents => exact ⟨roles, (h.announce hevents).mono (Nat.le_succ n)⟩
  | hear _ => exact ⟨roles, h.hear hn⟩
  | pass _ =>
    refine ⟨roles, (h.frame ?_).mono (Nat.le_succ n)⟩
    exact .of_scheduler [] (.refl _) (fun _ he => absurd he List.not_mem_nil)
      fun hfit => ⟨hfit.isOpen, hfit.numbers, hfit.issued⟩
  | arrive hw _ =>
    refine ⟨roles, (h.frame ?_).mono (Nat.le_succ n)⟩
    exact .of_scheduler [] (Scheduler.arrive_entries h.base.fit hw)
      (fun _ he => absurd he List.not_mem_nil) fun hfit => Scheduler.arrive_isFit hfit hw
  | start hfree hpick =>
    obtain ⟨roles, hroles⟩ := h.start hfree hpick
    exact ⟨roles, hroles.mono (Nat.le_succ n)⟩
  | advance hi hadvance =>
    obtain ⟨roles, hroles⟩ := h.advance hfaultless hi hadvance
    exact ⟨roles, hroles.mono (Nat.le_succ n)⟩
  | leave hi =>
    obtain ⟨roles, hroles⟩ := h.leave hi
    exact ⟨roles, hroles.mono (Nat.le_succ n)⟩

/-! ## Whole runs -/

/-- **How it begins**: the application is known and has neither rules nor files, the service listens,
and nothing is under way. -/
structure Beginning (site : Site) (files : ρ → UInt64 → Files) (c : Config ρ) : Prop where
  knows : c.state.KnowsSite site
  noRules : ∀ id rule, c.state.store.rules.get? id = some rule → rule.firewallId ≠ site.firewall
  noFiles : ∀ name, IsScenarioName site.uuid name →
    files c.outside site.server.id (site.dir.file name) = none
  listens : ∃ position, c.state.ruleBus.Follows Simulation.deployer position
  fit : c.state.scheduler.IsFit
  noJobs : c.state.jobs = []
  noSyncs : c.state.generation site.firewall = 0
  workers : ∀ i, c.workers i = none

/-- Without rules no files are called for. -/
theorem Invariant.of_beginning (h : Beginning site files c) :
    Invariant site o files 0 c fun _ => .idle := by
  have hsyncs : syncs site c.state = [] := by
    unfold syncs
    rw [h.noJobs]
    rfl
  refine ⟨⟨h.knows, h.listens, h.fit, ?_, ?_, ?_, ?_, fun name hname hthere => ?_⟩,
    ⟨h.workers, fun _ => trivial, nofun, nofun, nofun, nofun⟩, fun _ _ _ => ?_⟩
  · rw [h.noJobs]
    exact nofun
  · rw [h.noSyncs]
    exact Nat.le_refl 0
  · rw [hsyncs]
    exact nofun
  · rw [hsyncs]
    exact List.nodup_nil
  · exact absurd (h.noFiles name hname) hthere
  · refine .inr (.inr (.inr ⟨fun _ => trivial, .inr (.inr (.inr ⟨fun name hname contents => ?_,
      fun _ => trivial⟩))⟩))
    rw [filesOf, h.noFiles name hname]
    refine ⟨nofun, ?_⟩
    rintro ⟨id, rule, _, _, hget, hf, _⟩
    exact absurd hf (h.noRules id rule hget)

theorem invariant_of_run (hfaultless : Faultless o files) {start : Config ρ}
    (hstart : Beginning site files start)
    (hrun : Run o (fun r => r.uuid = site.uuid) n start c) (hn : n < 2 ^ 64) :
    ∃ roles, Invariant site o files n c roles := by
  let inv (n : Nat) (c : Config ρ) : Prop :=
    n < 2 ^ 64 → ∃ roles, Invariant site o files n c roles
  have hstep (n : Nat) (c d : Config ρ) (ih : inv n c)
      (hs : Step o (fun r => r.uuid = site.uuid) c d) : inv (n + 1) d := fun hn => by
    obtain ⟨roles, h⟩ := ih (Nat.lt_of_succ_lt hn)
    exact invariant_of_step hfaultless hn h hs
  exact Execution.invariant_of_run hstep hrun (fun _ => ⟨_, .of_beginning hstart⟩) hn

theorem not_notice_of_heard (hbase : Base site files n c) (hheard : c.Heard) :
    ¬ Notice site c := by
  obtain ⟨position, hfollows⟩ := hbase.bus
  obtain ⟨hannounced, hmail⟩ := hheard
  have hmail : Simulation.hasNext c.state.ruleBus Simulation.deployer = false := hmail
  rcases Bus.next_cases hfollows with ⟨_, _, _, _, hnext, _⟩ | ⟨_, _, _, _, hnext, _⟩ |
    ⟨hnot, hunread, _⟩
  · rw [Simulation.hasNext, hnext] at hmail
    cases hmail
  · rw [Simulation.hasNext, hnext] at hmail
    cases hmail
  · rintro (hbehind | ⟨e, he | he, _⟩)
    · exact hnot hbehind
    · rw [hannounced] at he
      cases he
    · rw [hunread] at he
      cases he

/-- **The newest rules win.** After any run of fewer steps than there are generations, in which
nothing is left to be heard or done, the scenario files of an application whose firewall is active
are exactly those that are made of its rules. -/
theorem files_converge (hfaultless : Faultless o files) {start : Config ρ}
    (hstart : Beginning site files start)
    (hrun : Run o (fun r => r.uuid = site.uuid) n start c) (hn : n < 2 ^ 64) (hheard : c.Heard)
    (hidle : c.Idle) {firewall : Firewall}
    (hfirewall : c.state.store.firewalls.get? site.firewall = some firewall)
    (hactive : firewall.isActive = true) :
    ∃ context targets, c.state.contextOf site.firewall = .ok context ∧
      context.files c.state.settings.scenarios = .ok targets ∧
      HasExactly site.dir site.uuid (files c.outside site.server.id) (· ∈ targets) := by
  obtain ⟨roles, h⟩ := invariant_of_run hfaultless hstart hrun hn
  have hknows := h.base.knows
  obtain ⟨targets, htargets, _, htarget⟩ := Site.files_eq hknows.store hfirewall
  refine ⟨_, targets, hknows.contextOf hfirewall, by rw [hknows.settings]; exact htargets, ?_⟩
  obtain ⟨hwaiting, hqueued, hworkers⟩ := hidle
  have hroles : ∀ i, roles i = .idle := fun i => role_eq_idle h.cast (hworkers i)
  have hjobs : c.state.jobs = [] := by
    rw [jobs, Scheduler.entries, hwaiting, hqueued]
    rfl
  rcases h.news firewall hfirewall hactive with hnotice | ⟨i, hi⟩ | ⟨_, hjob | ⟨i, hi⟩⟩ |
    ⟨_, hjob | ⟨i, hi⟩ | ⟨i, hi⟩ | ⟨hexactly, _⟩⟩
  · exact absurd hnotice (not_notice_of_heard h.base hheard)
  · rw [hroles i] at hi
    cases hi
  · rw [hjobs] at hjob
    cases hjob
  · rw [hroles i] at hi
    cases hi
  · rw [syncs, hjobs] at hjob
    cases hjob
  · rw [hroles i] at hi
    cases hi
  · rw [hroles i] at hi
    cases hi
  · exact hasExactly_congr htarget hexactly

end

/-! ## A run with a sync that comes too late -/

namespace Demo

/-- The calls to servers that had no files, the last one first. -/
abbrev Log := List (UInt64 × Remote.Call)

/-- The files after some calls. -/
def filesAfter : Log → UInt64 → Files
  | [] => fun _ _ => none
  | (id, c) :: log => Function.update (filesAfter log) id ((filesAfter log id).after c).1

/-- Whether a call brings no file. -/
def isRun : Remote.Call → Bool
  | .run _ => true
  | .upload _ _ => false

/-- Servers that do all calls. They answer single commands for as long as they have no files, and
several commands with something to read. -/
def oracle : Oracle Log := fun server c answer log =>
  match answer, c with
  | .ok output, .run [_] =>
    if output = "" ∧ log.all (isRun ·.2) then some ((server.id, c) :: log) else none
  | .ok output, .run _ =>
    if (Engine.Client.lastLine? output).isSome then some ((server.id, c) :: log) else none
  | .ok _, .upload _ _ => some ((server.id, c) :: log)
  | .error _, _ => none

theorem script_none (lines : List String) :
    (Files.script (fun _ => none) lines).1 = fun _ => none := by
  have hline : ∀ line fs, Files.line? (fun _ => none) line = some fs → fs = fun _ => none := by
    intro line fs h
    unfold Files.line? Files.command? at h
    split at h
    · split at h
      · cases h
      · rw [← Option.some.inj h]
        exact Function.update_eq_self_iff.mpr rfl
      · rw [← Option.some.inj h]
        funext path
        exact ite_self _
      · exact (Option.some.inj h).symm
    · exact (Option.some.inj h).symm
  induction lines with
  | nil => rfl
  | cons line lines ih =>
    rw [Files.script]
    cases hfs : Files.line? (fun _ => none) line with
    | none => rfl
    | some fs =>
      rw [hline line fs hfs]
      exact ih

/-- As long as only commands were run there are no files. -/
theorem filesAfter_eq_none {log : Log} (h : log.all (isRun ·.2) = true) (id : UInt64) :
    filesAfter log id = fun _ => none := by
  induction log with
  | nil => rfl
  | cons entry log ih =>
    obtain ⟨server, c⟩ := entry
    rw [List.all_cons, Bool.and_eq_true] at h
    cases c with
    | upload path contents => cases h.1
    | run lines =>
      by_cases hid : id = server
      · subst hid
        rw [filesAfter, Function.update_self, ih h.2, Files.after]
        exact script_none lines
      · rw [filesAfter, Function.update_of_ne hid]
        exact ih h.2

theorem faultless : Faultless oracle.outside filesAfter where
  effect server c x answer y h := by
    have hy : y = (server.id, c) :: x := by
      simp only [Oracle.outside, oracle] at h
      split at h <;> first | (split at h <;> cases h <;> rfl) | (cases h <;> rfl)
    rw [hy]
    rfl
  success server c x answer y h _ := by
    cases answer with
    | ok output => exact ⟨output, rfl⟩
    | error failure => cases h
  listing server d x output y h := by
    simp only [Oracle.outside, oracle] at h
    split at h
    · rename_i hempty
      refine ⟨[], by rw [hempty.1]; rfl, fun name _ hthere => ?_⟩
      rw [filesAfter_eq_none hempty.2] at hthere
      exact absurd rfl hthere
    · cases h
  credential server engine name key x output y h := by
    simp only [Oracle.outside, oracle, Engine.Client.registerCommands] at h
    split at h
    · rename_i hsome
      exact Option.isSome_iff_exists.mp hsome
    · cases h

/-- The application is known and nothing has happened. -/
def start : Config Log where
  state := Shop.state
  held := []
  outside := []

theorem beginning : Beginning Shop.site filesAfter start where
  knows := Shop.knows
  noRules := nofun
  noFiles _ _ := rfl
  listens := ⟨0, by decide, by decide, by decide⟩
  fit := ⟨rfl, List.nodup_nil, nofun⟩
  noJobs := rfl
  noSyncs := rfl
  workers _ := rfl

/-- A rule that becomes a scenario. -/
def rule : Rule where
  name := "x"
  mode := .inband
  action := .ban
  conditions := [{ field := "host", operator := "equals", value := "v" }]

/-- Several steps of a worker. -/
def go (i steps : Nat) : List Choice :=
  List.replicate steps (.advance i (.ok ""))

/-- A rule is saved and deleted before anything is heard; the firewall is changed while a sync waits
for the lock, so that the sync is superseded; and the next sync is carried out. -/
def choices : List Choice :=
  [.request (.save "abc" rule), .request (.delete "abc" 1), .announce, .announce, .hear, .hear,
    .arrive, .start 0] ++ go 0 3 ++
  [.request (.update "abc" { banDuration := some 60 }), .announce, .hear] ++ go 0 4 ++
  [.leave 0, .arrive, .start 1] ++ go 1 15 ++ [.leave 1, .pass 1000000, .arrive, .start 0] ++
  go 0 5 ++ [.leave 0]

end Demo

/-- In the run of `Demo.choices`, where one sync is superseded and one is carried out. -/
theorem files_converge_superseded :
    ∃ (c : Config Demo.Log) (firewall : Firewall),
      (Run Demo.oracle.outside (fun r => r.uuid = Shop.site.uuid) Demo.choices.length Demo.start c ∧
        c.Heard ∧ c.Idle ∧
        c.state.store.firewalls.get? Shop.site.firewall = some firewall ∧
        firewall.isActive = true ∧ c.state.generation Shop.site.firewall = 2) ∧
      ∃ context targets, c.state.contextOf Shop.site.firewall = .ok context ∧
        context.files c.state.settings.scenarios = .ok targets ∧
        HasExactly Shop.site.dir Shop.site.uuid (Demo.filesAfter c.outside Shop.site.server.id)
          (· ∈ targets) := by
  have hall : (follow Demo.oracle Demo.choices Demo.start).map (fun c =>
      c.isSettled 2 && (c.state.store.firewalls.get? Shop.site.firewall).any (·.isActive) &&
        c.state.generation Shop.site.firewall == 2) = some true := by
    cbv
  obtain ⟨c, hfollow, hend⟩ := Option.map_eq_some_iff.mp hall
  rw [Bool.and_eq_true, Bool.and_eq_true, beq_iff_eq] at hend
  obtain ⟨⟨hsettled, hactive⟩, hgeneration⟩ := hend
  obtain ⟨firewall, hfirewall, hactive⟩ := (Option.any_eq_true _ _).mp hactive
  have hrun : Run Demo.oracle.outside (fun r => r.uuid = Shop.site.uuid) Demo.choices.length
      Demo.start c := run_of_follow (by decide) hfollow
  obtain ⟨hheard, hidle⟩ := settled_of_follow hfollow hsettled (by decide) Demo.beginning.workers
  exact ⟨c, firewall, ⟨hrun, hheard, hidle, hfirewall, hactive, hgeneration⟩,
    files_converge Demo.faultless Demo.beginning hrun (by decide) hheard hidle hfirewall hactive⟩

end Rampart.Convergence
