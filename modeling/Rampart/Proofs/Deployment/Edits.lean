import Rampart.Proofs.Deployment.Round

/-!
# Edits of rules

A rule that is saved or deleted leads to a round of jobs after which the engine holds what the rules
call for, if it did so before.

* `Edited`: a call that succeeds, its event, and the jobs that follow.
* `Settled`: what is true of an application between two edits; `Poised` is what the jobs need.
* `Replans`: what is planned fits the change of the store; `replans_save` and `replans_delete`.
* **`Settled.edited`**: an edit keeps everything settled.
-/

namespace Rampart

open Execution

/-- A rule is saved or deleted. -/
def Execution.Request.IsEdit : Request → Prop
  | .save _ _ | .delete _ _ => True
  | .update _ _ => False

namespace Bans

open Orchestrator

/-- An engine lists the decisions about exactly the address that it is asked about. -/
def exactly (ip value : String) : Bool :=
  value = ip

/-- **A rule of the application is saved or deleted** with success; its event is handled, and all
jobs that follow run to success, side by side and with as many attempts as they take. -/
inductive Edited {ρ : Type} (site : Site) (o : Outside ρ) : Config ρ → Config ρ → Prop
  | mk {c d : Config ρ} {r : Request} {event : RuleEvent} {n : Nat} (hedit : r.IsEdit)
    (hr : r.uuid = site.uuid) (hsuccess : (r.perform c.state).1 = some event)
    (hrun : Run o (fun _ => False) n
      { c with state := ((r.perform c.state).2.handleEvent event).2 } d)
    (hidle : d.Idle) (hlost : d.state.lost = c.state.lost) : Edited site o c d

/-- The rules of a store are under their numbers, and those that ban compile. -/
structure IsOrdered (site : Site) (firewall : Firewall) (s : Store) : Prop where
  current : s.firewalls.get? site.firewall = some firewall
  numbered : ∀ id rule, s.rules.get? id = some rule → rule.id = id
  compiled : ∀ id rule, site.banRule? s id = some rule → ∃ ds,
    decisionsOf site.settings.scenarios.ns site.uuid rule (rule.durationIn firewall) = .ok ds

/-- **An engine holds what the rules in a store call for**, each decision once. -/
structure Agrees (site : Site) (firewall : Firewall) (s : Store) (h : List Engine.Decision) :
    Prop where
  numbers : (h.map (·.id)).Nodup
  owned : ∀ e ∈ h, ownerOf? site.settings.scenarios.ns e.scenario = some site.uuid →
    ∃ id, e.scenario = site.reason id
  once : ∀ id, ∀ e ∈ h, ∀ f ∈ h, e.scenario = site.reason id → f.scenario = site.reason id →
    e.value = f.value → e = f
  bans : ∀ id v, (∃ e ∈ h, e.scenario = site.reason id ∧ e.value = v) ↔
    ∃ d ∈ site.wanted firewall s id, d.ip = v

/-- **What is true of an application between two edits.** -/
structure Settled {ρ : Type} (site : Site) (firewall : Firewall)
    (held : ρ → List Engine.Decision) (c : Config ρ) : Prop where
  knows : c.state.KnowsSite site
  ordered : IsOrdered site firewall c.state.store
  fit : c.state.scheduler.IsFit
  unannounced : c.unannounced = []
  noMail : Simulation.World.hasMail Simulation.deployer c.state = false
  idle : c.Idle
  agrees : Agrees site firewall c.state.store (held c.outside)

/-- **Nothing is under way**, and an engine has the decisions of a reason about some addresses, no
two about one. -/
structure Poised {ρ : Type} (held : ρ → List Engine.Decision) (reason : String)
    (values : List String) (c : Config ρ) : Prop where
  fit : c.state.scheduler.IsFit
  unannounced : c.unannounced = []
  noMail : Simulation.World.hasMail Simulation.deployer c.state = false
  idle : c.Idle
  numbers : ((held c.outside).map (·.id)).Nodup
  once : ∀ e ∈ held c.outside, ∀ f ∈ held c.outside, e.scenario = reason → f.scenario = reason →
    e.value = f.value → e = f
  within : ∀ e ∈ held c.outside, e.scenario = reason → e.value ∈ values

theorem Settled.poised {ρ : Type} {site : Site} {firewall : Firewall}
    {held : ρ → List Engine.Decision} {c : Config ρ} (h : Settled site firewall held c)
    (id : UInt64) :
    Poised held (site.reason id) ((site.wanted firewall c.state.store id).map (·.ip)) c := by
  refine ⟨h.fit, h.unannounced, h.noMail, h.idle, h.agrees.numbers, h.agrees.once id,
    fun e he hreason => ?_⟩
  exact List.mem_map.mpr ((h.agrees.bans id e.value).mp ⟨e, he, hreason, rfl⟩)

/-! ## What is planned -/

/-- **What is planned fits a change of the store.** Only the rule of one number changes; stale
decisions are lifted that were wanted before and are not any more, and if any are wanted they are
applied. -/
structure Replans (site : Site) (firewall : Firewall) (before after : Store) (id : UInt64)
    (stale : List Decision) (applies : Bool) : Prop where
  others : ∀ other, other ≠ id → site.wanted firewall after other = site.wanted firewall before other
  reasons : ∀ d ∈ stale, d.reason = site.reason id
  disjoint : ∀ d ∈ stale, ∀ w ∈ site.wanted firewall after id, w.ip ≠ d.ip
  covered : ∀ d ∈ site.wanted firewall before id,
    (∃ w ∈ site.wanted firewall after id, w.ip = d.ip) ∨ ∃ e ∈ stale, e.ip = d.ip
  applied : applies = false → site.wanted firewall after id = []

variable {site : Site} {firewall : Firewall}

theorem wanted_insert (s : Store) (n : UInt64) (rule : Rule) (other : UInt64)
    (h : other ≠ rule.id) :
    site.wanted firewall { s with nextRule := n, rules := s.rules.insert rule.id rule } other =
      site.wanted firewall s other := by
  unfold Site.wanted Site.banRule?
  rw [Table.get?_insert, if_neg h]

/-- What is wanted of a rule that has just been saved. -/
theorem wanted_self (s : Store) (n : UInt64) {rule : Rule} (h : rule.firewallId = site.firewall) :
    site.wanted firewall { s with nextRule := n, rules := s.rules.insert rule.id rule } rule.id =
      if rule.isBan && rule.enabled then site.bans firewall rule else [] := by
  have hself : (s.rules.insert rule.id rule).get? rule.id = some rule := by
    rw [Table.get?_insert, if_pos rfl]
  unfold Site.wanted Site.banRule?
  rw [hself]
  cases hforce : rule.isBan && rule.enabled <;> simp [Option.filter, h, hforce]

theorem wanted_erase (s : Store) (id other : UInt64) (h : other ≠ id) :
    site.wanted firewall { s with rules := s.rules.erase id } other =
      site.wanted firewall s other := by
  unfold Site.wanted Site.banRule?
  rw [Table.get?_erase, if_neg h]

theorem wanted_erased (s : Store) (id : UInt64) :
    site.wanted firewall { s with rules := s.rules.erase id } id = [] := by
  unfold Site.wanted Site.banRule?
  rw [Table.get?_erase, if_pos rfl]
  rfl

/-- **What is planned for a saved rule**, by the version that it replaces. -/
theorem replans_save {s : Store}
    (hnumbered : ∀ id rule, s.rules.get? id = some rule → rule.id = id) {t : Orchestrator}
    (hknows : t.KnowsSite site) (n : UInt64) {rule : Rule}
    (hf : rule.firewallId = site.firewall) (rules : List Rule) :
    Replans site firewall s { s with nextRule := n, rules := s.rules.insert rule.id rule } rule.id
      (t.staleOf (Context.of site.application firewall rules site.server) rule
        (s.rules.get? rule.id))
      (rule.isBan && rule.enabled) := by
  have hbans : ∀ rule, t.bansOf (Context.of site.application firewall rules site.server) rule =
      site.bans firewall rule := Site.bansOf_eq hknows firewall rules
  have hstale : ∀ d, d ∈ t.staleOf (Context.of site.application firewall rules site.server) rule
      (s.rules.get? rule.id) ↔ ∃ old, liftedFrom? rule (s.rules.get? rule.id) = some old ∧
        d ∈ site.bans firewall old ∧
        ∀ w ∈ site.wanted firewall { s with nextRule := n, rules := s.rules.insert rule.id rule }
          rule.id, w.ip ≠ d.ip := by
    intro d
    rw [mem_staleOf_iff, wanted_self s n hf]
    simp only [hbans]
  have hold : ∀ old, liftedFrom? rule (s.rules.get? rule.id) = some old → old.id = rule.id := by
    intro old hlifted
    cases hprevious : s.rules.get? rule.id with
    | none =>
      rw [hprevious, liftedFrom?] at hlifted
      split at hlifted
      · rw [Option.some.inj hlifted]
      · cases hlifted
    | some previous =>
      rw [hprevious, liftedFrom?] at hlifted
      split at hlifted
      · rw [← Option.some.inj hlifted]
        exact hnumbered _ _ hprevious
      · cases hlifted
  refine ⟨fun other hother => wanted_insert s n rule other hother, fun d hd => ?_,
    fun d hd w hw hip => ?_, fun d hd => ?_, fun hnot => ?_⟩
  · obtain ⟨old, hlifted, hbanned, _⟩ := (hstale d).mp hd
    rw [← hold old hlifted]
    exact Site.reason_of_mem_bans hbanned
  · obtain ⟨_, _, _, hnone⟩ := (hstale d).mp hd
    exact hnone w hw hip
  · -- A decision that was wanted is one of the version that is replaced.
    unfold Site.wanted at hd
    split at hd
    · rename_i old hrule
      obtain ⟨hget, _, hban, _⟩ := Site.banRule?_eq_some_iff.mp hrule
      by_cases hany : ∃ w ∈ site.wanted firewall
          { s with nextRule := n, rules := s.rules.insert rule.id rule } rule.id, w.ip = d.ip
      · exact .inl hany
      · refine .inr ⟨d, (hstale d).mpr ⟨old, ?_, hd, fun w hw hip => hany ⟨w, hw, hip⟩⟩, rfl⟩
        rw [hget, liftedFrom?, if_pos hban]
    · cases hd
  · rw [wanted_self s n hf, hnot]
    rfl

/-- **What is planned for a deleted rule.** -/
theorem replans_delete {s : Store} (hordered : IsOrdered site firewall s) {t : Orchestrator}
    (hknows : t.KnowsSite site) {id : UInt64} {rule : Rule} (hget : s.rules.get? id = some rule)
    (rules : List Rule) :
    Replans site firewall s { s with rules := s.rules.erase id } id
      (if rule.isBan then
        t.bansOf (Context.of site.application firewall rules site.server) rule else [])
      false := by
  rw [Site.bansOf_eq hknows]
  refine ⟨fun other hother => wanted_erase s id other hother, fun d hd => ?_,
    fun d _ w hw => ?_, fun d hd => ?_, fun _ => wanted_erased s id⟩
  · split at hd
    · rw [Site.reason_of_mem_bans hd, hordered.numbered _ _ hget]
    · cases hd
  · rw [wanted_erased] at hw
    cases hw
  · unfold Site.wanted at hd
    split at hd
    · rename_i old hrule
      obtain ⟨hold, _, hban, _⟩ := Site.banRule?_eq_some_iff.mp hrule
      rw [hget] at hold
      obtain rfl := Option.some.inj hold
      exact .inr ⟨d, by rwa [if_pos hban], rfl⟩
    · cases hd

/-! ## The round that follows -/

/-- The jobs of the errands. -/
def errandJob (site : Site) (id : UInt64) (stale : List Decision) : Errand → Job
  | .apply => .applyDecisions site.firewall id
  | .lift => .removeDecisions site.server.id stale

/-- The jobs that are planned. -/
def plannedJobs (site : Site) (id : UInt64) (stale : List Decision) (applies : Bool)
    (syncs : List Job) : List Job :=
  syncs ++ (if applies then [.applyDecisions site.firewall id] else []) ++
    removalJobs site.server.id stale

theorem count_plannedJobs {id : UInt64} {stale : List Decision} {applies : Bool}
    {syncs : List Job} (hsyncs : ∀ job ∈ syncs, job.SparesBans) (a : Errand) :
    (plannedJobs site id stale applies syncs).count (errandJob site id stale a) =
      match a with
      | .apply => if applies then 1 else 0
      | .lift => if stale.isEmpty then 0 else 1 := by
  have hbusy : errandJob site id stale a ∉ syncs := by
    intro hmem
    cases a <;> exact hsyncs _ hmem
  rw [plannedJobs, List.append_assoc, List.count_append, List.count_eq_zero.mpr hbusy,
    Nat.zero_add, removalJobs]
  cases a <;> cases applies <;> cases stale.isEmpty <;> simp [errandJob]

variable {ρ : Type} {o : Outside ρ} {held : ρ → List Engine.Decision}
  {covers : String → String → Bool}

namespace Replans

variable {before after : Store} {id : UInt64} {stale : List Decision} {applies : Bool}

/-- What is to become of the decisions. -/
def aim (h : Replans site firewall before after id stale applies) (now : List Engine.Decision)
    (fresh : Engine.Decision → Prop) : Aim where
  reason := site.reason id
  wanted := (site.wanted firewall after id).map (·.ip)
  stale := stale.map (·.ip)
  before := now
  fresh := fresh
  disjoint := by
    intro v hv hs
    obtain ⟨w, hw, rfl⟩ := List.mem_map.mp hv
    obtain ⟨d, hd, hip⟩ := List.mem_map.mp hs
    exact h.disjoint d hd w hw hip.symm

/-- An engine that lists decisions about exactly one address lists none that is wanted for one that
is stale. -/
theorem apart (h : Replans site firewall before after id stale applies) :
    ∀ d ∈ stale, ∀ w ∈ site.wanted firewall after id, exactly d.ip w.ip = false :=
  fun d hd w hw => decide_eq_false (h.disjoint d hd w hw)

/-- The round that follows, on an engine that lists nothing wanted for a stale address. -/
def round (h : Replans site firewall before after id stale applies)
    (hreliable : Reliable site o held covers) (hself : ∀ v, covers v v = true)
    (hapart : ∀ d ∈ stale, ∀ w ∈ site.wanted firewall after id, covers d.ip w.ip = false)
    (hcurrent : after.firewalls.get? site.firewall = some firewall)
    {fresh : Engine.Decision → Prop}
    (hmakes : ∀ d ∈ site.wanted firewall after id, Makes site o held d fresh) (x : ρ) (lost : Nat) :
    Round site o held where
  store := after
  aim := h.aim (held x) fresh
  job := errandJob site id stale
  job_inj a b heq := by cases a <;> cases b <;> first | rfl | cases heq
  busy a hspares := by cases a <;> exact hspares
  failed a _ := by cases a <;> rfl
  yields a attempt y := by
    cases a with
    | apply => exact applyDecisions_yields hreliable hself hcurrent rfl rfl hmakes y
    | lift =>
      refine removeDecisions_yields hreliable hself (fun v hv w hw => ?_) h.reasons rfl y
      obtain ⟨d, hd, rfl⟩ := List.mem_map.mp hv
      obtain ⟨e, he, rfl⟩ := List.mem_map.mp hw
      exact hapart d hd e he
  lost := lost

/-- **After the round the engine holds what the rules call for**, if it did so before. -/
theorem agrees (h : Replans site firewall before after id stale applies)
    {now later : List Engine.Decision} (hnow : Agrees site firewall before now)
    {fresh : Engine.Decision → Prop} (hsound : (h.aim now fresh).Sound later)
    (hdone : ∀ a, (h.aim now fresh).Achieved a later) :
    Agrees site firewall after later := by
  have hothers : ∀ e other, other ≠ id → e.scenario = site.reason other →
      (e ∈ later ↔ e ∈ now) := by
    intro e other hother hreason
    refine hsound.others e fun heq => hother ?_
    exact banReason_inj (hreason.symm.trans heq)
  refine ⟨hsound.numbers, fun e he howner => ?_, fun other e he f hf hereason hfreason hvalue => ?_,
    fun other v => ?_⟩
  · by_cases hreason : e.scenario = site.reason id
    · exact ⟨id, hreason⟩
    · exact hnow.owned e ((hsound.others e hreason).mp he) howner
  · by_cases hother : other = id
    · subst hother
      exact hsound.once e he f hf hereason hfreason hvalue
    · exact hnow.once other e ((hothers e other hother hereason).mp he) f
        ((hothers f other hother hfreason).mp hf) hereason hfreason hvalue
  · by_cases hother : other = id
    · subst hother
      exact (hsound.has_iff hdone v).trans List.mem_map
    · rw [h.others other hother, ← hnow.bans other v]
      exact exists_congr fun e => and_congr_left fun hhas => hothers e other hother hhas.1

end Replans

/-- What holds when the jobs have been planned. -/
theorem underway_of_plans {c : Config ρ} {s t : Orchestrator} {id : UInt64}
    {stale : List Decision} {applies : Bool} {syncs : List Job}
    (hc : Poised held (site.reason id) ((site.wanted firewall c.state.store id).map (·.ip)) c)
    (h : Replans site firewall c.state.store s.store id stale applies)
    (hreliable : Reliable site o held covers) (hself : ∀ v, covers v v = true)
    (hapart : ∀ d ∈ stale, ∀ w ∈ site.wanted firewall s.store id, covers d.ip w.ip = false)
    (hcurrent : s.store.firewalls.get? site.firewall = some firewall)
    {fresh : Engine.Decision → Prop}
    (hmakes : ∀ d ∈ site.wanted firewall s.store id, Makes site o held d fresh)
    (hknows : s.KnowsSite site)
    (hscheduler : s.scheduler = c.state.scheduler) (hbus : s.ruleBus = c.state.ruleBus)
    (hlost : c.state.lost ≤ s.lost) (hsyncs : ∀ job ∈ syncs, job.SparesBans)
    (hplans : Plans s t (plannedJobs site id stale applies syncs)) :
    Underway (h.round hreliable hself hapart hcurrent hmakes c.outside c.state.lost)
      { c with state := t } fun _ => .free := by
  obtain ⟨hwaiting, hqueued, hfree⟩ := hc.idle
  have hnone : s.jobs = [] := by
    rw [Orchestrator.jobs, hscheduler, Scheduler.entries, hwaiting, hqueued]
    rfl
  have hjobs : t.jobs.Perm (plannedJobs site id stale applies syncs) := by
    have hperm := hplans.jobs
    rwa [hnone, List.append_nil] at hperm
  have hfit : t.scheduler.IsFit := hplans.fit (hscheduler ▸ hc.fit)
  have hknows' : t.KnowsSite site := hknows.of_plans hplans
  obtain ⟨scheduler, table, rfl⟩ := hplans.frame
  refine ⟨hknows', rfl, hfit, hc.unannounced, ?_, hlost, ⟨hc.numbers, fun _ _ => Iff.rfl,
    hc.once, fun v hv => ?_, fun _ he _ _ => he, fun _ he _ => .inl he⟩, hfree, fun _ => trivial,
    fun job hjob => ?_, fun a => ?_⟩
  · rw [← hc.noMail]
    simp only [Simulation.World.hasMail, hbus]
    rfl
  · obtain ⟨e, he, hreason, rfl⟩ := hv
    obtain ⟨d, hd, hvalue⟩ := List.mem_map.mp (hc.within e he hreason)
    rw [← hvalue]
    rcases h.covered d hd with ⟨w, hw, hip⟩ | ⟨e, he, hip⟩
    · exact .inl (List.mem_map.mpr ⟨w, hw, hip⟩)
    · exact .inr (List.mem_map.mpr ⟨e, he, hip⟩)
  · have hjob := hjobs.mem_iff.mp hjob
    unfold plannedJobs at hjob
    rcases List.mem_append.mp hjob with hjob | hjob
    · rcases List.mem_append.mp hjob with hjob | hjob
      · exact .inl (hsyncs job hjob)
      · split at hjob
        · exact .inr ⟨.apply, List.mem_singleton.mp hjob⟩
        · cases hjob
    · unfold removalJobs at hjob
      split at hjob
      · cases hjob
      · exact .inr ⟨.lift, List.mem_singleton.mp hjob⟩
  · have hcount := (hjobs.count_eq (errandJob site id stale a)).trans (count_plannedJobs hsyncs a)
    have hnobody : ∀ _ : Nat, none ≠ some a := fun _ h => by cases h
    cases a with
    | apply =>
      by_cases happlies : applies = true
      · exact .waiting (hcount.trans (if_pos happlies)) hnobody
      · refine .ended (hcount.trans (if_neg happlies)) hnobody (.inr fun v hv => ?_)
        have hv : v ∈ (site.wanted firewall s.store id).map (·.ip) := hv
        rw [h.applied (Bool.eq_false_iff.mpr happlies)] at hv
        cases hv
    | lift =>
      by_cases hempty : stale.isEmpty = true
      · refine .ended (hcount.trans (if_pos hempty)) hnobody (.inr fun v hv => ?_)
        have hv : v ∈ stale.map (·.ip) := hv
        rw [List.isEmpty_iff.mp hempty] at hv
        cases hv
      · exact .waiting (hcount.trans (if_neg hempty)) hnobody

/-- **A round that follows what was planned keeps everything settled**, and leaves the store as it
is. -/
theorem Settled.round {c d : Config ρ} (hc : Settled site firewall held c) {s t : Orchestrator}
    {id : UInt64} {stale : List Decision} {applies : Bool} {syncs : List Job}
    (h : Replans site firewall c.state.store s.store id stale applies)
    (hreliable : Reliable site o held exactly) (hordered : IsOrdered site firewall s.store)
    (hknows : s.KnowsSite site) (hscheduler : s.scheduler = c.state.scheduler)
    (hbus : s.ruleBus = c.state.ruleBus) (hlost : c.state.lost ≤ s.lost)
    (hsyncs : ∀ job ∈ syncs, job.SparesBans)
    (hplans : Plans s t (plannedJobs site id stale applies syncs)) {n : Nat}
    (hrun : Run o (fun _ => False) n { c with state := t } d) (hidle : d.Idle)
    (hnone : d.state.lost = c.state.lost) :
    Settled site firewall held d ∧ d.state.store = s.store := by
  have hmakes : ∀ w ∈ site.wanted firewall s.store id, Makes site o held w fun _ => True :=
    fun _ _ _ _ _ _ _ _ => .inr trivial
  have hself : ∀ v, exactly v v = true := fun v => decide_eq_true rfl
  have hunderway := underway_of_plans (hc.poised id) h hreliable hself h.apart hordered.current
    hmakes hknows hscheduler hbus hlost hsyncs hplans
  obtain ⟨parts, hd⟩ := hunderway.run hreliable hrun
  have hstore : d.state.store = s.store := hd.store
  refine ⟨⟨hd.knows, hstore ▸ hordered, hd.fit, hd.unannounced, hd.noMail, hidle, hstore ▸ ?_⟩,
    hstore⟩
  exact h.agrees hc.agrees hd.sound (hd.achieved hidle hnone)

/-! ## Edits -/

theorem decisionsOf_of_compile {settings : Settings.Scenarios} {uuid : String} {rule : Rule}
    {p : Product} (h : rule.compile settings uuid firewall = .ok p) (hban : rule.isBan = true) :
    ∃ ds, decisionsOf settings.ns uuid rule (rule.durationIn firewall) = .ok ds := by
  unfold Rule.compile at h
  rw [if_pos hban] at h
  obtain ⟨_, _, h⟩ := Except.bind_eq_ok_iff.mp h
  obtain ⟨ds, hds, _⟩ := Except.bind_eq_ok_iff.mp h
  exact ⟨ds, hds⟩

theorem IsOrdered.insert {s : Store} (h : IsOrdered site firewall s) (n : UInt64) {rule : Rule}
    {p : Product} (hcompile : rule.compile site.settings.scenarios site.uuid firewall = .ok p) :
    IsOrdered site firewall
      { s with nextRule := n, rules := s.rules.insert rule.id rule } := by
  refine ⟨h.current, fun id other hget => ?_, fun id other hother => ?_⟩
  · rw [Table.get?_insert] at hget
    split at hget
    · rename_i hid
      rw [← Option.some.inj hget, hid]
    · exact h.numbered id other hget
  · obtain ⟨hget, hf, hban, henabled⟩ := Site.banRule?_eq_some_iff.mp hother
    rw [Table.get?_insert] at hget
    split at hget
    · obtain rfl := Option.some.inj hget
      exact decisionsOf_of_compile hcompile hban
    · exact h.compiled id other (Site.banRule?_eq_some_iff.mpr ⟨hget, hf, hban, henabled⟩)

theorem IsOrdered.erase {s : Store} (h : IsOrdered site firewall s) (id : UInt64) :
    IsOrdered site firewall { s with rules := s.rules.erase id } := by
  refine ⟨h.current, fun other rule hget => ?_, fun other rule hrule => ?_⟩
  · rw [Table.get?_erase] at hget
    split at hget
    · cases hget
    · exact h.numbered other rule hget
  · obtain ⟨hget, hf, hban, henabled⟩ := Site.banRule?_eq_some_iff.mp hrule
    rw [Table.get?_erase] at hget
    split at hget
    · cases hget
    · exact h.compiled other rule (Site.banRule?_eq_some_iff.mpr ⟨hget, hf, hban, henabled⟩)

section

variable {c d : Config ρ} {n : Nat}

theorem not_inactive (hactive : firewall.isActive = true) (rules : List Rule) :
    ¬ (!(Context.of site.application firewall rules site.server).firewall.isActive) = true := by
  have hsame : (Context.of site.application firewall rules site.server).firewall = firewall := rfl
  rw [hsame, hactive]
  exact Bool.false_ne_true

/-- What is planned when a saved rule is heard of. -/
theorem plans_of_saved {s : Orchestrator} (hknows : s.KnowsSite site)
    (hcurrent : s.store.firewalls.get? site.firewall = some firewall)
    (hactive : firewall.isActive = true) {rule : Rule}
    (hself : s.store.rules.get? rule.id = some rule) (hf : rule.firewallId = site.firewall)
    (previous : Option Rule) :
    ∃ syncs : List Job, (∀ job ∈ syncs, job.SparesBans) ∧
      Plans s (s.handleEvent (.saved rule.id site.firewall previous)).2
        (plannedJobs site rule.id
          (s.staleOf (Context.of site.application firewall (s.store.rulesOf site.firewall)
            site.server) rule previous) (rule.isBan && rule.enabled) syncs) := by
  rw [handleEvent_saved (hknows.contextOf hcurrent), if_neg (not_inactive hactive _),
    (Site.rule?_eq_some_iff hknows.store).mpr ⟨hself, hf⟩]
  refine ⟨_, fun job hjob => ?_, planSave_plans s _ site.firewall rule previous⟩
  split at hjob
  · rw [List.mem_singleton.mp hjob]
    trivial
  · cases hjob

/-- A rule has been saved. -/
theorem Settled.saved (hreliable : Reliable site o held exactly)
    (hactive : firewall.isActive = true) (hc : Settled site firewall held c) {rule : Rule}
    {m : UInt64} {p : Product} {s : Orchestrator} (hf : rule.firewallId = site.firewall)
    (hcompile : rule.compile site.settings.scenarios site.uuid firewall = .ok p)
    (hstore : s.store = { c.state.store with
      nextRule := m, rules := c.state.store.rules.insert rule.id rule })
    (hknows : s.KnowsSite site) (hscheduler : s.scheduler = c.state.scheduler)
    (hbus : s.ruleBus = c.state.ruleBus) (hlost : c.state.lost ≤ s.lost)
    (hrun : Run o (fun _ => False) n { c with state := (s.handleEvent
      (.saved rule.id site.firewall (c.state.store.rules.get? rule.id))).2 } d)
    (hidle : d.Idle) (hnone : d.state.lost = c.state.lost) :
    Settled site firewall held d ∧ d.state.store = s.store := by
  have hordered : IsOrdered site firewall s.store := hstore ▸ hc.ordered.insert m hcompile
  have hself : s.store.rules.get? rule.id = some rule := by
    rw [hstore, Table.get?_insert, if_pos rfl]
  have hreplans : Replans site firewall c.state.store _ rule.id _ _ :=
    replans_save hc.ordered.numbered hknows m hf (s.store.rulesOf site.firewall)
  rw [← hstore] at hreplans
  obtain ⟨_, hsyncs, hplans⟩ := plans_of_saved hknows hordered.current hactive hself hf
    (c.state.store.rules.get? rule.id)
  exact hc.round hreplans hreliable hordered hknows hscheduler hbus hlost hsyncs hplans hrun hidle
    hnone

/-- A rule has been deleted. -/
theorem Settled.deleted (hreliable : Reliable site o held exactly)
    (hactive : firewall.isActive = true) (hc : Settled site firewall held c) {id : UInt64}
    {rule : Rule} {s : Orchestrator} (hget : c.state.store.rules.get? id = some rule)
    (hstore : s.store = { c.state.store with rules := c.state.store.rules.erase id })
    (hknows : s.KnowsSite site) (hscheduler : s.scheduler = c.state.scheduler)
    (hbus : s.ruleBus = c.state.ruleBus) (hlost : c.state.lost ≤ s.lost)
    (hrun : Run o (fun _ => False) n
      { c with state := (s.handleEvent (.deleted rule site.firewall)).2 } d)
    (hidle : d.Idle) (hnone : d.state.lost = c.state.lost) :
    Settled site firewall held d ∧ d.state.store = s.store := by
  have hordered : IsOrdered site firewall s.store := hstore ▸ hc.ordered.erase id
  have hreplans := replans_delete hc.ordered hknows hget (s.store.rulesOf site.firewall)
  rw [← hstore] at hreplans
  rw [handleEvent_deleted (hknows.contextOf hordered.current),
    if_neg (not_inactive hactive _)] at hrun
  have hplans : Plans s
      (s.planDelete (Context.of site.application firewall (s.store.rulesOf site.firewall)
        site.server) site.firewall rule).2
      (plannedJobs site id _ false [.sync site.firewall (s.generation site.firewall + 1)]) :=
    planDelete_plans s _ site.firewall rule
  refine hc.round hreplans hreliable hordered hknows hscheduler hbus hlost (fun job hjob => ?_)
    hplans hrun hidle hnone
  rw [List.mem_singleton.mp hjob]
  trivial

/-- Requests lose no jobs. -/
theorem lost_le_perform (r : Request) (s : Orchestrator) : s.lost ≤ (r.perform s).2.lost := by
  cases r with
  | save uuid rule =>
    rcases hsave : s.store.saveRule s.settings.scenarios uuid rule with ⟨result, counter, store⟩
    simp only [Request.perform, hsave]
    cases counter with
    | none => exact Nat.le_refl _
    | some counter => exact s.lost_le_count counter 1
  | delete uuid id =>
    simp only [Request.perform]
    split <;> exact Nat.le_refl _
  | update uuid u =>
    simp only [Request.perform]
    split <;> exact Nat.le_refl _

/-- **A rule is saved or deleted** under an active firewall, and its event is handled. -/
theorem Settled.performed (hreliable : Reliable site o held exactly)
    (hactive : firewall.isActive = true) (hc : Settled site firewall held c) {r : Request}
    (hedit : r.IsEdit) (hr : r.uuid = site.uuid) {event : RuleEvent}
    (hsuccess : (r.perform c.state).1 = some event)
    (hrun : Run o (fun _ => False) n
      { c with state := ((r.perform c.state).2.handleEvent event).2 } d)
    (hidle : d.Idle) (hnone : d.state.lost = c.state.lost) :
    Settled site firewall held d ∧ d.state.store = (r.perform c.state).2.store := by
  obtain ⟨store, counters, hstate, _⟩ := Site.perform_spec hc.knows.settings hc.knows.store hr
  have hlost := lost_le_perform r c.state
  have hknows := hc.knows.perform hr
  have hscheduler : (r.perform c.state).2.scheduler = c.state.scheduler := by rw [hstate]
  have hbus : (r.perform c.state).2.ruleBus = c.state.ruleBus := by rw [hstate]
  cases r with
  | update _ _ => exact hedit.elim
  | save uuid rule =>
    obtain rfl : uuid = site.uuid := hr
    rcases hsave : c.state.store.saveRule c.state.settings.scenarios site.uuid rule with
      ⟨result, counter, after⟩
    have hafter : ((Request.save site.uuid rule).perform c.state).2.store = after := by
      simp only [Request.perform, hsave]
      cases counter <;> rfl
    have hevent : ((Request.save site.uuid rule).perform c.state).1 =
        result.toOption.map (·.event) := by
      simp only [Request.perform, hsave]
    rw [hevent] at hsuccess
    rcases Site.saveRule_cases hc.knows.store hc.ordered.current (hc.knows.settings ▸ hsave) with
      ⟨failure, m, rfl, rfl⟩ | ⟨saved, m, rfl, rfl, hf, p, hcompile⟩
    · cases hsuccess
    · obtain rfl := Option.some.inj hsuccess
      exact hc.saved hreliable hactive hf hcompile hafter hknows hscheduler hbus hlost hrun hidle
        hnone
  | delete uuid id =>
    obtain rfl : uuid = site.uuid := hr
    have hid := hc.knows.store.numbered _ _ hc.ordered.current
    cases hget : (c.state.store.rules.get? id).filter (·.firewallId == site.firewall) with
    | none =>
      simp only [Request.perform, Store.deleteRule,
        Site.firewallFor_eq hc.knows.store hc.ordered.current, bind, Except.bind, hid,
        hget] at hsuccess
      cases hsuccess
    | some rule =>
      have hperform : (Request.delete site.uuid id).perform c.state =
          (some (.deleted rule site.firewall), { c.state with
            store := { c.state.store with rules := c.state.store.rules.erase id } }) := by
        simp only [Request.perform, Store.deleteRule,
          Site.firewallFor_eq hc.knows.store hc.ordered.current, bind, Except.bind, hid, hget,
          pure, Except.pure]
      have hrule := (Option.filter_eq_some_iff.mp hget).1
      rw [hperform] at hsuccess
      obtain rfl := Option.some.inj hsuccess
      exact hc.deleted hreliable hactive hrule (by rw [hperform]) hknows hscheduler hbus hlost hrun
        hidle hnone

/-- **An edit keeps everything settled**, under an active firewall. -/
theorem Settled.edited (hreliable : Reliable site o held exactly)
    (hactive : firewall.isActive = true) (hc : Settled site firewall held c)
    (h : Edited site o c d) : Settled site firewall held d := by
  obtain ⟨hedit, hr, hsuccess, hrun, hidle, hnone⟩ := h
  exact (hc.performed hreliable hactive hedit hr hsuccess hrun hidle hnone).1

end

end Bans

end Rampart
