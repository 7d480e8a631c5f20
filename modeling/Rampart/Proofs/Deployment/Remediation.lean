import Rampart.Proofs.Deployment.BanConvergence

/-!
# Edited bans

What an edit of a rule that bans leaves on the engine. Decisions are told apart by what they are
about and by their reason, so one that is there already is not made again; its type and its duration
are then those of the version that it was made for.

* `IsOf`, `Carries`: an engine has the decisions that were asked for, with type and duration.
* `Records`: an engine writes down the type and the duration that it is told.
* `Enforced`, `Replaced`: a rule whose decisions are on the engine, and an edit of it.
* **`edit_makes_only_missing`**: the engine has the targets of the new version, those that it had
  before unchanged. It has the new version's types and durations exactly if no decision that it kept
  has another type or duration.
* `edit_leaves_ban`: a ban that is turned into a captcha stays a ban.
-/

namespace Rampart

theorem Action.name_inj {a b : Action} (h : a.name = b.name) : a = b := by
  cases a <;> cases b <;> first | rfl | exact absurd h (by decide)

theorem Decision.literal_inj {d e : Decision} (h : d.literal = e.literal) :
    d.duration = e.duration := by
  have hlists := congrArg String.toList h
  simp only [Decision.literal, String.toList_append] at hlists
  exact Text.toString_inj (String.toList_inj.mp (List.append_cancel_right hlists))

namespace Bans

open Execution Orchestrator

/-! ## What is on an engine -/

/-- A decision on an engine is one that was asked for. -/
def IsOf (e : Engine.Decision) (d : Decision) : Prop :=
  e.value = d.ip ∧ e.scenario = d.reason ∧ e.kind = d.kind.name ∧ e.duration = d.literal

/-- The decisions of a reason on an engine are those that were asked for, each once. -/
structure Carries (h : List Engine.Decision) (reason : String) (ds : List Decision) : Prop where
  all : ∀ d ∈ ds, ∃ e ∈ h, IsOf e d
  only : ∀ e ∈ h, e.scenario = reason → ∃ d ∈ ds, IsOf e d
  once : ∀ e ∈ h, ∀ f ∈ h, e.scenario = reason → f.scenario = reason → e.value = f.value → e = f

variable {ρ : Type}

/-- An engine that writes down the type and the duration that it is told. -/
def Records (site : Site) (o : Outside ρ) (held : ρ → List Engine.Decision) : Prop :=
  ∀ d : Decision, Makes site o held d fun e => e.kind = d.kind.name ∧ e.duration = d.literal

variable {site : Site} {firewall : Firewall} {o : Outside ρ} {held : ρ → List Engine.Decision}
  {covers : String → String → Bool}

/-- What is made is what was asked for. -/
theorem Records.makes (hrecords : Records site o held) (hreliable : Reliable site o held covers)
    (d : Decision) : Makes site o held d fun e => IsOf e d := by
  intro x answer y ha e he
  rcases hrecords d x answer y ha e he with hbefore | ⟨hkind, hduration⟩
  · exact .inl hbefore
  rcases hreliable.add d x answer y ha with ⟨made, hvalue, hscenario, _, hperm⟩ | ⟨_, hsame⟩
  · rcases List.mem_cons.mp (hperm.mem_iff.mp he) with rfl | hbefore
    · exact .inr ⟨hvalue, hscenario, hkind, hduration⟩
    · exact .inl hbefore
  · exact .inl (hsame ▸ he)

/-! ## An edit -/

/-- **A rule in force whose decisions are on the engine**, under an active firewall, while nothing
is under way. -/
structure Enforced (site : Site) (firewall : Firewall) (held : ρ → List Engine.Decision)
    (rule : Rule) (ds : List Decision) (c : Config ρ) : Prop where
  knows : c.state.KnowsSite site
  current : c.state.store.firewalls.get? site.firewall = some firewall
  active : firewall.isActive = true
  numbered : ∀ id other, c.state.store.rules.get? id = some other → other.id = id
  inForce : site.banRule? c.state.store rule.id = some rule
  compiled :
    decisionsOf site.settings.scenarios.ns site.uuid rule (rule.durationIn firewall) = .ok ds
  fit : c.state.scheduler.IsFit
  unannounced : c.unannounced = []
  noMail : Simulation.World.hasMail Simulation.deployer c.state = false
  idle : c.Idle
  numbers : ((held c.outside).map (·.id)).Nodup
  carries : Carries (held c.outside) (site.reason rule.id) ds

/-- **A new version of a rule is saved** with success; its event is handled, and all jobs that
follow run to success, side by side and with as many attempts as they take. -/
inductive Replaced (site : Site) (o : Outside ρ) (new : Rule) : Config ρ → Config ρ → Prop
  | mk {c d : Config ρ} {rule : Rule} {event : RuleEvent} {n : Nat}
    (hsave : (c.state.store.saveRule c.state.settings.scenarios site.uuid rule).1 =
      .ok ⟨new, event⟩)
    (hrun : Run o (fun _ => False) n
      { c with state := (((Request.save site.uuid rule).perform c.state).2.handleEvent event).2 } d)
    (hidle : d.Idle) (hlost : d.state.lost = c.state.lost) : Replaced site o new c d

theorem wanted_eq {s : Store} {rule : Rule} {ds : List Decision}
    (hrule : site.banRule? s rule.id = some rule)
    (hds : decisionsOf site.settings.scenarios.ns site.uuid rule (rule.durationIn firewall) =
      .ok ds) : site.wanted firewall s rule.id = ds := by
  simp only [Site.wanted, hrule, Site.bans, hds]

theorem Enforced.poised {rule : Rule} {ds : List Decision} {c : Config ρ}
    (h : Enforced site firewall held rule ds c) :
    Poised held (site.reason rule.id)
      ((site.wanted firewall c.state.store rule.id).map (·.ip)) c := by
  refine ⟨h.fit, h.unannounced, h.noMail, h.idle, h.numbers, h.carries.once, fun e he hreason => ?_⟩
  obtain ⟨d, hd, hvalue, _⟩ := h.carries.only e he hreason
  rw [wanted_eq h.inForce h.compiled, hvalue]
  exact List.mem_map_of_mem hd

/-- What is lifted are decisions of the old version that the new one does not ask for. -/
theorem Enforced.of_mem_staleOf {old new : Rule} {olds : List Decision} {c : Config ρ}
    (h : Enforced site firewall held old olds c) (hid : new.id = old.id) (hban : new.isBan = true)
    (henabled : new.enabled = true) {s : Orchestrator} (hknows : s.KnowsSite site)
    {rules : List Rule} {a : Decision}
    (ha : a ∈ s.staleOf (Context.of site.application firewall rules site.server) new
      (c.state.store.rules.get? new.id)) :
    a ∈ olds ∧ a.ip ∉ (site.bans firewall new).map (·.ip) := by
  obtain ⟨hget, _, hold, _⟩ := Site.banRule?_eq_some_iff.mp h.inForce
  obtain ⟨lifted, hlifted, hbanned, hnone⟩ := mem_staleOf_iff.mp ha
  rw [hid, hget, liftedFrom?, if_pos hold] at hlifted
  obtain rfl := Option.some.inj hlifted
  rw [Site.bansOf_eq hknows] at hbanned
  rw [hban, henabled, Bool.and_self, if_pos rfl, Site.bansOf_eq hknows] at hnone
  refine ⟨?_, fun hmem => ?_⟩
  · rw [Site.bans, h.compiled] at hbanned
    exact hbanned
  · obtain ⟨w, hw, hip⟩ := List.mem_map.mp hmem
    exact hnone w hw hip

/-- **The round that follows an edit**: what is wanted is held; what was wanted before and still is
has stayed, and all the rest has been made for the new version. -/
theorem Replaced.achieved (hreliable : Reliable site o held covers)
    (hself : ∀ v, covers v v = true) (hrecords : Records site o held) {c d : Config ρ}
    {old new : Rule} {olds : List Decision} (hbefore : Enforced site firewall held old olds c)
    (hedit : Replaced site o new c d) (hid : new.id = old.id) (hban : new.isBan = true)
    (henabled : new.enabled = true)
    (hapart : ∀ a ∈ olds, a.ip ∉ (site.bans firewall new).map (·.ip) →
      ∀ w ∈ site.bans firewall new, covers a.ip w.ip = false) :
    ∃ news, decisionsOf site.settings.scenarios.ns site.uuid new (new.durationIn firewall) =
        .ok news ∧
      ∃ aim : Aim, aim.reason = site.reason old.id ∧ aim.wanted = news.map (·.ip) ∧
        aim.before = held c.outside ∧ (∀ e, aim.fresh e → ∃ w ∈ news, IsOf e w) ∧
        aim.Sound (held d.outside) ∧ ∀ a, aim.Achieved a (held d.outside) := by
  obtain ⟨hsave, hrun, hidle, hnone⟩ := hedit
  rename_i rule event n
  rcases hresult : c.state.store.saveRule c.state.settings.scenarios site.uuid rule with
    ⟨result, counter, store⟩
  rw [hresult] at hsave
  obtain rfl : result = .ok ⟨new, event⟩ := hsave
  obtain ⟨after, counters, hstate, _⟩ :=
    Site.perform_spec hbefore.knows.settings hbefore.knows.store (r := .save site.uuid rule) rfl
  have hknows := hbefore.knows.perform (r := .save site.uuid rule) rfl
  have hlost := lost_le_perform (.save site.uuid rule) c.state
  have hstore : ((Request.save site.uuid rule).perform c.state).2.store = store := by
    simp only [Request.perform, hresult]
    cases counter <;> rfl
  generalize ((Request.save site.uuid rule).perform c.state).2 = s at *
  rcases Site.saveRule_cases hbefore.knows.store hbefore.current
    (hbefore.knows.settings ▸ hresult) with ⟨_, _, herror, _⟩ | ⟨saved, m, hsaved, rfl, hf, p, hp⟩
  · cases herror
  obtain ⟨rfl, rfl⟩ := Store.Saved.mk.inj (Except.ok.inj hsaved)
  obtain ⟨news, hnews⟩ := decisionsOf_of_compile hp hban
  have hfound : s.store.rules.get? new.id = some new := by
    rw [hstore, Table.get?_insert, if_pos rfl]
  have hwanted : site.wanted firewall s.store new.id = news :=
    wanted_eq (Site.banRule?_eq_some_iff.mpr ⟨hfound, hf, hban, henabled⟩) hnews
  have hcurrent : s.store.firewalls.get? site.firewall = some firewall := by
    rw [hstore]
    exact hbefore.current
  have hreplans : Replans site firewall c.state.store _ new.id _ _ :=
    replans_save hbefore.numbered hknows m hf (s.store.rulesOf site.firewall)
  rw [← hstore] at hreplans
  obtain ⟨_, hsyncs, hplans⟩ := plans_of_saved hknows hcurrent hbefore.active hfound hf
    (c.state.store.rules.get? new.id)
  have hmakes : ∀ w ∈ site.wanted firewall s.store new.id,
      Makes site o held w fun e => ∃ w ∈ news, IsOf e w := by
    intro w hw x answer y ha e he
    exact (hrecords.makes hreliable w x answer y ha e he).imp_right
      fun his => ⟨w, hwanted ▸ hw, his⟩
  have hbans : site.bans firewall new = news := by
    simp only [Site.bans, hnews]
  have hunderway := underway_of_plans (hid ▸ hbefore.poised) hreplans hreliable hself
    (fun a ha w hw => by
      obtain ⟨hold, hnot⟩ := hbefore.of_mem_staleOf hid hban henabled hknows ha
      exact hapart a hold hnot w (hbans ▸ hwanted ▸ hw))
    hcurrent hmakes hknows (by rw [hstate]) (by rw [hstate]) hlost hsyncs hplans
  obtain ⟨parts, hd⟩ := hunderway.run hreliable hrun
  exact ⟨news, hnews, _, congrArg site.reason hid, congrArg _ hwanted, rfl, fun _ h => h, hd.sound,
    hd.achieved hidle hnone⟩

/-! ## What has become of the decisions -/

theorem IsOf.of_same {e : Engine.Decision} {d d' : Decision} (h : IsOf e d) (hip : d.ip = d'.ip)
    (hkind : d.kind = d'.kind) (hduration : d.duration = d'.duration)
    (hreason : d.reason = d'.reason) : IsOf e d' := by
  obtain ⟨hvalue, hscenario, htype, hliteral⟩ := h
  refine ⟨hvalue.trans hip, hscenario.trans hreason, hkind ▸ htype, hliteral.trans ?_⟩
  rw [Decision.literal, Decision.literal, hduration]

/-- A decision is there already, as one of the old version, or its target is new. -/
def KeptOrMade (h : List Engine.Decision) (olds news : List Decision) (e : Engine.Decision) :
    Prop :=
  (e ∈ h ∧ ∃ d ∈ olds, IsOf e d) ∨ ((∀ d ∈ olds, d.ip ≠ e.value) ∧ ∃ w ∈ news, IsOf e w)

theorem keptOrMade_of_sound {aim : Aim} {h : List Engine.Decision} {olds news : List Decision}
    (hcarries : Carries aim.before aim.reason olds) (hreasons : ∀ d ∈ olds, d.reason = aim.reason)
    (hfresh : ∀ e, aim.fresh e → ∃ w ∈ news, IsOf e w) (hs : aim.Sound h) {e : Engine.Decision}
    (he : e ∈ h) (hreason : e.scenario = aim.reason) (hwanted : e.value ∈ aim.wanted) :
    KeptOrMade aim.before olds news e := by
  by_cases hany : ∃ d ∈ olds, d.ip = e.value
  · obtain ⟨d, hd, hip⟩ := hany
    obtain ⟨f, hf, his⟩ := hcarries.all d hd
    have hvalue : f.value = e.value := his.1.trans hip
    have hfreason : f.scenario = aim.reason := his.2.1.trans (hreasons d hd)
    -- The old decision has stayed, and there is no other one about the target.
    have hstays : f ∈ h := hs.kept f hf hfreason (hvalue ▸ hwanted)
    obtain rfl := hs.once f hstays e he hfreason hreason hvalue
    exact .inl ⟨hf, d, hd, his⟩
  · rcases hs.made e he hreason with hold | hnew
    · obtain ⟨d, hd, his⟩ := hcarries.only e hold hreason
      exact absurd ⟨d, hd, his.1.symm⟩ hany
    · exact .inr ⟨fun d hd hip => hany ⟨d, hd, hip⟩, hfresh e hnew⟩

/-- Decisions that differ in what they are about, and in nothing else. -/
def IsUniform (reason : String) (ds : List Decision) : Prop :=
  ∃ kind duration, ∀ d ∈ ds, d.kind = kind ∧ d.duration = duration ∧ d.reason = reason

theorem isUniform_of_decisionsOf {ns uuid : String} {rule : Rule} {duration : UInt64}
    {ds : List Decision} (h : decisionsOf ns uuid rule duration = .ok ds) :
    IsUniform (banReason ns uuid rule.id) ds := by
  refine ⟨rule.action, duration, fun d hd => ?_⟩
  rw [eq_of_mem_decisionsOf h hd]
  exact ⟨rfl, rfl, rfl⟩

/-- What is kept or made is what the new version asks for exactly if nothing that was kept has
another type or duration. -/
theorem carries_iff {h h' : List Engine.Decision} {reason : String} {olds news : List Decision}
    (holds : IsUniform reason olds) (hnews : IsUniform reason news)
    (hhas : ∀ v, (∃ e ∈ h', e.scenario = reason ∧ e.value = v) ↔ v ∈ news.map (·.ip))
    (honce : ∀ e ∈ h', ∀ f ∈ h', e.scenario = reason → f.scenario = reason → e.value = f.value →
      e = f)
    (hcases : ∀ e ∈ h', e.scenario = reason → KeptOrMade h olds news e) :
    Carries h' reason news ↔ ∀ w ∈ news, ∀ d ∈ olds, d.ip = w.ip →
      d.kind = w.kind ∧ d.duration = w.duration := by
  obtain ⟨kind, duration, holds⟩ := holds
  obtain ⟨kind', duration', hnews⟩ := hnews
  constructor
  · intro hcarries w hw d hd hip
    obtain ⟨hdkind, hdduration, _⟩ := holds d hd
    obtain ⟨hwkind, hwduration, _⟩ := hnews w hw
    obtain ⟨e, he, hreason, hvalue⟩ := (hhas w.ip).mpr (List.mem_map_of_mem hw)
    rcases hcases e he hreason with ⟨_, d', hd', his⟩ | ⟨hnone, _⟩
    · obtain ⟨w', hw', his'⟩ := hcarries.only e he hreason
      obtain ⟨hdkind', hdduration', _⟩ := holds d' hd'
      obtain ⟨hwkind', hwduration', _⟩ := hnews w' hw'
      have htype := Action.name_inj (his.2.2.1.symm.trans his'.2.2.1)
      have hliteral := Decision.literal_inj (his.2.2.2.symm.trans his'.2.2.2)
      rw [hdkind, hdduration, hwkind, hwduration, ← hdkind', ← hdduration', ← hwkind',
        ← hwduration']
      exact ⟨htype, hliteral⟩
    · exact absurd (hip.trans hvalue.symm) (hnone d hd)
  · intro hsame
    have his : ∀ e ∈ h', e.scenario = reason → ∀ w ∈ news, w.ip = e.value → IsOf e w := by
      intro e he hreason w hw hip
      obtain ⟨hwkind, hwduration, hwreason⟩ := hnews w hw
      rcases hcases e he hreason with ⟨_, d, hd, his⟩ | ⟨_, w', hw', his⟩
      · have hdip : d.ip = w.ip := his.1.symm.trans hip.symm
        obtain ⟨hkind, hduration⟩ := hsame w hw d hd hdip
        exact his.of_same hdip hkind hduration ((holds d hd).2.2.trans hwreason.symm)
      · obtain ⟨hkind, hduration, hreason'⟩ := hnews w' hw'
        exact his.of_same (his.1.symm.trans hip.symm) (hkind.trans hwkind.symm)
          (hduration.trans hwduration.symm) (hreason'.trans hwreason.symm)
    refine ⟨fun w hw => ?_, fun e he hreason => ?_, honce⟩
    · obtain ⟨e, he, hreason, hvalue⟩ := (hhas w.ip).mpr (List.mem_map_of_mem hw)
      exact ⟨e, he, his e he hreason w hw hvalue.symm⟩
    · obtain ⟨w, hw, hip⟩ := List.mem_map.mp ((hhas e.value).mp ⟨e, he, hreason, rfl⟩)
      exact ⟨w, hw, his e he hreason w hw hip⟩

/-- **An edit makes what is missing, and changes nothing else that is wanted.** After a new version
that bans has been saved, its event has been handled and all jobs have succeeded, the engine has
exactly the targets of the new version for the rule, each once. What it had for the old version is
still the same decision, with the old type and duration; only the other targets have the type and
the duration of the new version. So it has what the new version asks for exactly if no target that
was kept has another type or duration. No target of the new version may be listed for one that is
dropped. -/
theorem edit_makes_only_missing (hreliable : Reliable site o held covers)
    (hself : ∀ v, covers v v = true) (hrecords : Records site o held) {c d : Config ρ}
    {old new : Rule} {olds : List Decision} (hbefore : Enforced site firewall held old olds c)
    (hedit : Replaced site o new c d) (hid : new.id = old.id) (hban : new.isBan = true)
    (henabled : new.enabled = true)
    (hapart : ∀ a ∈ olds, a.ip ∉ (site.bans firewall new).map (·.ip) →
      ∀ w ∈ site.bans firewall new, covers a.ip w.ip = false) :
    ∃ news, decisionsOf site.settings.scenarios.ns site.uuid new (new.durationIn firewall) =
        .ok news ∧
      (∀ v, (∃ e ∈ held d.outside, e.scenario = site.reason old.id ∧ e.value = v) ↔
        v ∈ news.map (·.ip)) ∧
      (∀ e ∈ held d.outside, ∀ f ∈ held d.outside, e.scenario = site.reason old.id →
        f.scenario = site.reason old.id → e.value = f.value → e = f) ∧
      (∀ e ∈ held d.outside, e.scenario = site.reason old.id →
        KeptOrMade (held c.outside) olds news e) ∧
      (Carries (held d.outside) (site.reason old.id) news ↔
        ∀ w ∈ news, ∀ a ∈ olds, a.ip = w.ip → a.kind = w.kind ∧ a.duration = w.duration) := by
  obtain ⟨news, hnews, aim, hreason, hwanted, hheld, hfresh, hsound, hdone⟩ :=
    hedit.achieved hreliable hself hrecords hbefore hid hban henabled hapart
  have holds := isUniform_of_decisionsOf hbefore.compiled
  have hnews' := isUniform_of_decisionsOf hnews
  rw [hid] at hnews'
  have hhas : ∀ v, (∃ e ∈ held d.outside, e.scenario = site.reason old.id ∧ e.value = v) ↔
      v ∈ news.map (·.ip) := by
    intro v
    rw [← hreason, ← hwanted]
    exact hsound.has_iff hdone v
  have hcases : ∀ e ∈ held d.outside, e.scenario = site.reason old.id →
      KeptOrMade (held c.outside) olds news e := by
    intro e he hscenario
    rw [← hheld]
    refine keptOrMade_of_sound ?_ ?_ hfresh hsound he (hscenario.trans hreason.symm) ?_
    · rw [hheld, hreason]
      exact hbefore.carries
    · rw [hreason]
      exact fun d hd => (reason_of_decisionsOf hbefore.compiled d hd)
    · rw [hwanted]
      exact (hhas e.value).mp ⟨e, he, hscenario, rfl⟩
  have honce := hsound.once
  rw [hreason] at honce
  exact ⟨news, hnews, hhas, honce, hcases, carries_iff holds hnews' hhas honce hcases⟩

/-! ## A run

A ban of an address becomes a captcha for that address and another one. -/

namespace Demo

/-- The duration and the type of a decision that is to be made. -/
def addition? : List String → Option (String × String)
  | ["decisions", "add", _, _, _, duration, _, kind, _, _] => some (duration, kind)
  | _ => none

/-- The duration and the type that an engine is told to give a decision. -/
def told? : Remote.Call → Option (String × String)
  | .run [line] => (arguments? line).bind addition?
  | _ => none

/-- The newest decision gets the duration and the type that the engine was told. -/
def noted (c : Remote.Call) (h : List Engine.Decision) : List Engine.Decision :=
  match told? c, h with
  | some (duration, kind), e :: h => { e with kind, duration } :: h
  | _, h => h

/-- An engine that does what it is told, and writes down what it was told. -/
def recorder : Oracle (List Engine.Decision) := fun server c answer h =>
  (oracle server c answer h).map (noted c)

theorem noted_of_none {c : Remote.Call} (h : told? c = none) (x : List Engine.Decision) :
    noted c x = x := by
  unfold noted
  rw [h]

theorem noted_of_some {c : Remote.Call} {duration kind : String}
    (h : told? c = some (duration, kind)) (e : Engine.Decision) (x : List Engine.Decision) :
    noted c (e :: x) = { e with kind, duration } :: x := by
  unfold noted
  rw [h]

theorem told?_command (arguments : List String) :
    told? (.run [Shop.site.engine.command arguments]) = addition? arguments := by
  rw [told?, arguments?_command]
  rfl

/-- Nothing is told by a command that makes no decision. -/
theorem told?_of_spares {c : Remote.Call} (h : SparesBans Shop.site.engine c) : told? c = none := by
  refine Option.eq_none_iff_forall_ne_some.mpr fun told htold => ?_
  unfold told? at htold
  split at htold
  · obtain ⟨arguments, harguments, hadds⟩ := Option.bind_eq_some_iff.mp htold
    rw [line_of_arguments? harguments] at h
    unfold addition? at hadds
    split at hadds
    · exact h _ rfl
    · cases hadds
  · cases htold

/-- What the engine answers is what the one answers that writes nothing down. -/
theorem recorder_answers {c : Remote.Call} {server : Server} {x y : List Engine.Decision}
    {answer : Except Failure String} (h : recorder.outside.answers server c x answer y) :
    ∃ z, oracle.outside.answers server c x answer z ∧ noted c z = y :=
  Option.map_eq_some_iff.mp h

theorem recorder_adds {d : Decision} {server : Server} {x y : List Engine.Decision}
    {answer : Except Failure String}
    (h : recorder.outside.answers server (.run [Shop.site.engine.addCommand d]) x answer y) :
    ∃ e, IsOf e d ∧ e.id ∉ x.map (·.id) ∧ y = e :: x := by
  obtain ⟨z, hz, rfl⟩ := recorder_answers h
  have hafter := oracle_command hz
  simp only [after?] at hafter
  split at hafter
  · cases hafter
  · rename_i hid
    obtain rfl := Option.some.inj hafter
    have htold : told? (.run [Shop.site.engine.addCommand d]) = some (d.literal, d.kind.name) :=
      told?_command _
    rw [noted_of_some htold]
    exact ⟨_, ⟨rfl, rfl, rfl, rfl⟩, hid, rfl⟩

theorem recorder_reliable : Reliable Shop.site recorder.outside (fun h => h) exactly where
  add d x answer y h := by
    obtain ⟨e, ⟨hvalue, hscenario, _⟩, hid, rfl⟩ := recorder_adds h
    exact .inl ⟨e, hvalue, hscenario, hid, .refl _⟩
  remove id x answer y h := by
    obtain ⟨z, hz, rfl⟩ := recorder_answers h
    rw [noted_of_none (told?_command _)]
    exact reliable.remove id x answer z hz
  list ip x answer y h := by
    obtain ⟨z, hz, rfl⟩ := recorder_answers h
    rw [noted_of_none (told?_command _)]
    exact reliable.list ip x answer z hz
  others server c x answer y hspares h := by
    obtain ⟨z, hz, rfl⟩ := recorder_answers h
    rw [noted_of_none (told?_of_spares hspares)]
    exact reliable.others server c x answer z hspares hz

theorem recorder_records : Records Shop.site recorder.outside fun h => h := by
  intro d x answer y h e he
  obtain ⟨made, ⟨_, _, hkind, hduration⟩, _, rfl⟩ := recorder_adds h
  rcases List.mem_cons.mp he with rfl | he
  · exact .inr ⟨hkind, hduration⟩
  · exact .inl he

/-- The rule of an address, when it has been saved. -/
def banned : Rule :=
  { rule with id := 1, firewallId := 1 }

/-- Its decision on the engine. -/
def oldBan : Engine.Decision where
  id := 1
  kind := "ban"
  scope := "Ip"
  value := "10.0.0.1"
  duration := "14400s"
  scenario := "bastion/abc/rule-1"

/-- The rule is in force. -/
def enforcing : Config (List Engine.Decision) where
  state := { Shop.state with
    store := { Shop.state.store with
      nextRule := 2
      rules := Shop.state.store.rules.insert 1 banned } }
  held := []
  outside := [oldBan]

/-- The decision that the rule calls for. -/
def asked : Decision :=
  ⟨"10.0.0.1", .ip, .ban, 14400, "bastion/abc/rule-1"⟩

theorem enforced : Enforced Shop.site Shop.firewall (fun h => h) banned [asked] enforcing where
  knows := ⟨rfl, rfl, @Site.Knows.insertRule _ _ (Shop.knows.store.withNextRule 2) banned nofun⟩
  current := rfl
  active := by decide
  numbered id other hget := by
    rw [show enforcing.state.store.rules.get? id = _ from Table.get?_insert ..] at hget
    split at hget
    · rename_i hid
      rw [← Option.some.inj hget, hid]
      rfl
    · cases hget
  inForce := rfl
  compiled := by decide +kernel
  fit := ⟨rfl, List.nodup_nil, nofun⟩
  unannounced := rfl
  noMail := by decide
  idle := ⟨rfl, rfl, fun _ => rfl⟩
  numbers := by decide
  carries := by
    refine ⟨fun d hd => ?_, fun e he _ => ?_, fun e he f hf _ _ _ => ?_⟩
    · rw [List.mem_singleton.mp hd]
      exact ⟨oldBan, List.mem_singleton_self _, rfl, rfl, rfl, by decide⟩
    · rw [List.mem_singleton.mp he]
      exact ⟨asked, List.mem_singleton_self _, rfl, rfl, rfl, by decide⟩
    · exact (List.mem_singleton.mp he).trans (List.mem_singleton.mp hf).symm

/-- Its new version asks for a captcha, from another address as well. -/
def edited : Rule := { banned with
  action := .captcha
  conditions := [{ field := "ip_address", operator := "equals", value := "10.0.0.1, 10.0.0.2" }] }

/-- What is planned when it has been saved. -/
def replanned : Config (List Engine.Decision) :=
  { enforcing with state := (((Request.save "abc" edited).perform enforcing.state).2.handleEvent
      (.saved 1 1 (some banned))).2 }

/-- How the engine lists the decision. -/
def oldListing : String :=
  "[\x7b\"decisions\":[\x7b\"id\":1,\"type\":\"ban\",\"scope\":\"Ip\"," ++
    "\"value\":\"10.0.0.1\",\"duration\":\"14400s\",\"scenario\":\"bastion/abc/rule-1\"\x7d]\x7d]"

/-- The engine lists the ban and nothing for the other address, gets a captcha for that, and then
the proxy is told. -/
def replacing : List Choice :=
  [.pass 100, .arrive, .start 0] ++ go 2 ++ [.advance 0 (.ok oldListing)] ++ go 5 ++
    [.leave 0, .pass 200, .arrive, .start 0] ++ go 5 ++ [.leave 0]

theorem replaced : ∃ d : Config (List Engine.Decision),
    Replaced Shop.site recorder.outside edited enforcing d ∧
      d.outside = [{ oldBan with id := 2, kind := "captcha", value := "10.0.0.2" }, oldBan] := by
  have hall : (follow recorder replacing replanned).map (fun c =>
      c.isSettled 1 && c.state.lost == 0 &&
        c.outside == [{ oldBan with id := 2, kind := "captcha", value := "10.0.0.2" }, oldBan]) =
      some true := by
    decide +kernel
  obtain ⟨d, hfollow, hend⟩ := Option.map_eq_some_iff.mp hall
  rw [Bool.and_eq_true, Bool.and_eq_true, beq_iff_eq, beq_iff_eq] at hend
  obtain ⟨⟨hsettled, hlost⟩, hheld⟩ := hend
  have hrun : Run recorder.outside (fun _ => False) replacing.length replanned d :=
    run_of_follow (by decide) hfollow
  obtain ⟨_, hidle⟩ := settled_of_follow hfollow hsettled (by decide) fun _ => rfl
  have hsave : (enforcing.state.store.saveRule {} "abc" edited).1 =
      .ok ⟨edited, .saved 1 1 (some banned)⟩ := by
    decide +kernel
  exact ⟨d, .mk hsave hrun hidle hlost, hheld⟩

/-- What the new version asks for. -/
def wanted : List Decision :=
  [{ asked with kind := .captcha }, { asked with ip := "10.0.0.2", kind := .captcha }]

end Demo

/-- In the run of `Demo.replacing`, where one target is kept and another one is new. -/
theorem edit_makes_only_missing_captcha :
    ∃ d : Config (List Engine.Decision),
      (Reliable Shop.site Demo.recorder.outside (fun h => h) exactly ∧
        (∀ v, exactly v v = true) ∧
        Records Shop.site Demo.recorder.outside (fun h => h) ∧
        Enforced Shop.site Shop.firewall (fun h => h) Demo.banned [Demo.asked] Demo.enforcing ∧
        Replaced Shop.site Demo.recorder.outside Demo.edited Demo.enforcing d ∧
        Demo.edited.id = Demo.banned.id ∧ Demo.edited.isBan = true ∧
        Demo.edited.enabled = true ∧
        ∀ a ∈ [Demo.asked], a.ip ∉ (Shop.site.bans Shop.firewall Demo.edited).map (·.ip) →
          ∀ w ∈ Shop.site.bans Shop.firewall Demo.edited, exactly a.ip w.ip = false) ∧
      ∃ news, decisionsOf Shop.site.settings.scenarios.ns Shop.site.uuid Demo.edited
          (Demo.edited.durationIn Shop.firewall) = .ok news ∧
        (∀ v, (∃ e ∈ d.outside, e.scenario = Shop.site.reason Demo.banned.id ∧ e.value = v) ↔
          v ∈ news.map (·.ip)) ∧
        ∀ e ∈ d.outside, e.scenario = Shop.site.reason Demo.banned.id →
          KeptOrMade Demo.enforcing.outside [Demo.asked] news e := by
  obtain ⟨d, hedit, _⟩ := Demo.replaced
  have hself : ∀ v, exactly v v = true := fun v => decide_eq_true rfl
  have hapart : ∀ a ∈ [Demo.asked],
      a.ip ∉ (Shop.site.bans Shop.firewall Demo.edited).map (·.ip) →
        ∀ w ∈ Shop.site.bans Shop.firewall Demo.edited, exactly a.ip w.ip = false :=
    fun a _ hnot w hw => decide_eq_false fun hip => hnot (hip ▸ List.mem_map_of_mem hw)
  obtain ⟨news, hnews, hhas, _, hcases, _⟩ := edit_makes_only_missing Demo.recorder_reliable hself
    Demo.recorder_records Demo.enforced hedit rfl rfl rfl hapart
  exact ⟨d, ⟨Demo.recorder_reliable, hself, Demo.recorder_records, Demo.enforced, hedit, rfl, rfl,
    rfl, hapart⟩, news, hnews, hhas, hcases⟩

/-- **A ban that is turned into a captcha stays a ban.** In the same run, the engine has no captcha
for the address that was banned before, and it still has the ban. -/
theorem edit_leaves_ban :
    ∃ d : Config (List Engine.Decision),
      (Reliable Shop.site Demo.recorder.outside (fun h => h) exactly ∧
        Records Shop.site Demo.recorder.outside (fun h => h) ∧
        Enforced Shop.site Shop.firewall (fun h => h) Demo.banned [Demo.asked] Demo.enforcing ∧
        Replaced Shop.site Demo.recorder.outside Demo.edited Demo.enforcing d ∧
        Demo.edited.id = Demo.banned.id ∧ Demo.edited.isBan = true ∧
        Demo.edited.enabled = true) ∧
      decisionsOf Shop.site.settings.scenarios.ns Shop.site.uuid Demo.edited
        (Demo.edited.durationIn Shop.firewall) = .ok Demo.wanted ∧
      ∃ w ∈ Demo.wanted, ∃ a ∈ [Demo.asked], a.ip = w.ip ∧ a.kind ≠ w.kind ∧
        ¬ (∃ e ∈ d.outside, IsOf e w) ∧ ∃ e ∈ d.outside, IsOf e a := by
  obtain ⟨d, hedit, hheld⟩ := Demo.replaced
  refine ⟨d, ⟨Demo.recorder_reliable, Demo.recorder_records, Demo.enforced, hedit, rfl, rfl, rfl⟩,
    by decide +kernel, _, List.mem_cons_self, _, List.mem_cons_self, rfl, by decide, ?_, ?_⟩
  · rw [hheld]
    unfold IsOf
    decide +kernel
  · rw [hheld]
    unfold IsOf
    decide +kernel

end Bans

end Rampart
