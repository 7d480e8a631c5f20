import Rampart.Proofs.Deployment.Lifting
import Rampart.Proofs.Execution.Alone
import Rampart.Proofs.Scenario.Ownership

/-!
# Bans and scenarios of one name

An engine keeps with every decision why it was made: the reason of a ban, or the name of the
scenario that overflowed. Jobs look for the bans of a rule by their reason alone. A rule whose name
leaves nothing of its slug but the word "rule" has a scenario named like the reason of its bans, so
that a job takes what the scenario did for a ban of the rule.

* `IsBare`: the names that leave nothing but that word; `slug_eq_rule_iff`.
* **`banReason_eq_scenarioName_iff`**: when a reason is the name of a scenario.
* `exists_held_of_isPresent`: what a job has found when it takes a decision for made.
* **`mistaken_only_if_bare`**: no other scenario's remediation is ever taken for a ban, or lifted.
-/

namespace Rampart

open Execution

/-! ## Reasons and names -/

/-- **A bare name** leaves nothing to be told by: it has no letter and no digit, or they stand in a
row and read "rule". -/
def IsBare (name : String) : Prop :=
  (∀ c ∈ name.toList, isSlugChar c = false) ∨
    ∃ front row back, name.toList = front ++ row ++ back ∧
      row.map Char.toLower = "rule".toList ∧ ∀ c ∈ front ++ back, isSlugChar c = false

theorem slug_eq_rule_iff (name : String) : slug name = "rule" ↔ IsBare name := by
  unfold slug IsBare
  rw [← @slugFrom_eq_nil_iff false false,
    ← slugFrom_eq_word_iff (by decide) (List.all_eq_true.mp (by decide)) false]
  simp only
  split
  · rename_i hnone
    exact ⟨fun _ => .inl (List.isEmpty_iff.mp hnone), fun _ => rfl⟩
  · rename_i hsome
    rw [or_iff_right fun hnil => hsome (List.isEmpty_iff.mpr hnil), ← String.toList_inj,
      String.toList_ofList]

instance (name : String) : Decidable (IsBare name) :=
  decidable_of_iff _ (slug_eq_rule_iff name)

/-- **A reason is the name of a scenario** exactly if both are of one rule, whose name is bare. -/
theorem banReason_eq_scenarioName_iff {ns u v : String} {id : UInt64} {r : Rule} :
    banReason ns u id = scenarioName ns v r ↔ u = v ∧ r.id = id ∧ IsBare r.name := by
  have hrule : "rule-".toList = "rule".toList ++ ['-'] := rfl
  have hslash : ∀ n : UInt64, '/' ∉ (toString n).toList := fun _ hmem =>
    absurd (Text.isDigit_of_mem_toString hmem) (by decide)
  have hhyphen : ∀ n : UInt64, '-' ∉ (toString n).toList := fun _ hmem =>
    absurd (Text.isDigit_of_mem_toString hmem) (by decide)
  have hslug : '/' ∉ (slug r.name).toList := fun hmem =>
    absurd (isUuidChar_of_mem_slug hmem) (by decide)
  rw [← slug_eq_rule_iff, ← String.toList_inj, toList_banReason, toList_scenarioName, hrule]
  simp only [List.append_assoc, List.singleton_append]
  constructor
  · intro h
    -- Both are cut from the end: at the last slash, and at the hyphen in front of the number.
    have htail := (List.cons.inj (List.append_cancel_left h)).2
    obtain ⟨huuid, hname⟩ := cut_inj_last (by simp [hslash]) (by simp [hslug, hslash]) htail
    obtain ⟨hword, hid⟩ := cut_inj_last (hhyphen id) (hhyphen r.id) hname
    exact ⟨String.toList_inj.mp huuid, (Text.toString_inj (String.toList_inj.mp hid)).symm,
      (String.toList_inj.mp hword).symm⟩
  · rintro ⟨rfl, rfl, hword⟩
    rw [hword]

namespace Orchestrator

theorem reason_of_mem_bansOf {s : Orchestrator} {c : Context} {rule : Rule} {d : Decision}
    (h : d ∈ s.bansOf c rule) :
    d.reason = banReason s.settings.scenarios.ns c.uuid rule.id := by
  unfold bansOf at h
  split at h
  · rename_i ds hds
    obtain ⟨_, _, hds⟩ := Except.bind_eq_ok_iff.mp hds
    exact reason_of_decisionsOf hds d h
  · cases h

/-- A decision that is dropped has the reason of a rule. -/
theorem Drops.exists_reason {s : Orchestrator} {e : RuleEvent} {d : Decision}
    (h : s.Drops e d) : ∃ uuid id, d.reason = banReason s.settings.scenarios.ns uuid id := by
  cases h with
  | edited _ _ _ hd _ => exact ⟨_, _, reason_of_mem_bansOf hd⟩
  | deleted _ _ hd => exact ⟨_, _, reason_of_mem_bansOf hd⟩

end Orchestrator

namespace Bans

/-! ## What jobs take for a ban -/

section

variable {ρ : Type} {o : Outside ρ} {held : ρ → UInt64 → List Engine.Decision}
  {covers : String → String → Bool}

theorem process_isPresent (engine : Engine.Client) (server : Server) (d : Decision) :
    (Deploy.isPresent engine server d).process =
      .call server (.run [engine.listCommand d.ip]) fun answer =>
        .done ((listed Engine.decisionsIn answer).map fun es =>
          es.any fun e => e.value = d.ip && e.scenario = d.reason) := by
  have hbind : (Deploy.isPresent engine server d).process =
      (engine.decisions server d.ip : Deploy.Work _).process.bind
        (ExceptT.bindCont fun es => pure (es.any fun e => e.value = d.ip && e.scenario = d.reason)) :=
    rfl
  rw [hbind, Engine.Client.decisions, process_listing, Process.bind]
  congr 1
  funext answer
  cases listed Engine.decisionsIn answer <;> rfl

/-- **A decision is found to be made** only if the engine holds one of its reason that covers its
address. -/
theorem exists_held_of_isPresent {engine : Engine.Client}
    (hnumbered : Numbered engine o held covers) {server : Server} {d : Decision} {w w' : Shared ρ}
    (h : Alone o w (Deploy.isPresent engine server d).process w' (.ok true)) :
    ∃ e ∈ held w.outside server.id, e.scenario = d.reason ∧ covers d.ip e.value = true := by
  rw [process_isPresent, alone_call_iff] at h
  obtain ⟨answer, after, hanswer, hdone⟩ := h
  have hfound := (alone_done_iff.mp hdone).2
  cases answer with
  | error failure => cases hfound
  | ok output =>
    cases hes : Engine.decisionsIn output with
    | none =>
      simp only [listed, hes] at hfound
      cases hfound
    | some es =>
      simp only [listed, hes] at hfound
      obtain ⟨e, he, hmatch⟩ := List.any_eq_true.mp (Except.ok.inj hfound).symm
      have hreason : e.scenario = d.reason := by simpa using (Bool.and_eq_true_iff.mp hmatch).2
      obtain ⟨f, hf, _, hsame, hcovers⟩ :=
        hnumbered.list server d.ip w.outside output after hanswer es hes e he
      exact ⟨f, hf, hsame.trans hreason, hcovers⟩

/-! ## Runs -/

variable {allowed : Request → Prop} {n : Nat} {a c c' : Config ρ}

/-- The settings stay as they are. -/
theorem settings_of_run (hnumbered : Numbered a.state.engine o held covers) (hresting : Resting a)
    (hrun : Run o allowed n a c) : c.state.settings = a.state.settings := by
  have hbegin : Tame a.state.settings o held covers (fun _ => True) a := by
    refine ⟨rfl, hresting.fit, fun job hjob => ?_, fun i p hi => ?_⟩
    · rw [hresting.noJobs] at hjob
      cases hjob
    · rw [hresting.workers i] at hi
      cases hi
  have htame : Tame a.state.settings o held covers (fun _ => True) c :=
    @invariant_of_run _ _ _ (fun _ d => Tame a.state.settings o held covers (fun _ => True) d)
      (fun _ _ _ h hs => (h.step hnumbered hs fun _ _ _ _ => trivial).1) _ _ _ hrun hbegin
  exact htame.same

/-- **What a scenario did is mistaken for a ban only if the name of its rule is bare.** The reason
of a ban is the name of a scenario exactly if both are of the same rule and its name is bare. So a
job that looks for a decision does not find it where the engine only holds, for the address, what
scenarios of other rules did; and whatever is lifted in a run of what scenarios did is of a rule
with a bare name, a ban of which was dropped before in the run. -/
theorem mistaken_only_if_bare (hnumbered : Numbered a.state.engine o held covers)
    (hresting : Resting a) (hrun : Run o allowed n a c) :
    (∀ (ns u v : String) (id : UInt64) (r : Rule),
      banReason ns u id = scenarioName ns v r ↔ u = v ∧ r.id = id ∧ IsBare r.name) ∧
    (∀ (server : Server) (d : Decision) (ns uuid : String) (id : UInt64) (w w' : Shared ρ)
        (found : Bool), d.reason = banReason ns uuid id →
      (∀ e ∈ held w.outside server.id, covers d.ip e.value = true →
        ∃ v r, e.scenario = scenarioName ns v r ∧ ¬(v = uuid ∧ r.id = id ∧ IsBare r.name)) →
      Alone o w (Deploy.isPresent a.state.engine server d).process w' (.ok found) →
      found = false) ∧
    ∀ (server : UInt64) (e : Engine.Decision) (uuid : String) (r : Rule),
      Step o allowed c c' → e ∈ held c.outside server → e ∉ held c'.outside server →
      e.scenario = scenarioName a.state.settings.scenarios.ns uuid r →
      IsBare r.name ∧ ∃ d, DroppedIn o allowed a c d ∧
        d.reason = banReason a.state.settings.scenarios.ns uuid r.id ∧
        covers d.ip e.value = true := by
  refine ⟨fun _ _ _ _ _ => banReason_eq_scenarioName_iff, ?_, ?_⟩
  · intro server d ns uuid id w w' found hreason hothers hpresent
    cases found with
    | false => rfl
    | true =>
      obtain ⟨e, he, hsame, hcovers⟩ := exists_held_of_isPresent hnumbered hpresent
      obtain ⟨v, r, hname, hnot⟩ := hothers e he hcovers
      rw [hsame, hreason] at hname
      obtain ⟨rfl, hid, hbare⟩ := banReason_eq_scenarioName_iff.mp hname
      exact absurd ⟨rfl, hid, hbare⟩ hnot
  · intro server e uuid r hstep he hgone hname
    obtain ⟨d, hd, hreason, hcovers⟩ :=
      liftsOnly_of_run hnumbered hresting hrun hstep server e he hgone
    obtain ⟨m, k, b, event, hab, hbc, hhears, hdrops⟩ := hd
    obtain ⟨owner, id, hban⟩ := hdrops.exists_reason
    rw [settings_of_run hnumbered hresting hab] at hban
    obtain ⟨rfl, rfl, hbare⟩ :=
      banReason_eq_scenarioName_iff.mp (hban.symm.trans (hreason.trans hname))
    exact ⟨hbare, d, ⟨m, k, b, event, hab, hbc, hhears, hdrops⟩, hban, hcovers⟩

end

/-- The decision that is lifted when an address is taken off a rule may be what the rule's scenario
did, if the rule is named without a letter. -/
theorem mistaken_only_if_bare_sign : ∃ c c',
    (Numbered Demo.settled.state.engine Demo.lister.outside Demo.remaining Demo.isAbout ∧
      Resting Demo.settled ∧
      Run Demo.lister.outside (· = Demo.tidying) Demo.reconsidered.length Demo.settled c ∧
      Step Demo.lister.outside (· = Demo.tidying) c c' ∧
      Demo.network ∈ Demo.remaining c.outside 1 ∧ Demo.network ∉ Demo.remaining c'.outside 1 ∧
      Demo.network.scenario = scenarioName Demo.settled.state.settings.scenarios.ns "abc"
        (Rampart.Demo.named "日本" 1)) ∧
    IsBare "日本" ∧ ∃ d, DroppedIn Demo.lister.outside (· = Demo.tidying) Demo.settled c d ∧
      d.reason = banReason Demo.settled.state.settings.scenarios.ns "abc" 1 ∧
      Demo.isAbout d.ip Demo.network.value = true := by
  have hnumbered : Numbered Demo.settled.state.engine Demo.lister.outside Demo.remaining
      Demo.isAbout := Demo.settled_engine ▸ Demo.numbered
  have hname : Demo.network.scenario = scenarioName Demo.settled.state.settings.scenarios.ns "abc"
      (Rampart.Demo.named "日本" 1) := by decide +kernel
  obtain ⟨c, c', hrun, hstep, he, hgone, _⟩ := Demo.lifts_network
  exact ⟨c, c', ⟨hnumbered, Demo.settled_resting, hrun, hstep, he, hgone, hname⟩,
    (mistaken_only_if_bare hnumbered Demo.settled_resting hrun).2.2 1 Demo.network "abc"
      (Rampart.Demo.named "日本" 1) hstep he hgone hname⟩

/-- **A scenario can be named like the reason of its rule's bans**: that of a rule that was named
without a letter, or "Rule". -/
theorem banReason_eq_scenarioName_sign :
    isUuid "abc" = true ∧
    banReason "bastion" "abc" 1 = scenarioName "bastion" "abc" (Rampart.Demo.named "日本" 1) ∧
    banReason "bastion" "abc" 1 = scenarioName "bastion" "abc" (Rampart.Demo.named "Rule!" 1) := by
  decide

end Bans

end Rampart
