import Rampart.Proofs.Deployment.Bans
import Rampart.Proofs.Deployment.Held
import Rampart.Proofs.Deployment.Jobs

/-!
# The errands are run

The jobs that make and lift bans keep to their contracts: whatever the other one does meanwhile, an
attempt that succeeds has made all that is wanted, or has lifted all that is stale.

* `decisions_yields`, `isPresent_yields`: what an engine lists.
* `addMissing_yields`, `removeAll_yields`: by induction over the decisions that are to be made or
  lifted; what was done before lasts.
* **`applyDecisions_yields`**, **`removeDecisions_yields`**: both jobs.
-/

namespace Rampart.Bans

open Execution Rampart.Task

variable {ρ : Type} {site : Site} {o : Outside ρ} {held : ρ → List Engine.Decision}
  {covers : String → String → Bool} {store : Store} {aim : Aim}

/-! ## What lasts -/

theorem lasting_has (a : Errand) {v : String} (hv : v ∈ aim.wanted) :
    (contract site held store aim a).Lasting fun y => aim.Has (held y) v :=
  ⟨fun _ _ hchanges hhas => hhas.lasts hv hchanges,
    fun _ _ _ hchanges hhas => hhas.lasts hv hchanges⟩

theorem lasting_not_has (a : Errand) {v : String} (hv : v ∈ aim.stale) :
    (contract site held store aim a).Lasting fun y => ¬ aim.Has (held y) v :=
  ⟨fun _ _ hchanges hnot => Aim.Has.stays_out hv hnot hchanges,
    fun _ _ _ hchanges hnot => Aim.Has.stays_out hv hnot hchanges⟩

/-- What an errand may do at least: nothing. -/
theorem contract_still (a : Errand) (y z : ρ) (hsame : held z = held y)
    (hy : (contract site held store aim a).sound y) :
    (contract site held store aim a).guarantee y z ∧ (contract site held store aim a).sound z :=
  ⟨by
    show aim.Changes a (held y) (held z)
    exact hsame ▸ .refl a _, by
    show aim.Sound (held z)
    exact hsame ▸ hy⟩

/-! ## Listing -/

section

variable {k : Contract ρ}

/-- **What an engine lists** for an address, at the moment when it answers. -/
theorem decisions_yields (hreliable : Reliable site o held covers)
    (hstill : ∀ y z, held z = held y → k.sound y → k.guarantee y z ∧ k.sound z) (ip : String)
    (x : ρ) :
    (site.engine.decisions site.server ip).Yields k o
      (fun ds y => k.sound y ∧ ds.Perm ((held y).filter fun e => covers ip e.value)) x := by
  refine yields_bind (yields_run fun y _ hy answer z ha => ?_)
  obtain ⟨hsame, hlist⟩ := hreliable.list ip y answer z ha
  obtain ⟨hguarantee, hz⟩ := hstill y z hsame hy
  refine ⟨hguarantee, hz, fun output houtput => yields_ofExcept fun ds hds => ⟨hz, ?_⟩⟩
  rw [hsame]
  refine hlist output ds houtput ?_
  split at hds
  · rename_i hparsed
    rw [hparsed, Except.ok.inj hds]
  · cases hds

/-- Whether a decision is there when the engine answers. -/
theorem isPresent_yields (hreliable : Reliable site o held covers)
    (hself : ∀ ip, covers ip ip = true)
    (hstill : ∀ y z, held z = held y → k.sound y → k.guarantee y z ∧ k.sound z) (d : Decision)
    (x : ρ) :
    (Deploy.isPresent site.engine site.server d).Yields k o
      (fun present y => present = true ↔ ∃ e ∈ held y, e.scenario = d.reason ∧ e.value = d.ip)
      x := by
  refine yields_bind ((decisions_yields hreliable hstill d.ip x).mono fun ds y hy => ?_)
  refine yields_pure ?_
  have hmem : ∀ e, e ∈ ds ↔ e ∈ held y ∧ covers d.ip e.value = true := fun e =>
    hy.2.mem_iff.trans List.mem_filter
  rw [List.any_eq_true]
  constructor
  · rintro ⟨e, he, hmatch⟩
    rw [Bool.and_eq_true, decide_eq_true_eq, decide_eq_true_eq] at hmatch
    exact ⟨e, ((hmem e).mp he).1, hmatch.2, hmatch.1⟩
  · rintro ⟨e, he, hscenario, hvalue⟩
    refine ⟨e, (hmem e).mpr ⟨he, ?_⟩, ?_⟩
    · rw [hvalue]
      exact hself d.ip
    · rw [Bool.and_eq_true, decide_eq_true_eq, decide_eq_true_eq]
      exact ⟨hvalue, hscenario⟩

end

/-! ## Making bans -/

/-- A decision is made where there is none. -/
theorem addDecision_yields (hreliable : Reliable site o held covers) {d : Decision}
    (hreason : d.reason = aim.reason) (hwanted : d.ip ∈ aim.wanted)
    (hmakes : Makes site o held d aim.fresh) {x : ρ} (hnot : ¬ aim.Has (held x) d.ip) :
    (site.engine.addDecision site.server d).Yields (contract site held store aim .apply) o
      (fun _ y => aim.Has (held y) d.ip) x := by
  refine yields_bind (yields_run fun y hxy hy answer z ha => ?_)
  -- Others have only lifted bans since.
  have hnot' : ¬ aim.Has (held y) d.ip := by
    rintro ⟨e, he, hhas⟩
    exact hnot ⟨e, hxy.1 e he, hhas⟩
  rcases hreliable.add d y answer z ha with ⟨e, hvalue, hscenario, hid, hperm⟩ | ⟨⟨_, rfl⟩, hsame⟩
  · rw [← hvalue] at hwanted hnot'
    have hfresh : aim.fresh e :=
      (hmakes y answer z ha e (hperm.mem_iff.mpr List.mem_cons_self)).resolve_left
        fun he => hid (List.mem_map_of_mem he)
    obtain ⟨hchanges, hz, hhas⟩ :=
      hy.add (hscenario.trans hreason) hwanted hfresh hnot' hid hperm
    exact ⟨hchanges, hz, fun _ _ => yields_pure (hvalue ▸ hhas)⟩
  · obtain ⟨hguarantee, hz⟩ := contract_still .apply y z hsame hy
    exact ⟨hguarantee, hz, fun _ heq => by cases heq⟩

/-- **All that is wanted is made**, once each. -/
theorem addMissing_yields (hreliable : Reliable site o held covers)
    (hself : ∀ ip, covers ip ip = true) {ds : List Decision}
    (hds : ∀ d ∈ ds, d.reason = aim.reason ∧ d.ip ∈ aim.wanted ∧ Makes site o held d aim.fresh)
    (x : ρ) :
    (Deploy.addMissing site.engine site.server ds).Yields (contract site held store aim .apply) o
      (fun _ y => ∀ d ∈ ds, aim.Has (held y) d.ip) x := by
  induction ds generalizing x with
  | nil => exact yields_pure fun _ hd => absurd hd List.not_mem_nil
  | cons d ds ih =>
    obtain ⟨hreason, hwanted, hmakes⟩ := hds d List.mem_cons_self
    have hothers (y : ρ) (hhas : aim.Has (held y) d.ip) :
        (Deploy.addMissing site.engine site.server ds).Yields
          (contract site held store aim .apply) o
          (fun _ z => ∀ d' ∈ d :: ds, aim.Has (held z) d'.ip) y := by
      have hrest := ih (fun d' hd' => hds d' (List.mem_cons_of_mem d hd')) y
      refine (hrest.frame (lasting_has .apply hwanted) hhas).mono fun _ z hz => ?_
      exact List.forall_mem_cons.mpr ⟨hz.2, hz.1⟩
    refine yields_bind ((isPresent_yields hreliable hself (contract_still .apply) d x).mono
      fun present y hy => ?_)
    rw [hreason] at hy
    cases present with
    | true => exact hothers y (hy.mp rfl)
    | false =>
      have hnot : ¬ aim.Has (held y) d.ip := fun hhas => by cases hy.mpr hhas
      refine yields_bind ((addDecision_yields hreliable hreason hwanted hmakes hnot).mono
        fun _ z hz => ?_)
      refine yields_bind (yields_modify (fun s _ => Unnoticed.count s _ _) ?_)
      exact hothers z hz

/-! ## Lifting bans -/

/-- What was listed is lifted, if it has the reason. -/
theorem removeListed_yields (hreliable : Reliable site o held covers) {ip : String}
    (hip : ip ∈ aim.stale) {es : List Engine.Decision} (hnodup : es.Nodup)
    (hstale : ∀ e ∈ es, e.scenario = aim.reason → e.value ∈ aim.stale) {x : ρ}
    (hheld : ∀ e ∈ es, e ∈ held x)
    (hall : ∀ e ∈ held x, e.scenario = aim.reason → e.value = ip → e ∈ es) :
    (Deploy.removeListed site.engine site.server aim.reason es).Yields
      (contract site held store aim .lift) o (fun _ y => ¬ aim.Has (held y) ip) x := by
  induction es generalizing x with
  | nil =>
    refine yields_pure ?_
    rintro ⟨e, he, hscenario, hvalue⟩
    exact List.not_mem_nil (hall e he hscenario hvalue)
  | cons e es ih =>
    obtain ⟨hne, hnodup⟩ := List.nodup_cons.mp hnodup
    have ih {y : ρ} := @ih hnodup (fun f hf => hstale f (List.mem_cons_of_mem e hf)) y
    unfold Deploy.removeListed
    split
    · rename_i hreason
      refine yields_bind (yields_bind (yields_run fun y hxy hy answer z ha => ?_))
      have he : e ∈ held y := hxy.1 e (hheld e List.mem_cons_self)
      -- Others have only made bans that are wanted since.
      have hall' : ∀ f ∈ held y, f.scenario = aim.reason → f.value = ip → f ∈ e :: es := by
        intro f hf hscenario hvalue
        rcases hxy.2 f hf with hbefore | ⟨_, hwanted⟩
        · exact hall f hbefore hscenario hvalue
        · exact absurd (hvalue ▸ hip) (aim.disjoint _ hwanted)
      rcases hreliable.remove e.id y answer z ha with hremoved | ⟨⟨_, rfl⟩, hsame⟩
      · obtain ⟨hchanges, hz, hmem⟩ :=
          hy.remove he hreason (hstale e List.mem_cons_self hreason) hremoved
        refine ⟨hchanges, hz, fun _ _ => yields_pure (ih (fun f hf => ?_) fun f hf hfr hfv => ?_)⟩
        · refine (hmem f).mpr ⟨hxy.1 f (hheld f (List.mem_cons_of_mem e hf)), ?_⟩
          exact fun heq => hne (heq ▸ hf)
        · obtain ⟨hfy, hfe⟩ := (hmem f).mp hf
          exact (List.mem_cons.mp (hall' f hfy hfr hfv)).resolve_left hfe
      · obtain ⟨hguarantee, hz⟩ := contract_still .lift y z hsame hy
        exact ⟨hguarantee, hz, fun _ heq => by cases heq⟩
    · rename_i hreason
      refine yields_bind (yields_pure (ih (fun f hf => ?_) fun f hf hfr hfv => ?_))
      · exact hheld f (List.mem_cons_of_mem e hf)
      · refine (List.mem_cons.mp (hall f hf hfr hfv)).resolve_left ?_
        rintro rfl
        exact hreason hfr

/-- **All that is stale is lifted**, and nothing that is wanted. -/
theorem removeAll_yields (hreliable : Reliable site o held covers)
    (hself : ∀ ip, covers ip ip = true)
    (hapart : ∀ v ∈ aim.stale, ∀ w ∈ aim.wanted, covers v w = false) {ds : List Decision}
    (hds : ∀ d ∈ ds, d.reason = aim.reason ∧ d.ip ∈ aim.stale) (x : ρ) :
    (Deploy.removeAll site.engine site.server ds).Yields (contract site held store aim .lift) o
      (fun _ y => ∀ d ∈ ds, ¬ aim.Has (held y) d.ip) x := by
  induction ds generalizing x with
  | nil => exact yields_pure fun _ hd => absurd hd List.not_mem_nil
  | cons d ds ih =>
    obtain ⟨hreason, hstale⟩ := hds d List.mem_cons_self
    refine yields_bind ((decisions_yields hreliable (contract_still .lift) d.ip x).mono
      fun es y hy => ?_)
    obtain ⟨hsound, hperm⟩ := hy
    have hmem : ∀ e, e ∈ es ↔ e ∈ held y ∧ covers d.ip e.value = true := fun e =>
      hperm.mem_iff.trans List.mem_filter
    have hnodup : es.Nodup :=
      hperm.nodup_iff.mpr ((List.Nodup.of_map _ hsound.numbers).filter _)
    refine yields_bind ((hreason ▸ removeListed_yields hreliable hstale hnodup
      (fun e he hscenario => ?_) (fun e he => ((hmem e).mp he).1)
      fun e he _ hvalue => (hmem e).mpr ⟨he, hvalue ▸ hself _⟩).mono fun _ z hz => ?_)
    · -- A decision that covers a stale address is not wanted.
      obtain ⟨hheld, hcovers⟩ := (hmem e).mp he
      refine (hsound.within e.value ⟨e, hheld, hscenario, rfl⟩).resolve_left fun hwanted => ?_
      rw [hapart _ hstale _ hwanted] at hcovers
      cases hcovers
    · have hrest := ih (fun d' hd' => hds d' (List.mem_cons_of_mem d hd')) z
      refine (hrest.frame (lasting_not_has .lift hstale) hz).mono fun _ y hy => ?_
      exact List.forall_mem_cons.mpr ⟨hy.2, hy.1⟩

/-! ## The jobs -/

/-- The rule that an apply finds is the one that is in force. -/
theorem filter_rule?_eq {s : Store} (h : site.Knows s) (firewall : Firewall) (id : UInt64) :
    ((Context.of site.application firewall (s.rulesOf site.firewall) site.server).rule? id).filter
      (fun rule => rule.isBan && rule.enabled) = site.banRule? s id := by
  refine Option.ext fun rule => ?_
  rw [Option.filter_eq_some_iff, Site.rule?_eq_some_iff h, Site.banRule?_eq_some_iff,
    Bool.and_eq_true, and_assoc]

/-- **What an apply makes** is what the rule of its number calls for, when it looks at the store. -/
theorem applyDecisions_yields_of {k : Contract ρ} {firewall : Firewall} {id : UInt64}
    (ds : List Decision) {post : Unit → ρ → Prop} {x : ρ}
    (hstate : ∀ s, k.state s → s.KnowsSite site ∧
      s.store.firewalls.get? site.firewall = some firewall ∧
      site.wanted firewall s.store id = ds)
    (hreload : ∀ s server, k.change s (s.dispatchReload server))
    (hmake : ∀ s, k.state s →
      (Deploy.addMissing site.engine site.server ds).Yields k o post x) :
    (Deploy.applyDecisions site.firewall id).Yields k o post x := by
  refine yields_bind (yields_read fun s a hs ha => ?_)
  obtain ⟨hknows, hfirewall, hds⟩ := hstate s hs
  obtain ⟨c, engine, decisions⟩ := a
  obtain ⟨c', hc, ha⟩ := Except.bind_eq_ok_iff.mp ha
  obtain ⟨c'', hc'', hactive⟩ := Except.bind_eq_ok_iff.mp hc
  rw [hknows.contextOf hfirewall] at hc''
  obtain rfl := Except.ok.inj hc''
  have hcontext : Context.of site.application firewall (s.store.rulesOf site.firewall)
      site.server = c' := by
    split at hactive
    · exact Except.ok.inj hactive
    · cases hactive
  subst hcontext
  rw [filter_rule?_eq hknows.store, hknows.engine, hknows.settings] at ha
  unfold Site.wanted at hds
  cases hrule : site.banRule? s.store id with
  | none =>
    rw [hrule] at ha hds
    obtain ⟨rfl, hrest⟩ := Prod.mk.inj (Except.ok.inj ha)
    obtain ⟨rfl, rfl⟩ := Prod.mk.inj hrest
    subst hds
    exact hmake s hs
  | some rule =>
    rw [hrule] at ha hds
    obtain ⟨made, hmade, ha⟩ := Except.bind_eq_ok_iff.mp ha
    obtain ⟨rfl, hrest⟩ := Prod.mk.inj (Except.ok.inj ha)
    obtain ⟨rfl, rfl⟩ := Prod.mk.inj hrest
    have hsame : made = ds := by
      rw [Site.decisions_eq hknows.store.isUuid] at hmade
      simp only [Site.bans] at hds
      cases hdecisions : decisionsOf site.settings.scenarios.ns site.uuid rule
          (rule.durationIn firewall) with
      | ok found =>
        rw [hdecisions] at hmade hds
        exact (Except.ok.inj hmade).symm.trans hds
      | error fault =>
        rw [hdecisions] at hmade
        cases hmade
    subst hsame
    exact yields_bind ((hmake s hs).mono fun _ y hy =>
      yields_modify (fun s _ => hreload s _) hy)

theorem applyDecisions_yields (hreliable : Reliable site o held covers)
    (hself : ∀ ip, covers ip ip = true) {firewall : Firewall}
    (hfirewall : store.firewalls.get? site.firewall = some firewall) {id : UInt64}
    (hreason : aim.reason = site.reason id)
    (hwanted : aim.wanted = (site.wanted firewall store id).map (·.ip))
    (hmakes : ∀ d ∈ site.wanted firewall store id, Makes site o held d aim.fresh) (x : ρ) :
    (Deploy.applyDecisions site.firewall id).Yields (contract site held store aim .apply) o
      (fun _ y => aim.Achieved .apply (held y)) x := by
  refine applyDecisions_yields_of (site.wanted firewall store id)
    (fun s hs => ⟨hs.1, hs.2 ▸ hfirewall, by rw [hs.2]⟩)
    (fun s server => Unnoticed.dispatchReload s server) fun s hs => ?_
  refine (addMissing_yields hreliable hself (fun d hd => ?_) x).mono fun _ y hy v hv => ?_
  · refine ⟨(Site.reason_of_mem_wanted (hs.2 ▸ hs.1.store) hd).trans hreason.symm, ?_, hmakes d hd⟩
    rw [hwanted]
    exact List.mem_map_of_mem hd
  · rw [hwanted] at hv
    obtain ⟨d, hd, rfl⟩ := List.mem_map.mp hv
    exact hy d hd

theorem removeDecisions_yields (hreliable : Reliable site o held covers)
    (hself : ∀ ip, covers ip ip = true)
    (hapart : ∀ v ∈ aim.stale, ∀ w ∈ aim.wanted, covers v w = false) {ds : List Decision}
    (hreason : ∀ d ∈ ds, d.reason = aim.reason) (hstale : aim.stale = ds.map (·.ip)) (x : ρ) :
    (Deploy.removeDecisions site.server.id ds).Yields (contract site held store aim .lift) o
      (fun _ y => aim.Achieved .lift (held y)) x := by
  refine yields_bind (yields_read fun s a hs ha => ?_)
  obtain ⟨hknows, rfl⟩ := hs
  rw [hknows.ownServer, hknows.engine] at ha
  obtain rfl := Except.ok.inj ha
  refine (removeAll_yields hreliable hself hapart (fun d hd => ⟨hreason d hd, ?_⟩) x).mono
    fun _ y hy v hv => ?_
  · rw [hstale]
    exact List.mem_map_of_mem hd
  · rw [hstale] at hv
    obtain ⟨d, hd, rfl⟩ := List.mem_map.mp hv
    exact hy d hd

end Rampart.Bans
