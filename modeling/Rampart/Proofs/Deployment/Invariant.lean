import Rampart.Proofs.Deployment.Moves

/-!
# What the steps of the workers leave true

* `Invariant`: what holds of an application and of the parts that the workers play for it.
* `Turn.succeeds`: no turn of a role takes anything away that is on the way.
* `Invariant.move`: a worker takes another role.
* **`Invariant.advance`**: what holds before a step of a worker holds after it.
-/

namespace Rampart.Convergence

open Execution Orchestrator
open Remote (Files)
open ScenarioDir (staged)

/-- **What holds of an application** after so many steps, with the parts of the workers. -/
structure Invariant {ρ : Type} (site : Site) (o : Outside ρ) (files : ρ → UInt64 → Files) (n : Nat)
    (c : Config ρ) (roles : Nat → Role) : Prop where
  base : Base site files n c
  cast : Cast site o files c roles
  news : News site files c roles

variable {ρ : Type} {site : Site} {o : Outside ρ} {files : ρ → UInt64 → Files}

/-! ## What follows a role -/

/-- A role that has nothing on the way may be given up. -/
theorem Succeeds.retire {isTarget : ScenarioFile → Prop} {newest : UInt64} {needsBouncer : Prop}
    {r : Role} (hrecord : r.willRecord = false) (hcall : needsBouncer → r.mayRecord = false)
    (hdue : r.isDue newest = false) (hunder : r.isUnderway newest = false)
    (p : Process Orchestrator Unit) : Succeeds isTarget newest needsBouncer r (.quiet p) where
  record h := by
    rw [hrecord] at h
    cases h
  call hneeds h := by
    rw [hcall hneeds] at h
    cases h
  fresh _ := trivial
  due h := by
    rw [hdue] at h
    cases h
  underway h := by
    rw [hunder] at h
    cases h
  writes _ _ := trivial

theorem Role.writesOnly_of_not_holds {isTarget : ScenarioFile → Prop} {r : Role}
    (h : r.holds = false) : r.WritesOnly isTarget := by
  cases r with
  | sync e g phase =>
    intro hw
    cases phase <;> first | (cases hw; done) | cases h
  | _ => trivial

/-- A sync goes on. -/
theorem Succeeds.sync {isTarget : ScenarioFile → Prop} {newest : UInt64} {needsBouncer : Prop}
    {e e' : Entry Job} {g : UInt64} {phase phase' : Phase}
    (hfiles : ∀ fs ∈ phase'.files?, fs ∈ phase.files? ∨ ∀ f, f ∈ fs ↔ isTarget f)
    (hdue : phase.isUnread = true → phase'.isUnread = true ∨ phase'.files?.isSome = true)
    (hunder : g = newest → phase.files?.isSome = true → phase'.files?.isSome = true)
    (hwrites : phase'.isWriting = true →
      phase'.files? = phase.files? ∧ (phase.isWriting = true ∨ g = newest)) :
    Succeeds isTarget newest needsBouncer (.sync e g phase) (.sync e' g phase') where
  record h := h
  call _ h := .inl h
  fresh h hg fs hfs f := by
    rcases hfiles fs hfs with hold | htarget
    · exact h hg fs hold f
    · exact htarget f
  due h := by
    obtain ⟨hg, hunread⟩ := Bool.and_eq_true_iff.mp h
    exact (hdue hunread).imp (fun h => Bool.and_eq_true_iff.mpr ⟨hg, h⟩)
      fun h => Bool.and_eq_true_iff.mpr ⟨hg, h⟩
  underway h := by
    obtain ⟨hg, hsome⟩ := Bool.and_eq_true_iff.mp h
    exact Bool.and_eq_true_iff.mpr ⟨hg, hunder (beq_iff_eq.mp hg) hsome⟩
  writes hfresh h hw fs hfs f := by
    obtain ⟨hsame, hbefore | hg⟩ := hwrites hw
    · exact h hbefore fs (hsame ▸ hfs) f
    · exact hfresh hg fs (hsame ▸ hfs) f

/-! ## Turns -/

namespace Turn

variable {w : Shared ρ} {r r' : Role}

theorem holds_eq (h : Turn site o files w r r') : r'.holds = r.holds := by
  cases h <;> rfl

theorem generation?_of (h : Turn site o files w r r') {g : UInt64} (hg : r'.generation? = some g) :
    r.generation? = some g := by
  cases h <;> first | exact hg | cases hg

theorem sound (h : Turn site o files w r r') {newest : UInt64}
    (hr : r.Sound site o (files w.outside site.server.id) newest) :
    r'.Sound site o (files w.outside site.server.id) newest := by
  cases h with
  | quiet hp => exact hp
  | begin he => exact ⟨he.trans hr.1, hr.2.1, trivial⟩
  | check => exact ⟨hr.1, hr.2.1, trivial⟩
  | drop hp _ => exact hp
  | stop hp _ => exact hp
  | read hfs _ => exact ⟨hr.1, hr.2.1, hfs⟩
  | confirm _ => exact hr
  | reject _ => exact ⟨hr.1, hr.2.1, trivial⟩
  | list hcovers => exact ⟨hr.1, hr.2.1, hr.2.2, hcovers⟩
  | name htoken =>
    obtain ⟨hjob, hle, hfs, hcovers⟩ := hr
    exact ⟨hjob, hle, hfs, hcovers, htoken, [], rfl, fun _ hf => absurd hf List.not_mem_nil⟩
  | count => exact ⟨hr.1, hr.2.1, trivial⟩
  | call he => exact he.trans hr
  | unneeded hp _ => exact hp
  | need => exact hr
  | register => exact hr

/-- **No turn takes away what is on the way** for an active firewall. -/
theorem succeeds (h : Turn site o files w r r') {firewall : Firewall}
    (hfirewall : w.state.store.firewalls.get? site.firewall = some firewall)
    (hactive : firewall.isActive = true) :
    Succeeds (site.IsTarget w.state.store) (w.state.generation site.firewall)
      (firewall.needsBouncer = true) r r' := by
  cases h with
  | quiet _ => exact .retire rfl (fun _ => rfl) rfl rfl _
  | begin _ =>
    exact .sync (fun _ hfs => by cases hfs) (fun _ => .inl rfl) (fun _ h => by cases h)
      fun h => by cases h
  | check =>
    exact .sync (fun _ hfs => by cases hfs) (fun _ => .inl rfl) (fun _ h => by cases h)
      fun h => by cases h
  | drop _ hold =>
    refine .retire rfl (fun _ => rfl) ?_ ?_ _
    · rw [Role.isDue, beq_eq_false_iff_ne.mpr (UInt64.ne_of_lt hold), Bool.false_and]
    · rw [Role.isUnderway, beq_eq_false_iff_ne.mpr (UInt64.ne_of_lt hold), Bool.false_and]
  | stop _ hinactive =>
    rw [hinactive firewall hfirewall] at hactive
    cases hactive
  | read _ htarget =>
    refine .sync (fun fs hfs => .inr ?_) (fun _ => .inr rfl) (fun _ h => by cases h)
      fun h => by cases h
    rw [← Option.some.inj hfs]
    exact htarget
  | confirm hg =>
    exact .sync (fun _ hfs => .inl hfs) (fun h => by cases h) (fun _ _ => rfl)
      fun _ => ⟨rfl, .inr hg⟩
  | reject hold =>
    exact .sync (fun _ hfs => by cases hfs) (fun h => by cases h)
      (fun hg _ => absurd hg (UInt64.ne_of_lt hold)) fun h => by cases h
  | list _ =>
    exact .sync (fun _ hfs => .inl hfs) (fun h => by cases h) (fun _ _ => rfl)
      fun _ => ⟨rfl, .inl rfl⟩
  | name _ =>
    exact .sync (fun _ hfs => .inl hfs) (fun h => by cases h) (fun _ _ => rfl)
      fun _ => ⟨rfl, .inl rfl⟩
  | count =>
    exact .sync (fun _ hfs => by cases hfs) (fun h => by cases h) (fun _ h => by cases h)
      fun h => by cases h
  | call _ => exact ⟨id, fun _ _ => .inl rfl, id, .inl, id, fun _ => id⟩
  | unneeded _ hneeds =>
    refine .retire rfl (fun hneeded => ?_) rfl rfl _
    rw [hneeds firewall hfirewall] at hneeded
    cases hneeded
  | need => exact ⟨fun _ => rfl, fun _ _ => .inr rfl, id, .inl, id, fun _ => id⟩
  | register => exact ⟨fun _ => rfl, fun _ => .inl, id, .inl, id, fun _ => id⟩

end Turn

/-! ## Moves -/

section

variable {n : Nat} {c : Config ρ} {roles : Nat → Role} {i : Nat} {w : Shared ρ}

/-- What is left when a worker takes a step. -/
def stepped (site : Site) (c : Config ρ) (i : Nat) (w : Shared ρ) (r : Role) : Config ρ :=
  { c with toShared := w, workers := Function.update c.workers i (r.process site) }

/-- **A worker takes another role**, where the files that are in place stay the same. -/
theorem Invariant.move (h : Invariant site o files n c roles) {r : Role}
    (hs : Harmless site c.state w.state)
    (hplaces : SamePlaces site (files c.outside site.server.id) (files w.outside site.server.id))
    (hothers : ∀ j, j ≠ i → (roles j).holds = true →
      SameFiles site (files c.outside site.server.id) (files w.outside site.server.id) ∧
        site.lock ∈ w.held)
    (hsound : r.Sound site o (files w.outside site.server.id) (w.state.generation site.firewall))
    (hgeneration : ∀ g, r.generation? = some g → (roles i).generation? = some g)
    (hholds : r.holds = true → site.lock ∈ w.held ∧ ∀ j, j ≠ i → (roles j).holds = false)
    (hsucceeds : ∀ firewall, c.state.store.firewalls.get? site.firewall = some firewall →
      firewall.isActive = true →
      Succeeds (site.IsTarget c.state.store) (c.state.generation site.firewall)
        (firewall.needsBouncer = true) (roles i) r) :
    Invariant site o files n (stepped site c i w r) (Function.update roles i r) := by
  let workers := Function.update c.workers i (r.process site)
  have hbase : Base site files n { c with workers } := h.base.frame (.refl _) fun _ _ => rfl
  refine ⟨h.base.frame hs hplaces, ?_, ?_⟩
  · refine h.cast.update i r rfl hs.generation ?_ hothers hsound (fun g hg => ?_) hholds
    · exact fun g hg => (syncs_perm_of_harmless hs).mem_iff.mp hg
    · exact .inl (hgeneration g hg)
  · exact (h.news.update i r workers hsucceeds).frame hbase hs hplaces rfl

/-- Nobody else holds the lock. -/
theorem holds_eq_false (h : Invariant site o files n c roles) (hi : (roles i).holds = true) {j : Nat}
    (hji : j ≠ i) : (roles j).holds = false :=
  Bool.eq_false_iff.mpr fun hj => hji (h.cast.exclusive j i hj hi)

theorem Invariant.turn (h : Invariant site o files n c roles) {r : Role}
    (hturn : Turn site o files c.toShared (roles i) r) (haside : Aside site files c.toShared w) :
    Invariant site o files n (stepped site c i w r) (Function.update roles i r) := by
  refine h.move haside.state haside.files.places (fun j _ hj => ?_) ?_
    (fun g => hturn.generation?_of) (fun hr => ?_) fun firewall => hturn.succeeds
  · exact ⟨haside.files, haside.held.mpr (h.cast.held j hj)⟩
  · refine Role.sound_mono (hturn.sound (h.cast.sound i)) (fun _ => haside.files) ?_
    rw [haside.state.generation]
    exact UInt64.le_refl _
  · rw [hturn.holds_eq] at hr
    exact ⟨haside.held.mpr (h.cast.held i hr), fun j => holds_eq_false h hr⟩

theorem Invariant.lock (h : Invariant site o files n c roles) {e : Entry Job} {g : UInt64}
    {fs : List ScenarioFile} (hi : roles i = .sync e g (.waiting fs)) (hfree : site.lock ∉ c.held) :
    Invariant site o files n
      (stepped site c i { c.toShared with held := site.lock :: c.held }
        (.sync e g (.confirming fs)))
      (Function.update roles i (.sync e g (.confirming fs))) := by
  have hnobody : ∀ j, (roles j).holds = false := fun j =>
    Bool.eq_false_iff.mpr fun hj => hfree (h.cast.held j hj)
  have hsound := h.cast.sound i
  rw [hi] at hsound
  refine h.move (.refl _) (fun _ _ => rfl) (fun j _ hj => ?_) hsound (fun g hg => ?_)
    (fun _ => ⟨List.mem_cons_self, fun j _ => hnobody j⟩) fun _ _ _ => ?_
  · rw [hnobody j] at hj
    cases hj
  · rw [hi]
    exact hg
  · rw [hi]
    exact .sync (fun _ hfs => .inl hfs) (fun h => by cases h) (fun _ _ => rfl) fun h => by cases h

theorem Invariant.upload (h : Invariant site o files n c roles) {e : Entry Job} {g : UInt64}
    {fs rest : List ScenarioFile} {existing : List String} {token : String} {f : ScenarioFile}
    (hi : roles i = .sync e g (.uploading fs existing token (f :: rest))) {after : ρ}
    (hafter : files after site.server.id = (files c.outside site.server.id).write
      (staged (site.dir.staging site.uuid token) f.name) f.contents) :
    Invariant site o files n
      (stepped site c i { c.toShared with outside := after }
        (.sync e g (.uploading fs existing token rest)))
      (Function.update roles i (.sync e g (.uploading fs existing token rest))) := by
  have hu := h.base.knows.store.isUuid
  have hholds : (roles i).holds = true := by
    rw [hi]
    rfl
  have hsound := h.cast.sound i
  rw [hi] at hsound
  obtain ⟨hjob, hle, hfs, hcovers, htoken, done, hsplit, hstaged⟩ := hsound
  have hplaces : SamePlaces site (files c.outside site.server.id)
      (files after site.server.id) := by
    intro name hname
    rw [hafter]
    exact Function.update_of_ne (file_ne_staged hu (isOwned_of_isScenarioName hname) _ _ _ _) _ _
  refine h.move (.refl _) hplaces (fun j hji hj => ?_) ?_ (fun g hg => ?_)
    (fun _ => ⟨h.cast.held i hholds, fun j => holds_eq_false h hholds⟩) fun _ _ _ => ?_
  · rw [holds_eq_false h hholds hji] at hj
    cases hj
  · refine ⟨hjob, hle, hfs, hplaces.covers hcovers, htoken, done ++ [f], ?_, fun d hd => ?_⟩
    · rw [hsplit, List.append_assoc]
      rfl
    · rw [hafter]
      by_cases hname : d.name = f.name
      · -- Names are not used twice, so this is the file that was written.
        have hmem : d ∈ fs ∧ f ∈ fs := by
          rw [hsplit]
          rcases List.mem_append.mp hd with hd | hd
          · exact ⟨List.mem_append_left _ hd, List.mem_append_right _ List.mem_cons_self⟩
          · rw [List.mem_singleton.mp hd]
            exact ⟨List.mem_append_right _ List.mem_cons_self,
              List.mem_append_right _ List.mem_cons_self⟩
        obtain rfl := List.inj_on_of_nodup_map hfs.nodup hmem.1 hmem.2 hname
        exact Function.update_self _ _ _
      · have hne : staged (site.dir.staging site.uuid token) d.name ≠
            staged (site.dir.staging site.uuid token) f.name := fun heq => hname (staged_inj heq)
        refine (Function.update_of_ne hne _ _).trans (hstaged d ?_)
        rcases List.mem_append.mp hd with hd | hd
        · exact hd
        · exact absurd (congrArg _ (List.mem_singleton.mp hd)) hname
  · rw [hi]
    exact hg
  · rw [hi]
    exact .sync (fun _ hfs => .inl hfs) (fun h => by cases h) (fun _ _ => rfl)
      fun _ => ⟨rfl, .inl rfl⟩

theorem Invariant.unlock (h : Invariant site o files n c roles) {e : Entry Job} {g : UInt64}
    {written : Bool} (hi : roles i = .sync e g (.releasing written))
    {p : Process Orchestrator Unit} (hp : p.Obeys (quiet site o) fun _ => True) :
    Invariant site o files n
      (stepped site c i { c.toShared with held := c.held.erase site.lock } (.quiet p))
      (Function.update roles i (.quiet p)) := by
  have hholds : (roles i).holds = true := by
    rw [hi]
    rfl
  refine h.move (.refl _) (fun _ _ => rfl) (fun j hji hj => ?_) hp (fun _ hg => by cases hg)
    (fun hr => by cases hr) fun _ _ _ => ?_
  · rw [holds_eq_false h hholds hji] at hj
    cases hj
  · rw [hi]
    refine .retire rfl (fun _ => rfl) ?_ ?_ p
    · exact Bool.and_false _
    · exact Bool.and_false _

/-- **The files are put into place.** If they are those of the newest sync, they are what the rules
call for, and nobody else is writing. -/
theorem Invariant.place (h : Invariant site o files n c roles) {e : Entry Job} {g : UInt64}
    {fs : List ScenarioFile} {existing : List String} {token : String}
    (hi : roles i = .sync e g (.uploading fs existing token [])) {after : ρ}
    (hafter : HasExactly site.dir site.uuid (files after site.server.id) (· ∈ fs)) :
    Invariant site o files n
      (stepped site c i { c.toShared with outside := after } (.sync e g (.counting fs)))
      (Function.update roles i (.sync e g (.counting fs))) := by
  have hholds : (roles i).holds = true := by
    rw [hi]
    rfl
  have hsound := h.cast.sound i
  rw [hi] at hsound
  obtain ⟨hjob, hle, hfs, _⟩ := hsound
  refine ⟨?_, ?_, ?_⟩
  · refine ⟨h.base.knows, h.base.bus, h.base.fit, h.base.deployment, h.base.bounded, h.base.old,
      h.base.distinct, fun name hname hthere => ?_⟩
    obtain ⟨contents, hcontents⟩ := Option.ne_none_iff_exists'.mp hthere
    exact hfs.blankFree _ ((hafter name hname contents).mp hcontents)
  · refine h.cast.update i _ rfl rfl (fun _ hg => hg) (fun j hji hj => ?_) ⟨hjob, hle, trivial⟩
      (fun g hg => .inl ?_) fun _ => ⟨h.cast.held i hholds, fun j => holds_eq_false h hholds⟩
    · rw [holds_eq_false h hholds hji] at hj
      cases hj
    · rw [hi]
      exact hg
  · intro firewall hfirewall hactive
    rcases h.news firewall hfirewall hactive with hnotice | hrecord | ⟨hneeds, hcall⟩ |
      ⟨hfresh, hsupply⟩
    · exact .inl hnotice
    · refine .inr (.inl (exists_update (·.willRecord = true) hrecord fun hr => ?_))
      rw [hi] at hr
      cases hr
    · refine .inr (.inr (.inl ⟨hneeds, hcall.imp_right fun hcall => ?_⟩))
      refine exists_update (·.mayRecord = true) hcall fun hr => ?_
      rw [hi] at hr
      cases hr
    · refine .inr (.inr (.inr ⟨forall_update (·.Fresh _ _) hfresh fun _ _ hnone => ?_, ?_⟩))
      · cases hnone
      · have hwritten (htarget : ∀ f, f ∈ fs ↔ site.IsTarget c.state.store f) :
            Supply site files
              (stepped site c i { c.toShared with outside := after } (.sync e g (.counting fs)))
              (Function.update roles i (.sync e g (.counting fs))) := by
          refine .inr (.inr (.inr ⟨fun name hname contents => ?_, fun j => ?_⟩))
          · exact (hafter name hname contents).trans (htarget _)
          · by_cases hji : j = i
            · rw [hji, Function.update_self]
              exact fun hw => by cases hw
            · rw [Function.update_of_ne hji]
              exact Role.writesOnly_of_not_holds (holds_eq_false h hholds hji)
        rcases hsupply with hjob | hdue | ⟨j, hj⟩ | ⟨_, hwrites⟩
        · exact .inl hjob
        · refine .inr (.inl (exists_update (·.isDue _ = true) hdue fun hr => ?_))
          rw [hi] at hr
          cases (Bool.and_eq_true_iff.mp hr).2
        · by_cases hji : j = i
          · subst hji
            have hf := hfresh j
            rw [hi] at hj hf
            exact hwritten (hf (beq_iff_eq.mp (Bool.and_eq_true_iff.mp hj).1) fs rfl)
          · exact .inr (.inr (.inl ⟨j, by rw [Function.update_of_ne hji]; exact hj⟩))
        · have hw := hwrites i
          rw [hi] at hw
          exact hwritten (hw rfl fs rfl)

/-- **The bouncer is recorded**, and that is announced. -/
theorem Invariant.record (h : Invariant site o files n c roles) {store : Store}
    (hstore : site.Knows store) {p : Process Orchestrator Unit}
    (hp : p.Obeys (quiet site o) fun _ => True) :
    Invariant site o files n
      (stepped site c i { c.toShared with
        state := ({ c.state with store }.announce (.firewallChanged site.firewall)).2 } (.quiet p))
      (Function.update roles i (.quiet p)) := by
  obtain ⟨position, hfollows⟩ := h.base.bus
  refine ⟨?_, ?_, ?_⟩
  · exact ⟨⟨h.base.knows.settings, h.base.knows.server, hstore⟩,
      ⟨position, Bus.publish_follows hfollows _⟩, h.base.fit, h.base.deployment, h.base.bounded,
      h.base.old, h.base.distinct, h.base.blankFree⟩
  · exact h.cast.update i (.quiet p) rfl rfl (fun _ hg => hg)
      (fun j _ hj => ⟨.refl _, h.cast.held j hj⟩) hp (fun _ hg => by cases hg) fun hr => by cases hr
  · intro _ _ _
    exact .inl (.of_publish hfollows rfl rfl)

/-- **What holds before a step of a worker holds after it.** -/
theorem Invariant.advance (h : Invariant site o files n c roles) (hfaultless : Faultless o files)
    {p p' : Process Orchestrator Unit} (hi : c.workers i = some p)
    (hstep : Advance o c.toShared p w p') :
    ∃ roles, Invariant site o files n
      { c with toShared := w, workers := Function.update c.workers i (some p') } roles := by
  have hp : (roles i).process site = some p := (h.cast.workers i).symm.trans hi
  obtain ⟨r, hr, hmoves⟩ := moves_of_advance hfaultless h.base.knows h.base.blankFree
    (h.cast.sound i) hp hstep
  refine ⟨Function.update roles i r, ?_⟩
  rw [← hr]
  generalize hbefore : roles i = before at hmoves
  cases hmoves with
  | turn hturn haside => exact h.turn (hbefore ▸ hturn) haside
  | lock hfree => exact h.lock hbefore hfree
  | upload hafter => exact h.upload hbefore hafter
  | place hafter => exact h.place hbefore hafter
  | unlock hquiet => exact h.unlock hbefore hquiet
  | record hstore hquiet => exact h.record hstore hquiet

end

end Rampart.Convergence
