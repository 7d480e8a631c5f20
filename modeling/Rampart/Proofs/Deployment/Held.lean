import Rampart.Proofs.Deployment.Sparing
import Rampart.Proofs.Execution.Contract

/-!
# What an engine holds

The decisions of one engine, and how the two jobs that are planned for a saved or deleted rule change
them side by side: one makes the decisions that are wanted, the other lifts those that are stale.

* `Reliable`: an engine that does what it is told, or answers with a failure; `Makes`: what is known
  of a decision that it makes.
* `Errand`: the two jobs; `Aim`: what is to be made and lifted.
* `Aim.Changes`, `Aim.Achieved`: what an errand may do, and what is true when it has been run.
* `Aim.Sound`: what is true of the decisions at all times.
* **`Achieved.lasts`**: neither errand undoes what one of them has achieved.
-/

namespace Rampart.Bans

open Execution

/-- **An engine that does what it is told**, seen from a site; `held` are its decisions. A change
may have been made although the answer is a failure. What it lists for an address are the decisions
whose value `covers` it. Nothing but commands about decisions changes them. -/
structure Reliable {ρ : Type} (site : Site) (o : Outside ρ) (held : ρ → List Engine.Decision)
    (covers : String → String → Bool) : Prop where
  add : ∀ (d : Decision) x answer y,
    o.answers site.server (.run [site.engine.addCommand d]) x answer y →
      (∃ e : Engine.Decision, e.value = d.ip ∧ e.scenario = d.reason ∧
        e.id ∉ (held x).map (·.id) ∧ (held y).Perm (e :: held x)) ∨
      ((∃ failure, answer = .error failure) ∧ held y = held x)
  remove : ∀ id x answer y,
    o.answers site.server (.run [site.engine.removeCommand id]) x answer y →
      held y = (held x).filter (·.id != id) ∨
      ((∃ failure, answer = .error failure) ∧ held y = held x)
  list : ∀ ip x answer y,
    o.answers site.server (.run [site.engine.listCommand ip]) x answer y →
      held y = held x ∧ ∀ output ds, answer = .ok output → Engine.decisionsIn output = some ds →
        ds.Perm ((held x).filter fun e => covers ip e.value)
  others : ∀ server c x answer y, SparesBans site.engine c → o.answers server c x answer y →
    held y = held x

/-- What is known of every decision that an engine has after it was told to add one, unless it had
it before. -/
def Makes {ρ : Type} (site : Site) (o : Outside ρ) (held : ρ → List Engine.Decision) (d : Decision)
    (fresh : Engine.Decision → Prop) : Prop :=
  ∀ x answer y, o.answers site.server (.run [site.engine.addCommand d]) x answer y →
    ∀ e ∈ held y, e ∈ held x ∨ fresh e

/-! ## Changes -/

/-- Decisions of a reason, about some addresses, are added. -/
def Grows (reason : String) (values : List String) (before after : List Engine.Decision) : Prop :=
  (∀ e ∈ before, e ∈ after) ∧
    ∀ e ∈ after, e ∈ before ∨ (e.scenario = reason ∧ e.value ∈ values)

namespace Grows

variable {reason : String} {values : List String}

theorem refl (h : List Engine.Decision) : Grows reason values h h :=
  ⟨fun _ he => he, fun _ he => .inl he⟩

theorem trans {a b c : List Engine.Decision} (h : Grows reason values a b)
    (h' : Grows reason values b c) : Grows reason values a c := by
  refine ⟨fun e he => h'.1 e (h.1 e he), fun e he => ?_⟩
  rcases h'.2 e he with hb | hnew
  · exact h.2 e hb
  · exact .inr hnew

end Grows

/-- The jobs that change what an engine holds. -/
inductive Errand
  | apply
  | lift
deriving DecidableEq

/-- The other one. -/
def Errand.other : Errand → Errand
  | apply => lift
  | lift => apply

/-- What is to become of the decisions of one reason. -/
structure Aim where
  reason : String
  /-- The addresses that are to be banned. -/
  wanted : List String
  /-- The addresses that were banned before and are not to be any more. -/
  stale : List String
  /-- What the engine held before. -/
  before : List Engine.Decision
  /-- What is known of a decision that is made. -/
  fresh : Engine.Decision → Prop
  disjoint : ∀ v ∈ wanted, v ∉ stale

namespace Aim

variable {aim : Aim}

/-- What an errand may do. -/
def Changes (aim : Aim) : Errand → List Engine.Decision → List Engine.Decision → Prop
  | .apply, h, h' => Grows aim.reason aim.wanted h h'
  | .lift, h, h' => Grows aim.reason aim.stale h' h

theorem Changes.refl (a : Errand) (h : List Engine.Decision) : aim.Changes a h h := by
  cases a with
  | apply => exact Grows.refl h
  | lift => exact Grows.refl h

theorem Changes.trans {a : Errand} {h h' h'' : List Engine.Decision} (hfirst : aim.Changes a h h')
    (hsecond : aim.Changes a h' h'') : aim.Changes a h h'' := by
  cases a with
  | apply => exact Grows.trans hfirst hsecond
  | lift => exact Grows.trans hsecond hfirst

/-- A decision of the reason about an address is held. -/
def Has (aim : Aim) (h : List Engine.Decision) (v : String) : Prop :=
  ∃ e ∈ h, e.scenario = aim.reason ∧ e.value = v

/-- What is true when an errand has been run. -/
def Achieved (aim : Aim) : Errand → List Engine.Decision → Prop
  | .apply, h => ∀ v ∈ aim.wanted, aim.Has h v
  | .lift, h => ∀ v ∈ aim.stale, ¬ aim.Has h v

/-- What is wanted and held stays, whatever the errands do. -/
theorem Has.lasts {h h' : List Engine.Decision} {v : String} (hv : v ∈ aim.wanted)
    (hhas : aim.Has h v) {a : Errand} (hchanges : aim.Changes a h h') : aim.Has h' v := by
  obtain ⟨e, he, hreason, rfl⟩ := hhas
  cases a with
  | apply => exact ⟨e, hchanges.1 e he, hreason, rfl⟩
  | lift =>
    rcases hchanges.2 e he with hstays | ⟨_, hstale⟩
    · exact ⟨e, hstays, hreason, rfl⟩
    · exact absurd hstale (aim.disjoint _ hv)

/-- What is stale and not held does not come back. -/
theorem Has.stays_out {h h' : List Engine.Decision} {v : String} (hv : v ∈ aim.stale)
    (hnot : ¬ aim.Has h v) {a : Errand} (hchanges : aim.Changes a h h') : ¬ aim.Has h' v := by
  rintro ⟨e, he, hreason, rfl⟩
  cases a with
  | apply =>
    rcases hchanges.2 e he with hbefore | ⟨_, hwanted⟩
    · exact hnot ⟨e, hbefore, hreason, rfl⟩
    · exact aim.disjoint _ hwanted hv
  | lift => exact hnot ⟨e, hchanges.1 e he, hreason, rfl⟩

/-- **Neither errand undoes what one of them has achieved.** -/
theorem Achieved.lasts {h h' : List Engine.Decision} {a b : Errand} (hdone : aim.Achieved a h)
    (hchanges : aim.Changes b h h') : aim.Achieved a h' := by
  cases a with
  | apply => exact fun v hv => (hdone v hv).lasts hv hchanges
  | lift => exact fun v hv => Has.stays_out hv (hdone v hv) hchanges

/-- **What is true of the decisions at all times.** Every decision has a number of its own; those
of other reasons stay as they are, and so do those of the reason that are wanted; and no address is
banned twice for the reason. -/
structure Sound (aim : Aim) (h : List Engine.Decision) : Prop where
  numbers : (h.map (·.id)).Nodup
  others : ∀ e, e.scenario ≠ aim.reason → (e ∈ h ↔ e ∈ aim.before)
  once : ∀ e ∈ h, ∀ f ∈ h, e.scenario = aim.reason → f.scenario = aim.reason →
    e.value = f.value → e = f
  within : ∀ v, aim.Has h v → v ∈ aim.wanted ∨ v ∈ aim.stale
  kept : ∀ e ∈ aim.before, e.scenario = aim.reason → e.value ∈ aim.wanted → e ∈ h
  made : ∀ e ∈ h, e.scenario = aim.reason → e ∈ aim.before ∨ aim.fresh e

namespace Sound

variable {h h' : List Engine.Decision}

/-- A decision that is made where there is none. -/
theorem add (hs : aim.Sound h) {e : Engine.Decision} (hreason : e.scenario = aim.reason)
    (hwanted : e.value ∈ aim.wanted) (hfresh : aim.fresh e) (hnot : ¬ aim.Has h e.value)
    (hid : e.id ∉ h.map (·.id)) (hperm : h'.Perm (e :: h)) :
    aim.Changes .apply h h' ∧ aim.Sound h' ∧ aim.Has h' e.value := by
  have hmem : ∀ f, f ∈ h' ↔ f = e ∨ f ∈ h := fun f => hperm.mem_iff.trans List.mem_cons
  refine ⟨⟨fun f hf => (hmem f).mpr (.inr hf), fun f hf => ?_⟩,
    ⟨?_, ?_, ?_, ?_, fun f hf hfr hfv => (hmem f).mpr (.inr (hs.kept f hf hfr hfv)),
      fun f hf hfr => ?_⟩,
    ⟨e, (hmem e).mpr (.inl rfl), hreason, rfl⟩⟩
  · rcases (hmem f).mp hf with rfl | hf
    · exact .inr ⟨hreason, hwanted⟩
    · exact .inl hf
  · refine (hperm.map (·.id)).nodup_iff.mpr ?_
    rw [List.map_cons]
    exact List.nodup_cons.mpr ⟨hid, hs.numbers⟩
  · intro f hf
    rw [hmem f, ← hs.others f hf]
    exact or_iff_right fun heq => hf (heq ▸ hreason)
  · intro f hf g hg hfr hgr hvalue
    rcases (hmem f).mp hf with rfl | hf <;> rcases (hmem g).mp hg with rfl | hg
    · rfl
    · exact absurd ⟨g, hg, hgr, hvalue.symm⟩ hnot
    · exact absurd ⟨f, hf, hfr, hvalue⟩ hnot
    · exact hs.once f hf g hg hfr hgr hvalue
  · rintro v ⟨f, hf, hfr, rfl⟩
    rcases (hmem f).mp hf with rfl | hf
    · exact .inl hwanted
    · exact hs.within _ ⟨f, hf, hfr, rfl⟩
  · rcases (hmem f).mp hf with rfl | hf
    · exact .inr hfresh
    · exact hs.made f hf hfr

/-- A stale decision that is lifted; no other one is. -/
theorem remove (hs : aim.Sound h) {e : Engine.Decision} (he : e ∈ h)
    (hreason : e.scenario = aim.reason) (hstale : e.value ∈ aim.stale)
    (hh' : h' = h.filter (·.id != e.id)) :
    aim.Changes .lift h h' ∧ aim.Sound h' ∧ ∀ f, f ∈ h' ↔ f ∈ h ∧ f ≠ e := by
  have hmem : ∀ f, f ∈ h' ↔ f ∈ h ∧ f ≠ e := by
    intro f
    rw [hh', List.mem_filter, bne_iff_ne]
    refine and_congr_right fun hf => not_congr ⟨fun hid => ?_, fun heq => heq ▸ rfl⟩
    exact List.inj_on_of_nodup_map hs.numbers hf he hid
  refine ⟨⟨fun f hf => ((hmem f).mp hf).1, fun f hf => ?_⟩,
    ⟨?_, ?_, ?_, ?_, fun f hf hfr hfv => (hmem f).mpr ⟨hs.kept f hf hfr hfv, ?_⟩,
      fun f hf => hs.made f ((hmem f).mp hf).1⟩, hmem⟩
  · by_cases hfe : f = e
    · exact .inr (hfe ▸ ⟨hreason, hstale⟩)
    · exact .inl ((hmem f).mpr ⟨hf, hfe⟩)
  · rw [hh']
    exact hs.numbers.sublist (List.filter_sublist.map _)
  · intro f hf
    rw [hmem f, ← hs.others f hf]
    exact and_iff_left fun heq => hf (heq ▸ hreason)
  · exact fun f hf g hg => hs.once f ((hmem f).mp hf).1 g ((hmem g).mp hg).1
  · rintro v ⟨f, hf, hfr, hv⟩
    exact hs.within v ⟨f, ((hmem f).mp hf).1, hfr, hv⟩
  · rintro rfl
    exact aim.disjoint _ hfv hstale

/-- **When both errands have been run**, exactly what is wanted is held. -/
theorem has_iff (hs : aim.Sound h) (hdone : ∀ a, aim.Achieved a h) (v : String) :
    aim.Has h v ↔ v ∈ aim.wanted := by
  refine ⟨fun hhas => ?_, hdone .apply v⟩
  exact (hs.within v hhas).resolve_right fun hstale => hdone .lift v hstale hhas

end Sound

end Aim

/-! ## The contract -/

/-- What an errand may rely on, and what it guarantees, while the store stays as it is. -/
def contract {ρ : Type} (site : Site) (held : ρ → List Engine.Decision) (store : Store) (aim : Aim)
    (a : Errand) : Contract ρ where
  state s := s.KnowsSite site ∧ s.store = store
  change := Unnoticed
  idle := Unnoticed.refl
  sound x := aim.Sound (held x)
  rely x y := aim.Changes a.other (held x) (held y)
  refl x := .refl _ (held x)
  trans _ _ _ := .trans
  guarantee x y := aim.Changes a (held x) (held y)
  still x := .refl _ (held x)

end Rampart.Bans
