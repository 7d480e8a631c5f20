import Mathlib.Data.List.Induction
import Rampart.Proofs.Deployment.RedeploySteps

/-!
# What workers have to do with redeploys

The syncs of one firewall with whoever plans them and whoever carries them out, in any order; each
step leaves marks of what it has to do with redeploys.

* `Mark`, `After`: something was marked, and something else was not since.
* `Scene`, `Step`, `Run`: the state and who is at work, and the marks that steps leave behind.
* `Hand.Fits`: where a worker may stand. `Deed`: what it may do next.
* **`deed_of_move`**: every step of a worker that stands there is such a deed.
-/

namespace Rampart.Redeploy

open Accounting (Stage Move Tally Goes)

/-! ## Marks -/

/-- What a step has to do with redeploys. -/
inductive Mark
  /-- A sync was planned. -/
  | planned (redeploy : Bool)
  /-- A sync took what was due. -/
  | took
  /-- A sync asked the outside for a redeploy. -/
  | told
  /-- The newest sync has succeeded. -/
  | succeeded
deriving DecidableEq, Repr

namespace Mark

def isPlan : Mark → Bool
  | planned _ => true
  | _ => false

/-- A sync was planned that asks for a redeploy. -/
def isAsk : Mark → Bool
  | planned redeploy => redeploy
  | _ => false

def isTook : Mark → Bool
  | took => true
  | _ => false

def isTold : Mark → Bool
  | told => true
  | _ => false

def isSucceeded : Mark → Bool
  | succeeded => true
  | _ => false

end Mark

/-- There is an `x` among the marks, and no `y` after it. -/
def After (x y : Mark → Bool) (trace : List Mark) : Prop :=
  ∃ earlier m later, trace = earlier ++ m :: later ∧ x m = true ∧ ∀ n ∈ later, y n = false

section After

variable {x y z : Mark → Bool} {trace : List Mark}

theorem not_after_nil : ¬ After x y [] := by
  rintro ⟨earlier, m, later, h, -, -⟩
  cases earlier <;> cases h

theorem after_concat {m : Mark} :
    After x y (trace ++ [m]) ↔ x m = true ∨ After x y trace ∧ y m = false := by
  constructor
  · rintro ⟨earlier, n, later, h, hn, hlater⟩
    rcases later.eq_nil_or_concat with rfl | ⟨later, last, rfl⟩
    · obtain ⟨-, hlast⟩ := List.append_inj' h rfl
      rw [List.singleton_inj.mp hlast]
      exact .inl hn
    · rw [List.concat_eq_append] at h hlater
      rw [← List.cons_append, ← List.append_assoc] at h
      obtain ⟨rfl, hlast⟩ := List.append_inj' h rfl
      rw [List.singleton_inj.mp hlast]
      exact .inr ⟨⟨earlier, n, later, rfl, hn, fun k hk => hlater k (List.mem_append_left _ hk)⟩,
        hlater last (List.mem_append_right _ List.mem_cons_self)⟩
  · rintro (hm | ⟨⟨earlier, n, later, rfl, hn, hlater⟩, hm⟩)
    · exact ⟨trace, m, [], rfl, hm, fun _ h => absurd h List.not_mem_nil⟩
    · refine ⟨earlier, n, later ++ [m], by simp, hn, fun k hk => ?_⟩
      rcases List.mem_append.mp hk with hk | hk
      · exact hlater k hk
      · rwa [List.mem_singleton.mp hk]

/-- Marks of other kinds do not matter. -/
theorem after_concat_of_neither {m : Mark} (hx : x m = false) (hy : y m = false) :
    After x y (trace ++ [m]) ↔ After x y trace := by
  rw [after_concat, hx, hy]
  exact ⟨fun h => h.elim nofun fun h => h.1, fun h => .inr ⟨h, rfl⟩⟩

/-- Of two kinds of marks one comes last. -/
theorem after_or_after (h : ∃ m ∈ trace, x m = true) : After x y trace ∨ After y x trace := by
  induction trace using List.reverseRec with
  | nil =>
    obtain ⟨m, hm, -⟩ := h
    exact absurd hm List.not_mem_nil
  | append_singleton trace last ih =>
    rw [after_concat, after_concat]
    by_cases hx : x last = true
    · exact .inl (.inl hx)
    by_cases hy : y last = true
    · exact .inr (.inl hy)
    have hbefore : ∃ m ∈ trace, x m = true := by
      obtain ⟨m, hm, hxm⟩ := h
      rcases List.mem_append.mp hm with hm | hm
      · exact ⟨m, hm, hxm⟩
      · rw [List.mem_singleton.mp hm] at hxm
        exact absurd hxm hx
    rcases ih hbefore with ih | ih
    · exact .inl (.inr ⟨ih, Bool.not_eq_true _ ▸ hy⟩)
    · exact .inr (.inr ⟨ih, Bool.not_eq_true _ ▸ hx⟩)

/-- Not each of two kinds of marks comes last. -/
theorem not_after_of_after (hne : ∀ m, x m = true → z m = false)
    (hle : ∀ m, z m = true → y m = true) (h : After x y trace) : ¬ After z x trace := by
  induction trace using List.reverseRec with
  | nil => exact absurd h not_after_nil
  | append_singleton trace last ih =>
    rw [after_concat] at h ⊢
    rintro (hz | ⟨hafter, hx⟩)
    · rcases h with hx | ⟨-, hy⟩
      · rw [hne last hx] at hz
        cases hz
      · rw [hle last hz] at hy
        cases hy
    · rcases h with hx' | ⟨hbefore, -⟩
      · rw [hx] at hx'
        cases hx'
      · exact ih hbefore hafter

theorem After.mono (hle : ∀ m, z m = true → y m = true) (h : After x y trace) :
    After x z trace := by
  obtain ⟨earlier, m, later, rfl, hm, hlater⟩ := h
  refine ⟨earlier, m, later, rfl, hm, fun n hn => ?_⟩
  by_contra hz
  have hy := hle n (Bool.not_eq_false _ ▸ hz)
  rw [hlater n hn] at hy
  cases hy

end After

/-! ## Scenes and steps -/

/-- A worker at a job. -/
structure Hand where
  stage : Stage Orchestrator Job
  /-- No sync was planned since it was given the job. Only then is it at the newest sync, which is
  given to nobody before it is planned; numbers come again when they have all been used. -/
  isFresh : Bool

namespace Hand

/-- The next step of a worker at a sync of a firewall is to ask for a redeploy. -/
def owes (firewall : UInt64) (hand : Hand) : Bool :=
  match hand.stage with
  | .running e (.tell (.redeploy _ _) _) => (e.job.syncOf? firewall).isSome
  | _ => false

/-- The next step of a worker is to succeed with the newest sync of a firewall. -/
def succeeds (firewall newest : UInt64) : Hand → Bool
  | ⟨.running e (.done (.ok _)), true⟩ => e.job.syncOf? firewall = some newest
  | _ => false

/-- The next step of a worker is to take what is due for a firewall. -/
def takes (firewall : UInt64) (hand : Hand) : Prop :=
  ∃ e rest, hand.stage = .running e rest ∧ IsTake firewall rest

/-- A worker after a sync was planned. -/
def age (hand : Hand) : Hand :=
  { hand with isFresh := false }

end Hand

/-- **The marks of a worker's next step.** -/
inductive Marks (firewall : UInt64) (s : Orchestrator) (hand : Hand) : List Mark → Prop
  | take (h : hand.takes firewall) : Marks firewall s hand [.took]
  | other (h : ¬ hand.takes firewall) :
    Marks firewall s hand
      ((if hand.owes firewall then [.told] else []) ++
        if hand.succeeds firewall (s.generation firewall) then [.succeeded] else [])

/-- A state, and who is at work. -/
structure Scene where
  state : Orchestrator
  hands : List Hand := []

/-- **One step**, with its marks. -/
inductive Step (firewall : UInt64) : Scene → List Mark → Scene → Prop
  /-- Anything that leaves the syncs of the firewall alone: requests, events, time, other jobs that
  are given to the scheduler. -/
  | meanwhile (c : Scene) {s : Orchestrator} (h : Keeps firewall c.state s) :
    Step firewall c [] { c with state := s }
  | plan (c : Scene) (redeploy : Bool) :
    Step firewall c [.planned redeploy]
      ⟨(c.state.planSync firewall redeploy).2, c.hands.map Hand.age⟩
  /-- A worker is given the next job. -/
  | take (c : Scene) {e : Entry Job} {rest : Scheduler Job}
    (h : c.state.scheduler.pick? = some (e, rest)) :
    Step firewall c [] ⟨{ c.state with scheduler := rest }, ⟨.picked e, true⟩ :: c.hands⟩
  /-- A worker goes on. -/
  | work (c : Scene) {before after : List Hand} {hand : Hand} {t : Tally Job} {s : Orchestrator}
    {next : Option (Stage Orchestrator Job)} {marks : List Mark}
    (hhand : c.hands = before ++ hand :: after)
    (hmove : Move Orchestrator.works c.state hand.stage t s next)
    (hmarks : Marks firewall c.state hand marks) :
    Step firewall c marks ⟨s, before ++ (next.map (⟨·, hand.isFresh⟩)).toList ++ after⟩

/-- So many steps, and the marks of all of them. -/
inductive Run (firewall : UInt64) : Scene → List Mark → Scene → Prop
  | refl (c : Scene) : Run firewall c [] c
  | tail {c d e : Scene} {trace marks : List Mark} (h : Run firewall c trace d)
    (hs : Step firewall d marks e) : Run firewall c (trace ++ marks) e

/-- Nobody is at work, and no redeploy is due. -/
structure Beginning (firewall : UInt64) (c : Scene) : Prop where
  hands : c.hands = []
  due : (c.state.syncState firewall).redeployDue = false

/-- Nobody is at work on a sync of the firewall. -/
def Scene.IsIdle (firewall : UInt64) (c : Scene) : Prop :=
  ∀ hand ∈ c.hands, hand.stage.job.syncOf? firewall = none

/-! ## What workers may do next -/

variable {firewall : UInt64}

/-- **Where a worker may stand**, when the newest sync has a number, and what was due has been taken
since it was planned, or not. -/
inductive Hand.Fits (firewall newest : UInt64) (taken : Prop) : Hand → Prop
  | picked (e : Entry Job) (isFresh : Bool) : Fits firewall newest taken ⟨.picked e, isFresh⟩
  /-- At another job. -/
  | aside {e : Entry Job} {rest : Process Orchestrator (Except Failure Unit)} {isFresh : Bool}
    (hsync : e.job.syncOf? firewall = none) (h : rest.Changes (Keeps firewall)) :
    Fits firewall newest taken ⟨.running e rest, isFresh⟩
  /-- Before what is due is taken; the newest sync has not seen a later one. -/
  | before {e : Entry Job} {rest : Process Orchestrator (Except Failure Unit)} {isFresh : Bool}
    {generation : UInt64} {current : Bool} (hsync : e.job.syncOf? firewall = some generation)
    (h : Before firewall generation current rest)
    (hcurrent : isFresh = true → generation = newest → current = true) :
    Fits firewall newest taken ⟨.running e rest, isFresh⟩
  /-- With a redeploy to be asked for. -/
  | owing {e : Entry Job} {rest : Process Orchestrator (Except Failure Unit)} {isFresh : Bool}
    {generation : UInt64} (hsync : e.job.syncOf? firewall = some generation)
    (h : Owing firewall rest) (htaken : isFresh = true → taken) :
    Fits firewall newest taken ⟨.running e rest, isFresh⟩
  /-- Done with redeploys. -/
  | silent {e : Entry Job} {rest : Process Orchestrator (Except Failure Unit)} {isFresh : Bool}
    {generation : UInt64} (hsync : e.job.syncOf? firewall = some generation)
    (h : Silent firewall rest) (htaken : isFresh = true → taken) :
    Fits firewall newest taken ⟨.running e rest, isFresh⟩
  | reporting {e : Entry Job} {rest : Process Orchestrator Unit} {isFresh : Bool}
    (h : rest.Changes (Keeps firewall)) : Fits firewall newest taken ⟨.reporting e rest, isFresh⟩

/-- **What a step of a worker is** to the redeploys of a firewall. -/
inductive Deed (firewall : UInt64) (taken : Prop) (s : Orchestrator) (hand : Hand) :
    List Mark → Orchestrator → Option Hand → Prop
  | quiet {t : Orchestrator} {next : Option Hand} (hkeeps : Keeps firewall s t)
    (howes : hand.owes firewall = false)
    (hnext : ∀ n ∈ next, n.owes firewall = false ∧ n.Fits firewall (t.generation firewall) taken) :
    Deed firewall taken s hand [] t next
  | take {n : Hand} (howes : hand.owes firewall = false)
    (hdue : n.owes firewall = (s.takeRedeploy firewall).1)
    (hnext : ∀ newest, n.Fits firewall newest True) :
    Deed firewall taken s hand [.took] (s.takeRedeploy firewall).2 (some n)
  | tell {n : Hand} (howes : hand.owes firewall = true) (hdone : n.owes firewall = false)
    (hnext : n.Fits firewall (s.generation firewall) taken) :
    Deed firewall taken s hand [.told] s (some n)
  | succeed {t : Orchestrator} (hkeeps : Keeps firewall s t) (howes : hand.owes firewall = false)
    (htaken : taken) : Deed firewall taken s hand [.succeeded] t none

/-! ## Every step of a worker is such a deed -/

section Deeds

variable {taken : Prop} {s s' : Orchestrator} {isFresh : Bool} {e : Entry Job}

theorem eq_sync_of_syncOf? {job : Job} {generation : UInt64}
    (h : job.syncOf? firewall = some generation) : job = .sync firewall generation := by
  cases job with
  | sync other number =>
    rw [Job.syncOf?] at h
    split at h
    · rename_i hsame
      rw [hsame, Option.some.inj h]
    · cases h
  | _ => cases h

theorem Keeps.generation_eq (h : Keeps firewall s s') :
    s'.generation firewall = s.generation firewall := by
  unfold Orchestrator.generation Orchestrator.syncState
  rw [h]

theorem marks_eq_nil {hand : Hand} {marks : List Mark} (hmarks : Marks firewall s hand marks)
    (htakes : ¬ hand.takes firewall) (howes : hand.owes firewall = false)
    (hsucceeds : hand.succeeds firewall (s.generation firewall) = false) : marks = [] := by
  cases hmarks with
  | take h => exact absurd h htakes
  | other _ =>
    rw [howes, hsucceeds]
    rfl

/-- Only a running attempt has to do with redeploys. -/
theorem quiet_of_not_running {hand : Hand} {marks : List Mark} {next : Option Hand}
    (hmarks : Marks firewall s hand marks) (hstage : ∀ e rest, hand.stage ≠ .running e rest)
    (hkeeps : Keeps firewall s s')
    (hnext : ∀ n ∈ next, n.owes firewall = false ∧
      n.Fits firewall (s'.generation firewall) taken) :
    Deed firewall taken s hand marks s' next := by
  obtain ⟨stage, isFresh⟩ := hand
  have hnil : marks = [] := by
    refine marks_eq_nil hmarks (fun ⟨e, rest, h, _⟩ => hstage e rest h) ?_ ?_
    · cases stage with
      | running e rest => exact absurd rfl (hstage e rest)
      | _ => rfl
    · cases stage with
      | running e rest => exact absurd rfl (hstage e rest)
      | _ => rfl
  subst hnil
  refine .quiet hkeeps ?_ hnext
  cases stage with
  | running e rest => exact absurd rfl (hstage e rest)
  | _ => rfl

/-- An attempt begins. -/
theorem fits_begun (newest : UInt64) (now : Nat) (isFresh : Bool) :
    Hand.Fits firewall newest taken
      ⟨.running (e.begin now) (Orchestrator.handle e.job (e.attempts + 1)).process, isFresh⟩ := by
  cases hsync : e.job.syncOf? firewall with
  | none => exact .aside (e := e.begin now) hsync (changes_handle hsync _)
  | some generation =>
    have hbefore : Before firewall generation true
        (Orchestrator.handle e.job (e.attempts + 1)).process := by
      rw [eq_sync_of_syncOf? hsync]
      exact before_sync firewall generation true
    exact .before (e := e.begin now) hsync hbefore fun _ _ => rfl

/-- A process that leaves the syncs alone takes nothing. -/
theorem not_isTake_of_changes {α : Type} {p : Process Orchestrator α}
    (h : p.Changes (Keeps firewall)) : ¬ IsTake firewall p := by
  rintro ⟨next, rfl⟩
  exact not_isTake_of_keeps (fun s => (h s).1) ⟨next, rfl⟩

theorem not_isTake_of_silent {α : Type} {p : Process Orchestrator α} (h : Silent firewall p) :
    ¬ IsTake firewall p := by
  rintro ⟨next, rfl⟩
  exact not_isTake_of_keeps (fun s => (h s).1) ⟨next, rfl⟩

theorem Silent.of_goes {α : Type} {p p' : Process Orchestrator α} (h : Silent firewall p)
    (hgoes : Goes s p s' p') : Keeps firewall s s' ∧ Silent firewall p' := by
  cases hgoes with
  | atomic update next => exact h s
  | call server c next answer => exact ⟨rfl, h answer⟩
  | callAll calls next answers => exact ⟨rfl, h answers⟩
  | tell notice next answer => exact h.elim
  | clock next time => exact ⟨rfl, h time⟩
  | fresh next hname => exact ⟨rfl, h _⟩
  | wait | acquire | release => exact ⟨rfl, h⟩

/-- What a step of a sync is that has not taken what is due yet. -/
theorem Before.of_goes {generation : UInt64} {current : Bool}
    {p p' : Process Orchestrator (Except Failure Unit)} (h : Before firewall generation current p)
    (hgoes : Goes s p s' p') :
    Taking firewall p ∨ ¬ IsTake firewall p ∧ Keeps firewall s s' ∧
      ∃ still, (current = true → s.isSuperseded firewall generation = false → still = true) ∧
        Before firewall generation still p' := by
  cases hgoes with
  | atomic update next =>
    rcases h with htaking | hkeeps
    · exact .inl htaking
    · refine .inr ⟨not_isTake_of_keeps fun s => (hkeeps s).1, (hkeeps s).1, _, ?_, (hkeeps s).2⟩
      intro hcurrent hnewest
      rw [hcurrent, hnewest]
      rfl
  | call server c next answer =>
    exact .inr ⟨fun ⟨_, h⟩ => (nomatch h), rfl, current, fun hcurrent _ => hcurrent, h answer⟩
  | callAll calls next answers =>
    exact .inr ⟨fun ⟨_, h⟩ => (nomatch h), rfl, current, fun hcurrent _ => hcurrent, h answers⟩
  | tell notice next answer => exact h.elim
  | clock next time =>
    exact .inr ⟨fun ⟨_, h⟩ => (nomatch h), rfl, current, fun hcurrent _ => hcurrent, h time⟩
  | fresh next hname =>
    exact .inr ⟨fun ⟨_, h⟩ => (nomatch h), rfl, current, fun hcurrent _ => hcurrent, h _⟩
  | wait | acquire | release =>
    exact .inr ⟨fun ⟨_, h⟩ => (nomatch h), rfl, current, fun hcurrent _ => hcurrent, h⟩

variable {rest rest' : Process Orchestrator (Except Failure Unit)} {generation : UInt64}

theorem takes_running_iff :
    Hand.takes firewall ⟨.running e rest, isFresh⟩ ↔ IsTake firewall rest := by
  constructor
  · rintro ⟨_, _, heq, h⟩
    cases heq
    exact h
  · exact fun h => ⟨e, rest, rfl, h⟩

theorem owes_of_aside (hsync : e.job.syncOf? firewall = none) :
    Hand.owes firewall ⟨.running e rest, isFresh⟩ = false := by
  unfold Hand.owes
  split
  · rename_i heq
    cases heq
    rw [hsync]
    rfl
  · rfl

theorem owes_of_silent (h : Silent firewall rest) :
    Hand.owes firewall ⟨.running e rest, isFresh⟩ = false := by
  cases rest with
  | tell => exact h.elim
  | _ => rfl

theorem owes_of_before {current : Bool} (h : Before firewall generation current rest) :
    Hand.owes firewall ⟨.running e rest, isFresh⟩ = false := by
  cases rest with
  | tell => exact h.elim
  | _ => rfl

theorem owes_of_owing (hsync : e.job.syncOf? firewall = some generation)
    (h : Owing firewall rest) : Hand.owes firewall ⟨.running e rest, isFresh⟩ = true := by
  obtain ⟨application, rebuild, next, rfl, -⟩ := h
  simp only [Hand.owes, hsync]
  rfl

theorem succeeds_of_goes {newest : UInt64} (hgoes : Goes s rest s' rest') :
    Hand.succeeds firewall newest ⟨.running e rest, isFresh⟩ = false := by
  cases hgoes <;> rfl

/-- A step of an attempt that has nothing to do with redeploys. -/
theorem quiet_of_goes {marks : List Mark} (hgoes : Goes s rest s' rest')
    (hmarks : Marks firewall s ⟨.running e rest, isFresh⟩ marks) (htake : ¬ IsTake firewall rest)
    (howes : Hand.owes firewall ⟨.running e rest, isFresh⟩ = false) (hkeeps : Keeps firewall s s')
    (howes' : Hand.owes firewall ⟨.running e rest', isFresh⟩ = false)
    (hfits : Hand.Fits firewall (s'.generation firewall) taken ⟨.running e rest', isFresh⟩) :
    Deed firewall taken s ⟨.running e rest, isFresh⟩ marks s'
      (some ⟨.running e rest', isFresh⟩) := by
  have hnil := marks_eq_nil hmarks (fun h => htake (takes_running_iff.mp h)) howes
    (succeeds_of_goes hgoes)
  subst hnil
  refine .quiet hkeeps howes fun n hn => ?_
  cases hn
  exact ⟨howes', hfits⟩

theorem deed_of_before {current : Bool} {marks : List Mark}
    (hsync : e.job.syncOf? firewall = some generation)
    (h : Before firewall generation current rest)
    (hcurrent : isFresh = true → generation = s.generation firewall → current = true)
    (hgoes : Goes s rest s' rest')
    (hmarks : Marks firewall s ⟨.running e rest, isFresh⟩ marks) :
    Deed firewall taken s ⟨.running e rest, isFresh⟩ marks s'
      (some ⟨.running e rest', isFresh⟩) := by
  rcases h.of_goes hgoes with ⟨next, rfl, howing, hsilent⟩ | ⟨htake, hkeeps, still, hstill, hbefore⟩
  · obtain ⟨rfl, rfl⟩ := hgoes.of_atomic
    cases hmarks with
    | other hnot => exact absurd (takes_running_iff.mpr ⟨next, rfl⟩) hnot
    | take _ =>
      refine .take rfl ?_ fun newest => ?_
      · cases (s.takeRedeploy firewall).1 with
        | true => exact owes_of_owing hsync howing
        | false => exact owes_of_silent hsilent
      · cases (s.takeRedeploy firewall).1 with
        | true => exact .owing hsync howing fun _ => trivial
        | false => exact .silent hsync hsilent fun _ => trivial
  · refine quiet_of_goes hgoes hmarks htake (owes_of_before h) hkeeps (owes_of_before hbefore) ?_
    refine .before hsync hbefore fun hfresh hnewest => ?_
    rw [hkeeps.generation_eq] at hnewest
    refine hstill (hcurrent hfresh hnewest) ?_
    rw [hnewest, Orchestrator.isSuperseded]
    exact decide_eq_false (UInt64.lt_irrefl _)

theorem deed_of_owing {marks : List Mark} (hsync : e.job.syncOf? firewall = some generation)
    (h : Owing firewall rest) (htaken : isFresh = true → taken) (hgoes : Goes s rest s' rest')
    (hmarks : Marks firewall s ⟨.running e rest, isFresh⟩ marks) :
    Deed firewall taken s ⟨.running e rest, isFresh⟩ marks s'
      (some ⟨.running e rest', isFresh⟩) := by
  have howes : Hand.owes firewall ⟨.running e rest, isFresh⟩ = true := owes_of_owing hsync h
  obtain ⟨application, rebuild, next, rfl, hnext⟩ := h
  cases hgoes with
  | tell _ _ answer =>
    cases hmarks with
    | take htake => exact absurd (takes_running_iff.mp htake) fun ⟨_, h⟩ => nomatch h
    | other _ =>
      rw [howes]
      exact .tell howes (owes_of_silent (hnext answer)) (.silent hsync (hnext answer) htaken)

/-- What an attempt leaves behind that has ended. -/
theorem marks_of_ended {result : Except Failure Unit} {marks : List Mark}
    (hmarks : Marks firewall s ⟨.running e (.done result), isFresh⟩ marks) :
    marks = if Hand.succeeds firewall (s.generation firewall) ⟨.running e (.done result), isFresh⟩
      then [.succeeded] else [] := by
  cases hmarks with
  | take h => exact absurd (takes_running_iff.mp h) fun ⟨_, h⟩ => (nomatch h)
  | other _ => rfl

/-- An attempt that fails leaves redeploys alone. -/
theorem deed_of_error {failure : Failure} {marks : List Mark} {next : Option Hand}
    (hmarks : Marks firewall s ⟨.running e (.done (.error failure)), isFresh⟩ marks)
    (hnext : ∀ n ∈ next, n.owes firewall = false ∧ ∀ newest, n.Fits firewall newest taken) :
    Deed firewall taken s ⟨.running e (.done (.error failure)), isFresh⟩ marks
      (Orchestrator.works.settle e (.error failure) s).2 next := by
  have hnil := marks_of_ended hmarks
  simp only [Hand.succeeds, Bool.false_eq_true, if_false] at hnil
  subst hnil
  exact .quiet (keeps_settle firewall e _ s) rfl fun n hn =>
    ⟨(hnext n hn).1, (hnext n hn).2 _⟩

/-- A sync that succeeds has taken what was due, if it is the newest. -/
theorem taken_of_succeeds
    (hfits : Hand.Fits firewall (s.generation firewall) taken
      ⟨.running e (.done (.ok ())), isFresh⟩)
    (hsucceeds : Hand.succeeds firewall (s.generation firewall)
      ⟨.running e (.done (.ok ())), isFresh⟩ = true) : taken := by
  cases isFresh with
  | false => cases hsucceeds
  | true =>
    simp only [Hand.succeeds, decide_eq_true_eq] at hsucceeds
    cases hfits with
    | aside hsync _ =>
      rw [hsync] at hsucceeds
      cases hsucceeds
    | before hsync h hcurrent =>
      rw [hsync] at hsucceeds
      obtain ⟨failure, hfailure⟩ := h (hcurrent rfl (Option.some.inj hsucceeds))
      cases hfailure
    | owing _ h _ =>
      obtain ⟨_, _, _, hdone, _⟩ := h
      cases hdone
    | silent _ _ htaken => exact htaken rfl

/-- A worker that begins owes nothing. -/
theorem owes_begun (now : Nat) :
    Hand.owes firewall
      ⟨.running (e.begin now) (Orchestrator.handle e.job (e.attempts + 1)).process, isFresh⟩ =
      false := by
  cases hsync : e.job.syncOf? firewall with
  | none => exact owes_of_aside (e := e.begin now) hsync
  | some generation =>
    rw [eq_sync_of_syncOf? hsync]
    exact owes_of_before (before_sync firewall generation true)

/-- **Every step of a worker** is such a deed. -/
theorem deed_of_move {hand : Hand} {t : Tally Job} {next : Option (Stage Orchestrator Job)}
    {marks : List Mark} (hfits : hand.Fits firewall (s.generation firewall) taken)
    (hmove : Move Orchestrator.works s hand.stage t s' next)
    (hmarks : Marks firewall s hand marks) :
    Deed firewall taken s hand marks s' (next.map (⟨·, hand.isFresh⟩)) := by
  have hidle : ∀ s, Keeps firewall s s := fun _ => rfl
  obtain ⟨stage, isFresh⟩ := hand
  cases hmove with
  | begin e =>
    refine quiet_of_not_running hmarks (fun _ _ => nofun) rfl fun n hn => ?_
    cases hn
    exact ⟨owes_begun _, fits_begun _ _ isFresh⟩
  | run e hgoes _ =>
    cases hfits with
    | aside hsync h =>
      obtain ⟨hkeeps, h'⟩ := h.of_goes hidle hgoes
      exact quiet_of_goes hgoes hmarks (not_isTake_of_changes h) (owes_of_aside hsync) hkeeps
        (owes_of_aside hsync) (.aside hsync h')
    | before hsync h hcurrent => exact deed_of_before hsync h hcurrent hgoes hmarks
    | owing hsync h htaken => exact deed_of_owing hsync h htaken hgoes hmarks
    | silent hsync h htaken =>
      obtain ⟨hkeeps, h'⟩ := h.of_goes hgoes
      exact quiet_of_goes hgoes hmarks (not_isTake_of_silent h) (owes_of_silent h) hkeeps
        (owes_of_silent h') (.silent hsync h' htaken)
  | complete e =>
    have hkeeps := keeps_settle firewall e (.ok ()) s
    have hended := marks_of_ended hmarks
    split at hended
    · rename_i hsucceeds
      subst hended
      exact .succeed hkeeps rfl (taken_of_succeeds hfits hsucceeds)
    · subst hended
      exact .quiet hkeeps rfl fun _ hn => absurd hn (Option.not_mem_none _)
  | skip e _ => exact deed_of_error hmarks fun _ hn => absurd hn (Option.not_mem_none _)
  | retry e _ _ => exact deed_of_error hmarks fun _ hn => absurd hn (Option.not_mem_none _)
  | fail e _ =>
    refine deed_of_error hmarks fun n hn => ?_
    cases hn
    exact ⟨rfl, fun _ => .reporting (changes_failed firewall e.job _)⟩
  | report e hgoes _ =>
    cases hfits with
    | reporting h =>
      obtain ⟨hkeeps, h'⟩ := h.of_goes hidle hgoes
      refine quiet_of_not_running hmarks (fun _ _ => nofun) hkeeps fun n hn => ?_
      cases hn
      exact ⟨rfl, .reporting h'⟩
  | finish e =>
    exact quiet_of_not_running hmarks (fun _ _ => nofun) rfl
      fun _ hn => absurd hn (Option.not_mem_none _)

end Deeds

end Rampart.Redeploy
