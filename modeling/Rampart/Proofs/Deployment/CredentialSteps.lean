import Rampart.Proofs.Deployment.Quiet
import Rampart.Proofs.Deployment.SyncSteps
import Rampart.Proofs.Text.Piece

/-!
# Registrations and those who set credentials

The registration of an application's bouncer is the chain of its steps: after a look at a state that
knows the application, there is nothing to do, or the bouncer is registered and recorded. Its
credential is kept in two places: the engine has registered it, and the firewall has it on record.
Whoever registers the bouncer looks at the firewall, asks the engine and records what it gets, in
three steps, and anything may come in between.

* `Provision.registering`, `Provision.recording`: what is left of a registration before each step.
* `Provision.requested`, `provision_looks`: what the engine is asked for. **`provision_eq`**: the
  whole of it.
* `Registers`: engines that take the credential that they are asked to take, or issue one.
* `Scene`, `Step`, `Run`: the workers at a registration, and those who set credentials. In `Step`
  the engine is asked while no bouncer is on record, and the bouncer is recorded by the last who
  asked, if the firewall still has the credential that was found: nobody who registers a bouncer
  checks that.
* `elsewhere_announce`, `elsewhere_hearRule`: what events do to the credential.
* **`exists_run_of_undisturbed`**: a registration that nobody disturbs.
-/

namespace Rampart.Provision

/-! ## The steps of a registration -/

variable (site : Site) (k : Except Failure Unit → Process Orchestrator Unit)

/-- Before the bouncer is recorded. -/
def recording (name key : String) : Process Orchestrator Unit :=
  .atomic (fun s => (s.recordBouncer site.firewall name key).2) fun s =>
    match (s.recordBouncer site.firewall name key).1 with
    | .ok _ => .atomic (Orchestrator.tick .bouncersProvisioned) fun _ => k (.ok ())
    | .error e => k (.error e)

/-- Before the engine is asked to take the bouncer. -/
def registering (name : String) (key : Option String) : Process Orchestrator Unit :=
  .call site.server (.run (site.engine.registerCommands name key)) fun
    | .error e => k (.error e)
    | .ok output => match Engine.Client.lastLine? output with
      | some key => recording site k name key
      | none => k (.error (.transport s!"engine returned no key for bouncer {name}"))

theorem registering_eq (name : String) (key : Option String) :
    (do
      let key ← site.engine.register site.server name key
      let _ ← Task.modifyGet (·.recordBouncer site.firewall name key)
      Task.modify (·.tick .bouncersProvisioned) : Deploy.Work Unit).process.bind k =
      registering site k name key := by
  rw [Task.process_bind, Engine.Client.register, Task.process_run_bind]
  unfold registering
  congr 1
  funext answer
  cases answer with
  | error e => rfl
  | ok output =>
    simp only [Task.onward]
    cases Engine.Client.lastLine? output with
    | none => rfl
    | some key =>
      change Process.atomic _ _ = Process.atomic _ _
      congr 1
      funext s
      cases hrecord : (s.recordBouncer site.firewall name key).1 <;>
        simp [Process.bind, ExceptT.bindCont, hrecord] <;> rfl

/-- The credential that the engine is asked to take for a firewall, if it has one. -/
def requested (credential : String) : Option String :=
  let own := Text.trimmed credential
  if own.isEmpty then none else some own

/-- What follows a look at a firewall. -/
theorem provision_looks :
    ∃ next, (Deploy.provision site.firewall).process.bind k = .atomic id next ∧
      ∀ s : Orchestrator, s.KnowsSite site → ∀ firewall,
        s.store.firewalls.get? site.firewall = some firewall →
        next s = if firewall.needsBouncer then
            registering site k (bouncerName site.uuid) (requested firewall.apiKey)
          else k (.ok ()) := by
  refine ⟨_, by rw [Deploy.provision, Task.process_read_bind], ?_⟩
  intro s hs firewall hfirewall
  have hcontext := hs.contextOf hfirewall
  have hsame : (Context.of site.application firewall (s.store.rulesOf site.firewall)
    site.server).firewall = firewall := rfl
  have hengine : s.engine = site.engine := by
    rw [Orchestrator.engine, hs.settings]
    rfl
  simp only [hcontext, bind, Except.bind, pure, Except.pure, Task.onward, hsame, hengine]
  cases hneeds : firewall.needsBouncer with
  | false => rfl
  | true => exact registering_eq site k _ _

/-- **A registration** looks at the firewall: if it has its bouncer there is nothing to do, and
otherwise the bouncer is registered and recorded. -/
theorem provision_eq :
    ∃ next, (Deploy.provision site.firewall).process.bind k = .atomic id next ∧
      ∀ s : Orchestrator, s.KnowsSite site → ∀ firewall,
        s.store.firewalls.get? site.firewall = some firewall →
        (firewall.needsBouncer = false ∧ next s = k (.ok ())) ∨
        (firewall.needsBouncer = true ∧ ∃ name key, next s = registering site k name key) := by
  obtain ⟨next, heq, hnext⟩ := provision_looks site k
  refine ⟨next, heq, fun s hs firewall hfirewall => ?_⟩
  rw [hnext s hs firewall hfirewall]
  cases firewall.needsBouncer with
  | false => exact .inl ⟨rfl, rfl⟩
  | true => exact .inr ⟨rfl, _, _, rfl⟩

end Rampart.Provision

namespace Rampart.Credential

open Execution Orchestrator
open Provision (registering recording requested)

/-! ## Engines -/

/-- A credential that an engine prints on a line of its own, as it is. -/
structure IsLine (key : String) : Prop where
  line : '\n' ∉ key.toList
  trimmed : Text.trimmed key = key
  ne : key.isEmpty = false

/-- The last line of what an engine prints is the credential. -/
theorem IsLine.lastLine? {key : String} (h : IsLine key) :
    Engine.Client.lastLine? (key ++ "\n") = some key := by
  have htrim : Text.trim key.toList = key.toList := by
    rw [← Text.toList_trimmed, h.trimmed]
  have hne : key.toList ≠ [] := fun hnil => by
    have hempty : key = "" := String.toList_inj.mp hnil
    rw [hempty] at h
    exact absurd h.ne (by decide)
  have hlines : Text.lines (key ++ "\n").toList = [key.toList] := by
    rw [String.toList_append]
    exact Text.lines_of_line h.line htrim
  have hfind : ([Text.trim key.toList].reverse.find? (!·.isEmpty)) = some key.toList := by
    rw [htrim, List.reverse_singleton, List.find?_singleton, if_pos]
    rwa [Bool.not_eq_true', List.isEmpty_eq_false_iff]
  rw [Engine.Client.lastLine?, hlines, List.map_singleton, hfind, Option.map_some,
    String.ofList_toList]

/-- Of a credential with a line feed in it only the last line is recorded. -/
example : Engine.Client.lastLine? ("a\nb" ++ "\n") = some "b" := by decide +kernel

/-- What is asked for is a line, unless there is a line feed in the middle. -/
theorem isLine_of_requested {key own : String} (hline : '\n' ∉ key.toList)
    (h : requested key = some own) : IsLine own ∧ own = Text.trimmed key := by
  simp only [requested] at h
  split at h
  · cases h
  · rename_i hne
    obtain rfl := Option.some.inj h
    refine ⟨⟨fun hmem => hline ?_, Text.trimmed_trimmed key, Bool.eq_false_iff.mpr hne⟩, rfl⟩
    rw [Text.toList_trimmed] at hmem
    exact Text.mem_of_mem_trim hmem

theorem requested_of_not_blank {key : String} (h : Text.isBlankText key = false) :
    requested key = some (Text.trimmed key) := by
  rw [requested, Text.isEmpty_trimmed, h]
  rfl

variable {ρ : Type} (site : Site) (o : Outside ρ) (registered : ρ → Option String)

/-- **How an engine registers the application's bouncer**, where `registered` is the credential that
it has for it: it takes the credential that it is asked to take, or issues one, and prints it.
Nothing is known when it fails. -/
structure Registers : Prop where
  prints : ∀ key x output y,
    o.answers site.server (.run (site.engine.registerCommands (bouncerName site.uuid) key)) x
      (.ok output) y →
    ∃ credential, registered y = some credential ∧ output = credential ++ "\n" ∧
      match key with
      | some own => credential = own
      | none => IsLine credential

/-! ## Scenes and steps -/

/-- Before the engine is asked. -/
def IsAsking (p : Process Orchestrator Unit) : Prop :=
  ∃ k name key, p = registering site k name key

/-- Before the bouncer is recorded. -/
def IsRecording (p : Process Orchestrator Unit) : Prop :=
  ∃ k name key, p = recording site k name key

/-- A worker at the registration of the application's bouncer. -/
structure Hand where
  rest : Process Orchestrator Unit
  /-- The credential that it has found. -/
  seen : String := ""
  /-- How often the engine had been asked when it asked. -/
  turn : Nat := 0

/-- What the workers share, and the workers at a registration. -/
structure Scene (ρ : Type) extends Shared ρ where
  hands : List Hand := []
  /-- How often the engine was asked. -/
  turns : Nat := 0
  /-- The last credential that somebody has set. -/
  asked : Option String := none

/-- A step that does not touch the application's credential, neither here nor at the engine. -/
structure Elsewhere (w w' : Shared ρ) : Prop where
  knows : w.state.KnowsSite site → w'.state.KnowsSite site
  firewall : w'.state.store.firewalls.get? site.firewall =
    w.state.store.firewalls.get? site.firewall
  registered : registered w'.outside = registered w.outside

/-- **One step.** The engine is asked while no bouncer is on record. The bouncer is recorded by the
last who asked, and only if the firewall still has the credential that was found. -/
inductive Step : Scene ρ → Scene ρ → Prop
  | elsewhere (c : Scene ρ) {w : Shared ρ} (h : Elsewhere site registered c.toShared w) :
    Step c { c with toShared := w }
  /-- Somebody changes the firewall, and perhaps its credential. -/
  | set (c : Scene ρ) {u : FirewallUpdate} (hline : ∀ key ∈ u.apiKey, '\n' ∉ key.toList) :
    Step c
      { c with
        state := ((Request.update site.uuid u).perform c.state).2
        asked := u.apiKey <|> c.asked }
  | begin (c : Scene ρ) {e : Entry Job} (h : e.job = .provision site.firewall) :
    Step c { c with hands := ⟨works.attempt e, "", 0⟩ :: c.hands }
  | ask (c : Scene ρ) {before after : List Hand} {hand : Hand} {firewall : Firewall}
    {w : Shared ρ} {p : Process Orchestrator Unit} (hhand : c.hands = before ++ hand :: after)
    (hfirewall : c.state.store.firewalls.get? site.firewall = some firewall)
    (hasking : IsAsking site hand.rest) (hfree : firewall.bouncerName = none)
    (h : Advance o c.toShared hand.rest w p) :
    Step c
      { c with
        toShared := w
        turns := c.turns + 1
        hands := before ++ ⟨p, hand.seen, c.turns + 1⟩ :: after }
  | work (c : Scene ρ) {before after : List Hand} {hand : Hand} {firewall : Firewall}
    {w : Shared ρ} {p : Process Orchestrator Unit} (hhand : c.hands = before ++ hand :: after)
    (hfirewall : c.state.store.firewalls.get? site.firewall = some firewall)
    (hasking : ¬ IsAsking site hand.rest)
    (hrecording : IsRecording site hand.rest →
      firewall.apiKey = hand.seen ∧ hand.turn = c.turns)
    (h : Advance o c.toShared hand.rest w p) :
    Step c { c with toShared := w, hands := before ++ ⟨p, firewall.apiKey, hand.turn⟩ :: after }
  | leave (c : Scene ρ) {before after : List Hand} {seen : String} {turn : Nat}
    (hhand : c.hands = before ++ ⟨.done (), seen, turn⟩ :: after) :
    Step c { c with hands := before ++ after }

/-- Some steps. -/
inductive Run : Scene ρ → Scene ρ → Prop
  | refl (c : Scene ρ) : Run c c
  | tail {c d e : Scene ρ} (h : Run c d) (hs : Step site o registered d e) : Run c e

/-- Nobody is at a registration, and a bouncer on record is the one that the engine knows. -/
structure Beginning (c : Scene ρ) (firewall : Firewall) : Prop where
  knows : c.state.KnowsSite site
  known : c.state.store.firewalls.get? site.firewall = some firewall
  line : '\n' ∉ firewall.apiKey.toList
  hands : c.hands = []
  asked : c.asked = none
  agree : firewall.bouncerName ≠ none → registered c.outside = some firewall.apiKey

variable {site o registered}

/-! ## Changes of the firewall -/

section Changes

variable {firewall : Firewall}

theorem update_known {s : Orchestrator} (hs : s.KnowsSite site)
    (hknown : s.store.firewalls.get? site.firewall = some firewall) (u : FirewallUpdate) :
    ((Request.update site.uuid u).perform s).2.store.firewalls.get? site.firewall =
      some (firewall.update u) := by
  have hid := hs.store.numbered _ _ hknown
  simp only [Request.perform, Store.updateFirewall, Store.firewall,
    Site.firewallFor_eq hs.store hknown, hid, hknown, bind, Except.bind, pure, Except.pure,
    Table.get?_insert, if_pos]

/-- The credential of a firewall after an update, and whether its bouncer is still on record. -/
theorem update_credential (firewall : Firewall) (u : FirewallUpdate) :
    (firewall.update u).apiKey = u.apiKey.getD firewall.apiKey ∧
      ((firewall.update u).bouncerName ≠ none →
        (firewall.update u).apiKey = firewall.apiKey ∧ firewall.bouncerName ≠ none) := by
  unfold Firewall.update
  cases u.apiKey with
  | none => exact ⟨rfl, fun h => ⟨rfl, h⟩⟩
  | some key =>
    simp only [Firewall.withKey, Option.getD_some]
    split
    · rename_i hsame
      exact ⟨hsame.symm, fun h => ⟨rfl, h⟩⟩
    · exact ⟨rfl, fun h => absurd rfl h⟩

theorem recordBouncer_known {s : Orchestrator} (hs : s.KnowsSite site)
    (hknown : s.store.firewalls.get? site.firewall = some firewall) (name key : String) :
    (s.recordBouncer site.firewall name key).1 =
        .ok { firewall with apiKey := key, bouncerName := some name } ∧
      (s.recordBouncer site.firewall name key).2.KnowsSite site ∧
      (s.recordBouncer site.firewall name key).2.store.firewalls.get? site.firewall =
        some { firewall with apiKey := key, bouncerName := some name } := by
  have hid := hs.store.numbered _ _ hknown
  simp only [Orchestrator.recordBouncer, Store.recordBouncer, Store.firewall, hknown, bind,
    Except.bind, pure, Except.pure, Orchestrator.commit, Orchestrator.announce]
  refine ⟨trivial, ⟨hs.settings, hs.server, hs.store.insertFirewall hknown hid rfl⟩, ?_⟩
  rw [Table.get?_insert, if_pos rfl]

end Changes

/-! ## Events -/

/-- Steps that keep what is stored. -/
theorem elsewhere_of_eq {w : Shared ρ} {t : Orchestrator}
    (hsettings : t.settings = w.state.settings) (hregistry : t.registry = w.state.registry)
    (hstore : t.store = w.state.store) : Elsewhere site registered w { w with state := t } where
  knows h := ⟨hsettings.trans h.settings, hregistry ▸ h.server, hstore ▸ h.store⟩
  firewall := congrArg (·.firewalls.get? site.firewall) hstore
  registered := rfl

theorem elsewhere_announce (w : Shared ρ) (event : RuleEvent) :
    Elsewhere site registered w { w with state := (w.state.announce event).2 } :=
  elsewhere_of_eq rfl rfl rfl

/-- **What follows an event** plans jobs and leaves the credential alone. -/
theorem elsewhere_hearRule {w : Shared ρ} (hknows : w.state.KnowsSite site) :
    Elsewhere site registered w { w with state := Simulation.World.hearRule w.state } := by
  rcases hnext : w.state.ruleBus.next Simulation.deployer with ⟨next, after⟩
  have hread : Elsewhere site registered w { w with state := { w.state with ruleBus := after } } :=
    elsewhere_of_eq rfl rfl rfl
  have hknows' := hread.knows hknows
  obtain ⟨firewall, hfirewall⟩ := hknows'.store.firewall
  have hplanned {t : Orchestrator} {added : List Job}
      (h : Plans { w.state with ruleBus := after } t added) :
      Elsewhere site registered w { w with state := t } := by
    obtain ⟨scheduler, syncs, rfl⟩ := h.frame
    exact elsewhere_of_eq rfl rfl rfl
  simp only [Simulation.World.hearRule, hnext]
  cases next with
  | event e =>
    obtain ⟨added, hplans, _⟩ := handleEvent_plans { w.state with ruleBus := after } e
    exact hplanned hplans
  | lagged n =>
    obtain ⟨added, hplans, _⟩ := resync_spec hknows' hfirewall
    exact hplanned hplans
  | _ => exact hread

/-! ## Registrations that nobody disturbs -/

theorem Run.append {c d e : Scene ρ} (h : Run site o registered c d)
    (h' : Run site o registered d e) : Run site o registered c e := by
  induction h' with
  | refl => exact h
  | tail _ hs ih => exact .tail ih hs

theorem not_isAsking_atomic {update : Orchestrator → Orchestrator}
    {next : Orchestrator → Process Orchestrator Unit} : ¬ IsAsking site (.atomic update next) :=
  fun ⟨_, _, _, h⟩ => nomatch h

section Undisturbed

variable {b c : Scene ρ} {firewall : Firewall}

/-- An engine that prints a credential is followed by its record. -/
theorem advance_registering {w : Shared ρ} {k : Except Failure Unit → Process Orchestrator Unit}
    {name credential : String} {key : Option String} (hline : IsLine credential) {after : ρ}
    (hanswer : o.answers site.server (.run (site.engine.registerCommands name key)) w.outside
      (.ok (credential ++ "\n")) after) :
    Advance o w (registering site k name key) { w with outside := after }
      (recording site k name credential) := by
  have h : Advance o w (registering site k name key) _ _ := .call w _ hanswer
  simpa only [hline.lastLine?] using h

/-- What leaves the firewall without a bouncer does not record it. -/
theorem not_isRecording {s : Orchestrator} (hs : s.KnowsSite site)
    (hknown : s.store.firewalls.get? site.firewall = some firewall)
    (hfree : firewall.bouncerName = none) {update : Orchestrator → Orchestrator}
    {next : Orchestrator → Process Orchestrator Unit}
    (hupdate : (update s).store.firewalls.get? site.firewall =
      s.store.firewalls.get? site.firewall) : ¬ IsRecording site (.atomic update next) := by
  rintro ⟨k, name, key, h⟩
  have hsame : update s = (s.recordBouncer site.firewall name key).2 :=
    congrFun (Process.atomic.inj h).1 s
  have hrecorded := (recordBouncer_known hs hknown name key).2.2
  rw [← hsame, hupdate, hknown] at hrecorded
  have hbouncer := congrArg Firewall.bouncerName (Option.some.inj hrecorded)
  rw [hfree] at hbouncer
  cases hbouncer

/-- The only worker goes on. -/
theorem Run.onward {update : Orchestrator → Orchestrator}
    {next : Orchestrator → Process Orchestrator Unit} {seen : String} {turn : Nat}
    (h : Run site o registered b c) (hhand : c.hands = [⟨.atomic update next, seen, turn⟩])
    (hknown : c.state.store.firewalls.get? site.firewall = some firewall)
    (hrecording : IsRecording site (.atomic update next) →
      firewall.apiKey = seen ∧ turn = c.turns) :
    Run site o registered b
      { c with
        state := update c.state
        hands := [⟨next c.state, firewall.apiKey, turn⟩] } :=
  .tail h (@Step.work _ _ _ _ c [] [] _ _ _ _ hhand hknown not_isAsking_atomic hrecording
    (.atomic _ _ _))

/-- **A registration that nobody disturbs** leaves the bouncer on record with the credential that
the engine has printed. -/
theorem exists_run_of_undisturbed (hknows : c.state.KnowsSite site)
    (hknown : c.state.store.firewalls.get? site.firewall = some firewall)
    (hneeds : firewall.needsBouncer = true) (hhands : c.hands = []) {credential : String}
    (hline : IsLine credential) {after : ρ}
    (hanswer : o.answers site.server
      (.run (site.engine.registerCommands (bouncerName site.uuid) (requested firewall.apiKey)))
      c.outside (.ok (credential ++ "\n")) after) {e : Entry Job}
    (hjob : e.job = .provision site.firewall) :
    ∃ d, Run site o registered c d ∧ d.hands = [] ∧ d.asked = c.asked ∧ d.outside = after ∧
      d.state.store.firewalls.get? site.firewall = some
        { firewall with apiKey := credential, bouncerName := some (bouncerName site.uuid) } := by
  have hfree : firewall.bouncerName = none :=
    Option.isNone_iff_eq_none.mp (Bool.and_eq_true_iff.mp hneeds).2
  have hidle {update : Orchestrator → Orchestrator}
      {next : Orchestrator → Process Orchestrator Unit} {P : Prop}
      (hupdate : ∀ s, (update s).store.firewalls.get? site.firewall =
        s.store.firewalls.get? site.firewall) (h : IsRecording site (.atomic update next)) : P :=
    absurd h (not_isRecording hknows hknown hfree (hupdate _))
  have hlook {next : Orchestrator → Process Orchestrator Unit} {P : Prop} :
      IsRecording site (.atomic id next) → P := hidle fun _ => rfl
  -- It begins and looks at the firewall.
  have hbegun : Run site o registered c { c with hands := [⟨works.attempt e, "", 0⟩] } :=
    .tail (.refl c) (hhands ▸ .begin c hjob)
  rw [attempt_eq, hjob] at hbegun
  let entry := e.begin c.state.scheduler.now
  obtain ⟨next, hlooks, hnext⟩ := Provision.provision_looks site (ending entry)
  have hcalled : Run site o registered c
      { c with hands := [⟨.atomic id next, firewall.apiKey, 0⟩] } :=
    hlooks ▸ hbegun.onward rfl hknown hlook
  have hlooked := hcalled.onward rfl hknown hlook
  simp only [hnext _ hknows _ hknown, if_pos hneeds, id_eq] at hlooked
  -- It asks the engine, which prints the credential.
  have hasked := hlooked.tail
    (@Step.ask _ _ _ _ _ [] [] _ _ _ _ rfl hknown ⟨_, _, _, rfl⟩ hfree
      (advance_registering hline hanswer))
  -- It records the bouncer.
  obtain ⟨hresult, _, hknown'⟩ :=
    recordBouncer_known hknows hknown (bouncerName site.uuid) credential
  have hrecorded := hasked.onward rfl hknown fun _ => ⟨rfl, rfl⟩
  simp only [hresult] at hrecorded
  have hcounted := hrecorded.onward rfl hknown' (hidle fun _ => rfl)
  -- It ends.
  have hsettle (s : Orchestrator) : (works.settle entry (.ok ()) s).2.store.firewalls.get?
      site.firewall = s.store.firewalls.get? site.firewall :=
    (Harmless.settle (.inr fun _ h => by cases h) s).firewall
  have hended := hcounted.onward rfl hknown' (hidle hsettle)
  exact ⟨_, .tail hended (@Step.leave _ _ _ _ _ [] [] _ _ rfl), rfl, rfl, rfl,
    (hsettle _).trans hknown'⟩

end Undisturbed

end Rampart.Credential
