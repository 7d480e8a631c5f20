import Rampart.Proofs.Deployment.BanConvergence
import Rampart.Proofs.Deployment.CredentialSteps
import Rampart.Proofs.Deployment.Frame

/-!
# The credential of a bouncer

Where the engine is asked only while no bouncer is on record, and a bouncer is recorded only by the
last who asked and for the credential that was found, the engine and the firewall have the same
credential, and it is the last that was set. Nobody who registers a bouncer checks either.

* `Inv`, **`Inv.step`**: what is true at all times.
* **`credentials_agree`**: both places have the same credential.
* **`new_credential_is_lost`**, `credentials_differ`: what becomes of credentials that are set while
  the bouncer is registered.
-/

namespace Rampart.Credential

open Execution Orchestrator
open Provision (registering recording requested)

variable {ρ : Type} (site : Site) (o : Outside ρ) (registered : ρ → Option String)

/-! ## Workers -/

/-- To leave the application's credential alone. -/
def calm : Discipline where
  state s := s.KnowsSite site
  change := Harmless site
  idle := Harmless.refl
  call _ _ := False
  answer _ _ _ := True
  lock _ := True

/-- **Where a worker may stand**, when the engine was asked so often and has a credential. -/
inductive Hand.Fits (turns : Nat) (credential : Option String) : Hand → Prop
  | calling {e : Entry Job} {seen : String} {turn : Nat} (h : e.job = .provision site.firewall) :
    Fits turns credential ⟨works.attempt e, seen, turn⟩
  | looking {e : Entry Job} {seen : String} {turn : Nat} (h : e.job = .provision site.firewall) :
    Fits turns credential
      ⟨(Deploy.provision site.firewall).process.bind (ending e), seen, turn⟩
  | asking {e : Entry Job} {seen : String} {turn : Nat} (h : e.job = .provision site.firewall)
    (hline : '\n' ∉ seen.toList) :
    Fits turns credential
      ⟨registering site (ending e) (bouncerName site.uuid) (requested seen), seen, turn⟩
  | recording {e : Entry Job} {key seen : String} {turn : Nat}
    (h : e.job = .provision site.firewall) (hline : '\n' ∉ key.toList)
    (hkey : ∀ own, requested seen = some own → key = own) (hturn : turn ≤ turns)
    (hregistered : turn = turns → credential = some key) :
    Fits turns credential
      ⟨Provision.recording site (ending e) (bouncerName site.uuid) key, seen, turn⟩
  | aside {p : Process Orchestrator Unit} {seen : String} {turn : Nat}
    (h : p.Obeys (calm site) fun _ => True) : Fits turns credential ⟨p, seen, turn⟩

/-! ## What is true at all times -/

/-- **What is true at all times.** -/
structure Inv (c : Scene ρ) (firewall : Firewall) : Prop where
  knows : c.state.KnowsSite site
  known : c.state.store.firewalls.get? site.firewall = some firewall
  line : '\n' ∉ firewall.apiKey.toList
  fits : ∀ hand ∈ c.hands, hand.Fits site c.turns (registered c.outside)
  agree : firewall.bouncerName ≠ none → registered c.outside = some firewall.apiKey
  asked : ∀ key, c.asked = some key → Text.isBlankText key = false →
    Text.trimmed firewall.apiKey = Text.trimmed key

variable {site o registered}

theorem inv_of_beginning {c : Scene ρ} {firewall : Firewall}
    (h : Beginning site registered c firewall) : Inv site registered c firewall where
  knows := h.knows
  known := h.known
  line := h.line
  fits hand hhand := by
    rw [h.hands] at hhand
    cases hhand
  agree := h.agree
  asked key hkey := by
    rw [h.asked] at hkey
    cases hkey

section Steps

variable {c : Scene ρ} {firewall : Firewall}

theorem Inv.elsewhere (h : Inv site registered c firewall) {w : Shared ρ}
    (hw : Elsewhere site registered c.toShared w) :
    Inv site registered { c with toShared := w } firewall where
  knows := hw.knows h.knows
  known := hw.firewall.trans h.known
  line := h.line
  fits := by
    have hfits := h.fits
    rwa [← hw.registered] at hfits
  agree hbouncer := hw.registered.trans (h.agree hbouncer)
  asked := h.asked

/-! ### Credentials that are set -/

theorem Inv.set (h : Inv site registered c firewall) {u : FirewallUpdate}
    (hline : ∀ key ∈ u.apiKey, '\n' ∉ key.toList) :
    Inv site registered
      { c with
        state := ((Request.update site.uuid u).perform c.state).2
        asked := u.apiKey <|> c.asked }
      (firewall.update u) where
  knows := h.knows.perform rfl
  known := update_known h.knows h.known u
  line := by
    rw [(update_credential firewall u).1]
    cases hkey : u.apiKey with
    | none => exact h.line
    | some key => exact hline key hkey
  fits := h.fits
  agree hbouncer := by
    obtain ⟨hsame, hbefore⟩ := (update_credential firewall u).2 hbouncer
    rw [hsame]
    exact h.agree hbefore
  asked key hkey hblank := by
    rw [(update_credential firewall u).1]
    cases hset : u.apiKey with
    | none =>
      rw [hset] at hkey
      exact h.asked key hkey hblank
    | some own =>
      rw [hset] at hkey
      rw [Option.some.inj hkey]
      rfl

/-! ### Workers that ask -/

variable {turns : Nat} {credential : Option String} {hand : Hand}

/-- After the engine was asked. -/
theorem Hand.Fits.mono (h : hand.Fits site turns credential) {turns' : Nat}
    (hturns : turns < turns') (credential' : Option String) :
    hand.Fits site turns' credential' := by
  cases h with
  | calling h => exact .calling h
  | looking h => exact .looking h
  | asking h hline => exact .asking h hline
  | recording h hline hkey hturn _ =>
    have hbefore := Nat.lt_of_le_of_lt hturn hturns
    exact .recording h hline hkey (Nat.le_of_lt hbefore) fun heq =>
      absurd heq (Nat.ne_of_lt hbefore)
  | aside h => exact .aside h

/-- The end of an attempt leaves the credential alone. -/
theorem obeys_ending {e : Entry Job} (h : e.job = .provision site.firewall)
    (result : Except Failure Unit) : (ending e result).Obeys (calm site) fun _ => True := by
  have hjob : e.job.IsDeployment ∧ e.job.syncOf? site.firewall = none := by
    rw [h]
    exact ⟨trivial, rfl⟩
  exact ending_obeys (Quiet.failed_eq hjob.1) (fun s _ => Harmless.settle (.inl hjob) s)
    fun s _ => Harmless.finish s

/-- Who asks the engine has looked at the firewall. -/
theorem Hand.Fits.of_isAsking (h : hand.Fits site turns credential)
    (hasking : IsAsking site hand.rest) :
    ∃ e : Entry Job, e.job = .provision site.firewall ∧ '\n' ∉ hand.seen.toList ∧
      hand.rest = registering site (ending e) (bouncerName site.uuid) (requested hand.seen) := by
  cases h with
  | calling h => exact absurd hasking not_isAsking_atomic
  | @looking e _ _ h =>
    obtain ⟨next, hlooks, _⟩ := Provision.provision_looks site (ending e)
    rw [hlooks] at hasking
    exact absurd hasking not_isAsking_atomic
  | @asking e _ _ h hline => exact ⟨e, h, hline, rfl⟩
  | recording => exact absurd hasking not_isAsking_atomic
  | aside h =>
    obtain ⟨k, name, key, rfl⟩ := hasking
    exact h.1.elim

/-- What the engine answers is what it has registered. -/
theorem fits_answered (hengine : Registers site o registered) {e : Entry Job}
    (hjob : e.job = .provision site.firewall) {seen : String} (hline : '\n' ∉ seen.toList)
    {w w' : Shared ρ} {p : Process Orchestrator Unit}
    (h : Advance o w
      (registering site (ending e) (bouncerName site.uuid) (requested seen)) w' p) :
    w'.state = w.state ∧ Hand.Fits site turns (registered w'.outside) ⟨p, seen, turns⟩ := by
  obtain ⟨answer, after, hanswer, rfl, rfl⟩ := h.of_call
  refine ⟨rfl, ?_⟩
  cases answer with
  | error failure => exact .aside (obeys_ending hjob _)
  | ok output =>
    obtain ⟨key, hregistered, rfl, hkey⟩ := hengine.prints _ _ _ _ hanswer
    have hown : IsLine key ∧ ∀ own, requested seen = some own → key = own := by
      cases hrequested : requested seen with
      | none =>
        rw [hrequested] at hkey
        exact ⟨hkey, nofun⟩
      | some own =>
        rw [hrequested] at hkey
        obtain rfl : key = own := hkey
        exact ⟨(isLine_of_requested hline hrequested).1, fun _ => Option.some.inj⟩
    simp only [hown.1.lastLine?]
    exact .recording hjob hown.1.line hown.2 (Nat.le_refl _) fun _ => hregistered

/-- One worker stands somewhere else. -/
theorem Inv.replace (h : Inv site registered c firewall) {before after : List Hand}
    (hhand : c.hands = before ++ hand :: after) {new : Hand}
    (hnew : new.Fits site c.turns (registered c.outside)) :
    Inv site registered { c with hands := before ++ new :: after } firewall := by
  refine ⟨h.knows, h.known, h.line, fun other hother => ?_, h.agree, h.asked⟩
  rcases List.mem_append.mp hother with hother | hother
  · exact h.fits other (hhand ▸ List.mem_append_left _ hother)
  rcases List.mem_cons.mp hother with rfl | hother
  · exact hnew
  · exact h.fits other (hhand ▸ List.mem_append_right _ (List.mem_cons_of_mem _ hother))

/-- While no bouncer is on record the engine may have any credential. -/
theorem Inv.asked_again (h : Inv site registered c firewall) (hfree : firewall.bouncerName = none)
    {w : Shared ρ} (hstate : w.state = c.state) :
    Inv site registered { c with toShared := w, turns := c.turns + 1 } firewall where
  knows := hstate ▸ h.knows
  known := hstate ▸ h.known
  line := h.line
  fits hand hhand := (h.fits hand hhand).mono (Nat.lt_succ_self _) _
  agree hbouncer := absurd hfree hbouncer
  asked := h.asked

theorem Inv.ask (hengine : Registers site o registered) (h : Inv site registered c firewall)
    {before after : List Hand} (hhand : c.hands = before ++ hand :: after)
    (hasking : IsAsking site hand.rest) (hfree : firewall.bouncerName = none) {w : Shared ρ}
    {p : Process Orchestrator Unit} (hadvance : Advance o c.toShared hand.rest w p) :
    Inv site registered
      { c with
        toShared := w
        turns := c.turns + 1
        hands := before ++ ⟨p, hand.seen, c.turns + 1⟩ :: after } firewall := by
  have hfits := h.fits hand (hhand ▸ List.mem_append_right _ List.mem_cons_self)
  obtain ⟨e, hjob, hline, hrest⟩ := hfits.of_isAsking hasking
  rw [hrest] at hadvance
  obtain ⟨hstate, hp⟩ : w.state = c.state ∧
      Hand.Fits site (c.turns + 1) (registered w.outside) ⟨p, hand.seen, c.turns + 1⟩ :=
    fits_answered hengine hjob hline hadvance
  exact (h.asked_again hfree hstate).replace hhand hp

/-! ### Workers that do anything else -/

variable (site o registered) in
/-- **What a worker does that does not ask the engine.** -/
inductive Worked (w : Shared ρ) (firewall : Firewall) : Shared ρ → Firewall → Prop
  | elsewhere {w' : Shared ρ} (h : Elsewhere site registered w w') : Worked w firewall w' firewall
  /-- What the engine has registered is recorded. -/
  | recorded {w' : Shared ρ} {key : String} (hline : '\n' ∉ key.toList)
    (hkey : ∀ own, requested firewall.apiKey = some own → key = own)
    (hregistered : registered w.outside = some key) (hknows : w'.state.KnowsSite site)
    (hknown : w'.state.store.firewalls.get? site.firewall =
      some { firewall with apiKey := key, bouncerName := some (bouncerName site.uuid) })
    (houtside : w'.outside = w.outside) :
    Worked w firewall w'
      { firewall with apiKey := key, bouncerName := some (bouncerName site.uuid) }

theorem elsewhere_refl (w : Shared ρ) : Elsewhere site registered w w :=
  ⟨id, rfl, rfl⟩

theorem eq_of_touched {x y : ρ} (h : Touched o (calm site) x y) : y = x := by
  cases h with
  | refl => rfl
  | head hcall _ _ => exact hcall.elim

/-- A process that leaves the application's credential alone. -/
theorem work_aside {w w' : Shared ρ} {p p' : Process Orchestrator Unit}
    (hknows : w.state.KnowsSite site) (h : p.Obeys (calm site) fun _ => True)
    (hadvance : Advance o w p w' p') :
    Elsewhere site registered w w' ∧ p'.Obeys (calm site) fun _ => True := by
  obtain ⟨hdisciplined, hp'⟩ :=
    Obeys.of_advance (d := calm site) (fun _ _ _ _ _ _ => trivial) h hknows hadvance
  exact ⟨⟨Convergence.knowsSite_of_harmless hdisciplined.state, hdisciplined.state.firewall,
    congrArg registered (eq_of_touched hdisciplined.outside)⟩, hp'⟩

theorem Hand.Fits.work {w w' : Shared ρ} {p : Process Orchestrator Unit}
    (h : hand.Fits site turns (registered w.outside)) (hknows : w.state.KnowsSite site)
    (hknown : w.state.store.firewalls.get? site.firewall = some firewall)
    (hline : '\n' ∉ firewall.apiKey.toList) (hasking : ¬ IsAsking site hand.rest)
    (hrecording : IsRecording site hand.rest → firewall.apiKey = hand.seen ∧ hand.turn = turns)
    (hadvance : Advance o w hand.rest w' p) :
    ∃ firewall', Worked site registered w firewall w' firewall' ∧
      Hand.Fits site turns (registered w'.outside) ⟨p, firewall.apiKey, hand.turn⟩ := by
  cases h with
  | @calling e _ _ h =>
    have hadvance : Advance o w (works.attempt e) w' p := hadvance
    rw [attempt_eq, h] at hadvance
    obtain ⟨rfl, rfl⟩ := hadvance.of_atomic
    refine ⟨firewall, .elsewhere (elsewhere_refl w), ?_⟩
    exact .looking (e := e.begin w.state.scheduler.now) h
  | @looking e _ _ h =>
    obtain ⟨next, hlooks, hnext⟩ := Provision.provision_looks site (ending e)
    rw [hlooks] at hadvance
    obtain ⟨rfl, rfl⟩ := hadvance.of_atomic
    refine ⟨firewall, .elsewhere (elsewhere_refl w), ?_⟩
    rw [hnext _ hknows _ hknown]
    split
    · exact .asking h hline
    · exact .aside (obeys_ending h _)
  | asking => exact absurd ⟨_, _, _, rfl⟩ hasking
  | @recording e key seen turn h hkeyline hkey _ hregistered =>
    obtain ⟨hsame, hlast⟩ := hrecording ⟨_, _, _, rfl⟩
    obtain ⟨rfl, rfl⟩ := Advance.of_atomic hadvance
    obtain ⟨hresult, hknows', hknown'⟩ :=
      recordBouncer_known hknows hknown (bouncerName site.uuid) key
    refine ⟨_, .recorded hkeyline (hsame ▸ hkey) (hregistered hlast) hknows' hknown' rfl, ?_⟩
    rw [hresult]
    exact .aside fun s _ => ⟨Harmless.count s _ _, obeys_ending h _⟩
  | aside h =>
    obtain ⟨helsewhere, hp⟩ := work_aside hknows h hadvance
    exact ⟨firewall, .elsewhere helsewhere, .aside hp⟩

theorem Inv.worked (h : Inv site registered c firewall) {w : Shared ρ} {firewall' : Firewall}
    (hw : Worked site registered c.toShared firewall w firewall') :
    Inv site registered { c with toShared := w } firewall' := by
  cases hw with
  | elsewhere hw => exact h.elsewhere hw
  | recorded hline hkey hregistered hknows hknown houtside =>
    refine ⟨hknows, hknown, hline, ?_, fun _ => ?_, fun key hasked hblank => ?_⟩
    · have hfits := h.fits
      rwa [← houtside] at hfits
    · exact houtside ▸ hregistered
    · -- The credential that was set last is the one that was found.
      have hsame := h.asked key hasked hblank
      have hfound : Text.isBlankText firewall.apiKey = false := by
        rw [← Text.isEmpty_trimmed, hsame, Text.isEmpty_trimmed, hblank]
      rw [hkey _ (requested_of_not_blank hfound), Text.trimmed_trimmed, hsame]

end Steps

/-- **Every step** keeps what is true at all times. -/
theorem Inv.step (hengine : Registers site o registered) {c d : Scene ρ} {firewall : Firewall}
    (h : Inv site registered c firewall) (hs : Step site o registered c d) :
    ∃ firewall', Inv site registered d firewall' := by
  cases hs with
  | elsewhere hw => exact ⟨firewall, h.elsewhere hw⟩
  | set hline => exact ⟨_, h.set hline⟩
  | begin hjob =>
    refine ⟨firewall, h.knows, h.known, h.line, fun hand hhand => ?_, h.agree, h.asked⟩
    rcases List.mem_cons.mp hhand with rfl | hhand
    · exact .calling hjob
    · exact h.fits hand hhand
  | ask hhand hknown hasking hfree hadvance =>
    obtain rfl := Option.some.inj (h.known.symm.trans hknown)
    exact ⟨firewall, h.ask hengine hhand hasking hfree hadvance⟩
  | @work before after hand _ w p hhand hknown hasking hrecording hadvance =>
    obtain rfl := Option.some.inj (h.known.symm.trans hknown)
    have hfits := h.fits hand (hhand ▸ List.mem_append_right _ List.mem_cons_self)
    obtain ⟨firewall', hworked, hp⟩ :=
      hfits.work h.knows h.known h.line hasking hrecording hadvance
    exact ⟨firewall', (h.worked hworked).replace hhand hp⟩
  | leave hhand =>
    refine ⟨firewall, h.knows, h.known, h.line, fun hand hmem => h.fits hand ?_, h.agree, h.asked⟩
    rw [hhand]
    rcases List.mem_append.mp hmem with hmem | hmem
    · exact List.mem_append_left _ hmem
    · exact List.mem_append_right _ (List.mem_cons_of_mem _ hmem)

theorem Run.inv (hengine : Registers site o registered) {c d : Scene ρ} {firewall : Firewall}
    (hc : Beginning site registered c firewall) (h : Run site o registered c d) :
    ∃ firewall', Inv site registered d firewall' := by
  induction h with
  | refl => exact ⟨firewall, inv_of_beginning hc⟩
  | tail _ hs ih =>
    obtain ⟨_, hinv⟩ := ih
    exact hinv.step hengine hs

/-! ## Credentials -/

/-- **Both places have the same credential.** Let the engine be asked only while no bouncer is on
record, and a bouncer be recorded only by the last who asked and for the credential that was found.
Then a bouncer that is on record has the credential that the engine has registered, at all times;
and where the last credential that somebody has set is not blank the firewall has it, but for blanks
at its ends. -/
theorem credentials_agree (hengine : Registers site o registered) {c d : Scene ρ}
    {initial : Firewall} (hc : Beginning site registered c initial)
    (hrun : Run site o registered c d) :
    ∃ firewall, d.state.store.firewalls.get? site.firewall = some firewall ∧
      (firewall.bouncerName ≠ none → registered d.outside = some firewall.apiKey) ∧
      ∀ key, d.asked = some key → Text.isBlankText key = false →
        Text.trimmed firewall.apiKey = Text.trimmed key := by
  obtain ⟨firewall, h⟩ := hrun.inv hengine hc
  exact ⟨firewall, h.known, h.agree, h.asked⟩

namespace Demo

open Bans.Demo (arguments? arguments?_command)

/-- The credential that a call asks the engine to take, if it registers a bouncer and there is
one. -/
def asks? : Remote.Call → Option (Option String)
  | .run [_, line] => match arguments? line with
    | some ["bouncers", "add", _, "-o", "raw"] => some none
    | some ["bouncers", "add", _, "--key", key, "-o", "raw"] => some (some key)
    | _ => none
  | _ => none

/-- An engine that takes any credential, and issues the same one whenever it is to issue one. -/
def engine : Oracle (Option String) := fun _ c answer registered =>
  match asks? c with
  | some key => match answer with
    | .ok output =>
      if output = key.getD "issued" ++ "\n" then some (some (key.getD "issued")) else none
    | .error _ => some registered
  | none => some registered

theorem asks?_register (name : String) (key : Option String) :
    asks? (.run (Shop.site.engine.registerCommands name key)) = some key := by
  cases key <;> simp only [asks?, Engine.Client.registerCommands, arguments?_command] <;> rfl

theorem registers : Registers Shop.site engine.outside id where
  prints key x output y h := by
    simp only [Oracle.outside, engine, asks?_register] at h
    split at h
    · rename_i houtput
      refine ⟨_, (Option.some.inj h).symm, houtput, ?_⟩
      cases key with
      | some own => rfl
      | none => exact ⟨by decide +kernel, by decide +kernel, by decide +kernel⟩
    · cases h

/-- The application's bouncer is on record, and the engine knows it. -/
def known : Shared (Option String) where
  state := Shop.state
  held := []
  outside := some "k"

/-- Nobody is at a registration. -/
def settled : Scene (Option String) :=
  { known with }

theorem beginning : Beginning Shop.site id settled Shop.firewall :=
  ⟨Shop.knows, rfl, by decide, rfl, rfl, fun _ => rfl⟩

/-- Somebody sets a credential. -/
def setting (key : String) : FirewallUpdate where
  apiKey := some key

def renewal (key : String) : Request :=
  .update "abc" (setting key)

/-- The event of a new credential has been announced. -/
def announced : Shared (Option String) :=
  { known with
    state := (((renewal "new").perform Shop.state).2.announce (.firewallChanged 1)).2 }

theorem announced_knows : announced.state.KnowsSite Shop.site :=
  have hannounced : Elsewhere Shop.site id
      { known with state := ((renewal "new").perform Shop.state).2 } announced :=
    elsewhere_announce _ _
  hannounced.knows (Shop.knows.perform rfl)

/-- It has been heard, and the bouncer is not on record. -/
def renewed : Scene (Option String) :=
  { announced with state := Simulation.World.hearRule announced.state, asked := some "new" }

theorem elsewhere_renewed : Elsewhere Shop.site id announced renewed.toShared :=
  elsewhere_hearRule announced_knows

theorem renewed_known : renewed.state.store.firewalls.get? Shop.site.firewall =
    some (Shop.firewall.update (setting "new")) :=
  elsewhere_renewed.firewall.trans (update_known Shop.knows rfl _)

theorem run_renewed : Run Shop.site engine.outside id settled renewed := by
  have hset : Run Shop.site engine.outside id settled _ :=
    .tail (.refl settled) (.set settled (u := setting "new") (by decide))
  exact (hset.tail (.elsewhere _ (elsewhere_announce _ (.firewallChanged 1)))).tail
    (.elsewhere _ elsewhere_renewed)

/-- The job that registers it again. -/
def job : Entry Job where
  job := .provision 1
  queue := .default
  retry := Shop.state.settings.deployment.retry

end Demo

/-- In a run in which a new credential is set and then registered, and nobody disturbs that. -/
theorem credentials_agree_new : ∃ d,
    (Registers Shop.site Demo.engine.outside id ∧
      Beginning Shop.site id Demo.settled Shop.firewall ∧
      Run Shop.site Demo.engine.outside id Demo.settled d ∧ d.hands = [] ∧
      d.asked = some "new" ∧ Text.isBlankText "new" = false ∧
      (d.state.store.firewalls.get? Shop.site.firewall).any (·.bouncerName.isSome) = true) ∧
    ∃ firewall, d.state.store.firewalls.get? Shop.site.firewall = some firewall ∧
      (firewall.bouncerName ≠ none → d.outside = some firewall.apiKey) ∧
      ∀ key, d.asked = some key → Text.isBlankText key = false →
        Text.trimmed firewall.apiKey = Text.trimmed key := by
  have hline : IsLine "new" := ⟨by decide +kernel, by decide +kernel, by decide +kernel⟩
  obtain ⟨d, hrun, hhands, hasked, _, hknown⟩ :=
    @exists_run_of_undisturbed _ Shop.site Demo.engine.outside id Demo.renewed _
      (Demo.elsewhere_renewed.knows Demo.announced_knows) Demo.renewed_known (by decide +kernel)
      rfl "new" hline (some "new") (show Demo.engine Shop.site.server _ _ _ = _ by decide +kernel)
      Demo.job rfl
  have hsettled := Demo.run_renewed.append hrun
  refine ⟨d, ⟨Demo.registers, Demo.beginning, hsettled, hhands, hasked, by decide +kernel, ?_⟩,
    credentials_agree Demo.registers Demo.beginning hsettled⟩
  rw [hknown]
  rfl

/-! ## Credentials that are set while the bouncer is registered -/

namespace Demo

/-- Nothing is on the way. -/
def start : Config (Option String) :=
  { known with }

/-- Some steps of a worker that do not register the bouncer. -/
def go (i steps : Nat) : List Choice :=
  List.replicate steps (.advance i (.ok ""))

/-- The event of a bouncer on record is heard, and the sync and the reload are carried out. -/
def deployed (time : Nat) : List Choice :=
  [.hear, .pass time, .arrive, .start 0] ++ go 0 15 ++
    [.leave 0, .pass (time + 10000000), .arrive, .start 0] ++ go 0 5 ++ [.leave 0]

/-- A credential is set, and another one before the bouncer is recorded with the first: whoever
registers it with the second finds it registered. -/
def rotated : List Choice :=
  [.request (renewal "old"), .announce, .hear, .arrive, .start 0] ++ go 0 2 ++
    [.advance 0 (.ok "old\n"), .request (renewal "new"), .announce, .hear, .arrive] ++ go 0 3 ++
    [.leave 0, .start 1] ++ go 1 3 ++ [.leave 1] ++ deployed 1000000

/-- The engine is asked for both, and the first is recorded last. -/
def overlapped : List Choice :=
  [.request (renewal "old"), .announce, .hear, .arrive, .start 0] ++ go 0 2 ++
    [.request (renewal "new"), .announce, .hear, .arrive, .start 1] ++ go 1 2 ++
    [.advance 0 (.ok "old\n"), .advance 1 (.ok "new\n")] ++ go 1 3 ++ [.leave 1] ++ go 0 3 ++
    [.leave 0] ++ deployed 1000000 ++ deployed 20000000

/-- **The steps lead to where nothing is left** and where the bouncer is on record with one
credential, while the engine has registered another one, or the same. -/
def Ends (choices : List Choice) (own : String) (known : Option String) : Prop :=
  ∃ (c : Config (Option String)) (firewall : Firewall),
    follow engine choices start = some c ∧
    Execution.Run engine.outside (fun r => r.uuid = Shop.site.uuid) choices.length start c ∧
    c.Heard ∧ c.Idle ∧ c.state.store.firewalls.get? Shop.site.firewall = some firewall ∧
    firewall.bouncerName ≠ none ∧ firewall.apiKey = own ∧ c.outside = known

/-- What can be computed of the end. -/
def ending? (c : Config (Option String)) : Option (String × Option String) :=
  (c.state.store.firewalls.get? Shop.site.firewall).bind fun firewall =>
    if c.isSettled 2 && firewall.bouncerName.isSome then some (firewall.apiKey, c.outside) else none

theorem ends_of_follow {choices : List Choice} {own : String} {known : Option String}
    (h : (follow engine choices start).bind ending? = some (own, known))
    (hrequests : ∀ r ∈ choices.filterMap Choice.request?, r.uuid = Shop.site.uuid)
    (hworkers : ∀ i ∈ choices.filterMap Choice.worker?, i < 2) : Ends choices own known := by
  obtain ⟨c, hfollow, hend⟩ := Option.bind_eq_some_iff.mp h
  obtain ⟨firewall, hfirewall, hend⟩ := Option.bind_eq_some_iff.mp hend
  split at hend
  · rename_i hsettled
    obtain ⟨hsettled, hbouncer⟩ := Bool.and_eq_true_iff.mp hsettled
    obtain ⟨hown, hknown⟩ := Prod.mk.inj (Option.some.inj hend)
    obtain ⟨hheard, hidle⟩ := settled_of_follow hfollow hsettled hworkers fun _ => rfl
    exact ⟨c, firewall, hfollow, run_of_follow hrequests hfollow, hheard, hidle, hfirewall,
      Option.isSome_iff_ne_none.mp hbouncer, hown, hknown⟩
  · cases hend

end Demo

/-- **A credential can be lost**: one that is set while the bouncer is registered with another one.
Its event was heard and its job was done. -/
theorem new_credential_is_lost :
    Registers Shop.site Demo.engine.outside id ∧
      Demo.rotated.filterMap Choice.request? = [Demo.renewal "old", Demo.renewal "new"] ∧
      Demo.Ends Demo.rotated "old" (some "old") :=
  ⟨Demo.registers, rfl, Demo.ends_of_follow (by decide +kernel) (by decide) (by decide)⟩

/-- The engine and the firewall are left with different credentials where the engine is asked for
another one before the first is recorded. -/
theorem credentials_differ :
    Registers Shop.site Demo.engine.outside id ∧
      Demo.overlapped.filterMap Choice.request? = [Demo.renewal "old", Demo.renewal "new"] ∧
      Demo.Ends Demo.overlapped "old" (some "new") :=
  ⟨Demo.registers, rfl, Demo.ends_of_follow (by decide +kernel) (by decide) (by decide)⟩

end Rampart.Credential
