import Rampart.Proofs.Install.Aside

/-!
# What a job does with its ticket

A job holds its ticket until it is given back to the scheduler to be tried again. While it holds
the ticket it may begin, and once it has begun it gives the claim up before it ends.

* `Phase`, `Plays`: what is left of a job may do in every phase.
* `Plays.of_obeys`: parts that leave the claims alone.
* **`plays_attempt`**: an attempt of a job that installs something.
* `Move`, **`Plays.of_advance`**: what a step of such a job is, and what it is installing after it.
-/

namespace Rampart

open Execution

namespace Install

/-- How far a job has come with its ticket. -/
inductive Phase
  /-- It has the ticket, and is not installing. -/
  | holding
  | installing
  /-- The ticket has been given back, if there was one. -/
  | gone
deriving DecidableEq, Repr

namespace Phase

/-- The ticket that a job has. -/
def held (x : Installation) : Phase → Option Installation
  | gone => none
  | _ => some x

/-- What a job is installing. -/
def marks (x : Installation) (phase : Phase) (y : Installation) : Prop :=
  phase = installing ∧ y = x

end Phase

/-- A job is given back to the scheduler. -/
structure IsBack (x : Installation) (s t : Orchestrator) : Prop where
  claims : t.claims = s.claims
  installs : t.installs.Subperm (x :: s.installs)

variable {ρ : Type} {o : Outside ρ} {x : Installation} {phase : Phase}
  {p p' : Process Orchestrator Unit} {w w' : Shared ρ}

/-- **What is left of a job with a ticket**: in any phase it may do what leaves the claims alone;
holding the ticket it may begin, and go on accordingly; it may give the claim up, and is not
installing then; and it may be given back to the scheduler. It does not end while installing. -/
inductive Plays (o : Outside ρ) (x : Installation) : Phase → Process Orchestrator Unit → Prop
  | done {phase : Phase} (h : phase ≠ .installing) : Plays o x phase (.done ())
  | aside {phase : Phase} {p : Process Orchestrator Unit} (hopen : p ≠ .done ())
    (hstate : ∀ w w' p', Advance o w p w' p' → Elsewhere w.state w'.state)
    (hnext : ∀ w w' p', Advance o w p w' p' → Plays o x phase p') : Plays o x phase p
  | begin {next : Except Failure Bool → Process Orchestrator Unit}
    (hyes : Plays o x .installing (next (.ok true)))
    (hno : Plays o x .holding (next (.ok false))) :
    Plays o x .holding ((Bootstrap.begin x.server x.component x.ticket).process.bind next)
  | giveUp {phase : Phase} {next : Except Failure Unit → Process Orchestrator Unit}
    {f : Claims → Claims} (hphase : phase ≠ .gone)
    (hf : f = (·.release x.server x.component x.ticket) ∨
      f = (·.pause x.server x.component x.ticket))
    (hnext : Plays o x .holding (next (.ok ()))) :
    Plays o x phase ((Bootstrap.changeClaims f).process.bind next)
  | back {update : Orchestrator → Orchestrator}
    {next : Orchestrator → Process Orchestrator Unit} {isBack : Orchestrator → Prop}
    (hkept : ∀ s, ¬ isBack s → Elsewhere s (update s))
    (hback : ∀ s, isBack s → IsBack x s (update s))
    (hnext : ∀ s, ¬ isBack s → Plays o x .holding (next s))
    (hgone : ∀ s, isBack s → Plays o x .gone (next s)) :
    Plays o x .holding (.atomic update next)

namespace Plays

/-! ## Parts -/

/-- One step that leaves the claims alone. -/
theorem atomic {update : Orchestrator → Orchestrator}
    {next : Orchestrator → Process Orchestrator Unit} (hstate : ∀ s, Elsewhere s (update s))
    (hnext : ∀ s, Plays o x phase (next s)) : Plays o x phase (.atomic update next) := by
  refine .aside nofun (fun w w' p' h => ?_) fun w w' p' h => ?_
  all_goals obtain ⟨rfl, rfl⟩ := h.of_atomic
  · exact hstate _
  · exact hnext _

/-- A step that does not touch the state. -/
theorem still (hopen : p ≠ .done ())
    (hstep : ∀ w w' p', Advance o w p w' p' → w'.state = w.state ∧ Plays o x phase p') :
    Plays o x phase p :=
  .aside hopen (fun w w' p' h => (hstep w w' p' h).1 ▸ .refl _) fun w w' p' h => (hstep w w' p' h).2

/-- **What leaves the claims alone, and what follows it.** -/
theorem of_obeys {α : Type} {post : α → Prop} {k : α → Process Orchestrator Unit}
    {q : Process Orchestrator α} (h : q.Obeys elsewhere post)
    (hk : ∀ a, post a → Plays o x phase (k a)) : Plays o x phase (q.bind k) := by
  induction q with
  | done a => exact hk a h
  | atomic update next ih =>
    exact .atomic (fun s => (h s trivial).1) fun s => ih s (h s trivial).2
  | call server c next ih =>
    refine .still nofun fun w w' p' hs => ?_
    cases hs with
    | call _ ha => exact ⟨rfl, ih _ (h.2 _ trivial)⟩
  | callAll calls next ih =>
    refine .still nofun fun w w' p' hs => ?_
    cases hs with
    | callAll _ ha => exact ⟨rfl, ih _ (h.2 _)⟩
  | tell notice next ih =>
    refine .still nofun fun w w' p' hs => ?_
    cases hs with
    | tell _ answer => exact ⟨rfl, ih _ (h _)⟩
  | clock next ih =>
    refine .still nofun fun w w' p' hs => ?_
    cases hs with
    | clock _ time => exact ⟨rfl, ih _ (h _)⟩
  | fresh next ih =>
    refine .still nofun fun w w' p' hs => ?_
    cases hs with
    | fresh _ hname => exact ⟨rfl, ih _ (h _ hname)⟩
  | wait seconds next ih =>
    refine .still nofun fun w w' p' hs => ?_
    cases hs with
    | wait => exact ⟨rfl, ih h⟩
  | acquire lock next ih =>
    refine .still nofun fun w w' p' hs => ?_
    cases hs with
    | acquire _ hfree => exact ⟨rfl, ih h.2⟩
  | release lock next ih =>
    refine .still nofun fun w w' p' hs => ?_
    cases hs with
    | release => exact ⟨rfl, ih h.2⟩

/-- A job that has ended is not installing. -/
theorem of_done (h : Plays o x phase (.done ())) : phase ≠ .installing := by
  generalize hp : Process.done () = p at h
  cases h with
  | done h => exact h
  | aside hopen => exact absurd hp.symm hopen
  | begin => cases hp
  | giveUp => cases hp
  | back => cases hp

end Plays

/-! ## Attempts -/

/-- What follows an installation. -/
def afterwards (x : Installation) (k : Except Failure Unit → Process Orchestrator Unit) :
    Except Failure (Except Failure Unit) → Process Orchestrator Unit
  | .ok (.ok ()) =>
    (Bootstrap.changeClaims (·.release x.server x.component x.ticket)).process.bind k
  | .ok (.error failure) =>
    (Bootstrap.changeClaims (·.pause x.server x.component x.ticket)).process.bind fun
      | .ok () => k (.error failure)
      | .error e => k (.error e)
  | .error e => k (.error e)

/-- What follows the question whether to begin. -/
def onBegun (x : Installation) (k : Except Failure Unit → Process Orchestrator Unit) :
    Except Failure Bool → Process Orchestrator Unit
  | .ok true =>
    (Task.attempt (Bootstrap.installNow x.server x.component)).process.bind (afterwards x k)
  | .ok false => k (.ok ())
  | .error e => k (.error e)

/-- **An installation, and what follows it.** -/
theorem install_bind (x : Installation) (k : Except Failure Unit → Process Orchestrator Unit) :
    (Bootstrap.install x.server x.component x.ticket).process.bind k =
      .atomic id fun s => match s.server x.server with
        | .error e => k (.error e)
        | .ok target =>
          if x.component.isInstalled target.status then
            (Bootstrap.changeClaims (·.release x.server x.component x.ticket)).process.bind k
          else (Bootstrap.begin x.server x.component x.ticket).process.bind (onBegun x k) := by
  refine congrArg (Process.atomic id) (funext fun s => ?_)
  cases hserver : s.server x.server with
  | error e =>
    simp only [hserver]
    rfl
  | ok target =>
    simp only [hserver]
    by_cases hinstalled : x.component.isInstalled target.status = true
    · rw [if_pos hinstalled]
      exact congrArg (fun t : Bootstrap.Work Unit => t.process.bind k) (if_pos hinstalled)
    · rw [if_neg hinstalled]
      refine (congrArg (fun t : Bootstrap.Work Unit => t.process.bind k)
        (if_neg hinstalled)).trans (congrArg (Process.atomic _) (funext fun s => ?_))
      cases hbegun : (s.claims.start x.server x.component x.ticket).1 with
      | false =>
        simp only [hbegun]
        rfl
      | true =>
        simp only [hbegun]
        refine (Process.bind_assoc (Task.attempt
          (Bootstrap.installNow x.server x.component)).process _ k).trans
          (congrArg (Process.bind _) (funext fun result => ?_))
        rcases result with e | (failure | ⟨⟩) <;> rfl

/-- What is left of an installation that has begun. -/
theorem plays_afterwards {k : Except Failure Unit → Process Orchestrator Unit}
    (hk : ∀ result, Plays o x .holding (k result)) :
    Plays o x .installing
      ((Task.attempt (Bootstrap.installNow x.server x.component)).process.bind
        (afterwards x k)) := by
  have hinstall : (Task.attempt (Bootstrap.installNow x.server x.component)).process.Obeys
      elsewhere fun result => ∃ ended, result = .ok ended :=
    Task.obeys_attempt ((elsewhere_installNow _ _).mono fun ended _ => ⟨ended, rfl⟩)
  refine .of_obeys hinstall ?_
  have hphase : Phase.installing ≠ .gone := nofun
  rintro _ ⟨failure | ⟨⟩, rfl⟩
  · exact .giveUp hphase (.inr rfl) (hk _)
  · exact .giveUp hphase (.inl rfl) (hk _)

/-- **An installation.** -/
theorem plays_install {k : Except Failure Unit → Process Orchestrator Unit}
    (hk : ∀ result, Plays o x .holding (k result)) :
    Plays o x .holding
      ((Bootstrap.install x.server x.component x.ticket).process.bind k) := by
  rw [install_bind]
  have hphase : Phase.holding ≠ .gone := nofun
  refine .atomic .refl fun s => ?_
  split
  · exact hk _
  · split
    · exact .giveUp hphase (.inl rfl) (hk _)
    · exact .begin (plays_afterwards hk) (hk _)

/-- The claim is released, the failure is recorded. -/
theorem installFailed_bind (x : Installation) (failure : Failure)
    (k : Unit → Process Orchestrator Unit) :
    (Bootstrap.installFailed x.server x.component x.ticket failure).bind k =
      (Bootstrap.changeClaims (·.release x.server x.component x.ticket)).process.bind fun _ =>
        ((Bootstrap.recordFailure x.server x.component failure).process.bind fun _ =>
          .done ()).bind k := rfl

/-- The end of a job that has failed for good. -/
theorem plays_failed (failure : Failure) :
    Plays o x .holding
      ((Bootstrap.installFailed x.server x.component x.ticket failure).bind fun _ =>
        .atomic (Orchestrator.works.reschedule .finish) fun _ => .done ()) := by
  have hphase : Phase.holding ≠ .gone := nofun
  have hfinish : Plays o x .holding
      (.atomic (Orchestrator.works.reschedule .finish) fun _ => .done ()) :=
    .atomic (fun s => ⟨rfl, List.Subperm.refl _⟩) fun _ => .done nofun
  have hrecord : ((Bootstrap.recordFailure x.server x.component failure).process.bind fun _ =>
      .done ()).Obeys elsewhere fun _ => True :=
    Process.Obeys.bind ((elsewhere_recordFailure _ _ failure).mono fun _ _ => trivial)
  rw [installFailed_bind]
  exact .giveUp hphase (.inl rfl) (.of_obeys hrecord fun _ _ => hfinish)

/-- The end of an attempt. -/
theorem plays_ending {e : Entry Job} (he : e.job.installation? = some x)
    (result : Except Failure Unit) :
    Plays o x .holding (Orchestrator.ending e result) := by
  have hkept : ∀ s, ¬ ¬ Elsewhere s (Orchestrator.works.settle e result s).2 →
      Elsewhere s (Orchestrator.works.settle e result s).2 := fun s => not_not.mp
  refine .back hkept (fun s hs => ?_) (fun s hs => ?_) fun s hs => ?_
  all_goals have houtcomes := settle_outcomes e result s
  · obtain ⟨_, hclaims, hinstalls⟩ := houtcomes.resolve_left hs
    rw [he] at hinstalls
    exact ⟨hclaims, hinstalls.subperm⟩
  · split
    · exact .done nofun
    · rw [Job.eq_install he]
      exact plays_failed _
  · obtain ⟨hreport, _, _⟩ := houtcomes.resolve_left hs
    rw [hreport]
    exact .done nofun

/-- **An attempt of a job.** If it installs something it holds the ticket. -/
theorem plays_attempt (o : Outside ρ) (e : Entry Job) :
    ∃ x phase, Plays o x phase (Orchestrator.works.attempt e) ∧
      phase.held x = e.job.installation? ∧ phase ≠ .installing := by
  cases he : e.job.installation? with
  | none =>
    refine ⟨⟨0, .engine, 0⟩, .gone, ?_, rfl, nofun⟩
    rw [← Process.bind_pure (Orchestrator.works.attempt e)]
    exact .of_obeys (elsewhere_attempt he) fun _ _ => .done nofun
  | some x =>
    refine ⟨x, .holding, ?_, rfl, nofun⟩
    rw [Orchestrator.attempt_eq]
    refine .atomic .refl fun s => ?_
    have hbegun : (e.begin s.scheduler.now).job.installation? = some x := he
    rw [Job.eq_install he]
    exact plays_install fun result => plays_ending hbegun result

/-! ## Telling steps apart -/

section Steps

variable {y : Installation} {update : Orchestrator → Orchestrator}
  {next : Orchestrator → Process Orchestrator Unit}

/-- A state with one claim. -/
def only (y : Installation) (running : Bool) : Orchestrator where
  claims := Claims.set {} y.server y.component ⟨y.ticket, running⟩

theorem only_get? (y z : Installation) (running : Bool) :
    (only y running).claims.get? z.server z.component =
      if z.place = y.place then some ⟨y.ticket, running⟩ else none :=
  Claims.get?_set ..

theorem only_get?_self (y : Installation) (running : Bool) :
    (only y running).claims.get? y.server y.component = some ⟨y.ticket, running⟩ :=
  Claims.get?_set_self ..

/-- Beginning marks the claim. -/
theorem IsBegin.get? (h : IsBegin y (.atomic update next)) :
    (update (only y false)).claims.get? y.server y.component = some ⟨y.ticket, true⟩ := by
  obtain ⟨rest, heq⟩ := h
  cases heq
  rcases (only y false).claims.start_outcomes y.server y.component y.ticket with
    ⟨_, hstart⟩ | ⟨hother, _⟩
  · simp only [hstart]
    exact Claims.get?_set_self ..
  · exact absurd (only_get?_self y false) (hother false)

/-- Giving up removes the mark. -/
theorem IsEnd.get? (h : IsEnd y (.atomic update next)) :
    (update (only y true)).claims.get? y.server y.component ≠ some ⟨y.ticket, true⟩ := by
  have hgives : Claims.GivesUp y (only y true).claims (update (only y true)).claims := by
    obtain ⟨rest, heq | heq⟩ := h
    · cases heq
      exact Claims.release_givesUp _ y
    · cases heq
      exact Claims.pause_givesUp _ y
  rcases hgives.place with ⟨_, hnone | hsome⟩ | ⟨hother, _⟩
  · rw [hnone]
    nofun
  · rw [hsome]
    exact fun heq => nomatch heq
  · exact absurd (only_get?_self y true) (hother true)

theorem isAtomic_of_isBegin (h : IsBegin y p) : ∃ update next, p = .atomic update next := by
  obtain ⟨rest, rfl⟩ := h
  exact ⟨_, _, rfl⟩

theorem isAtomic_of_isEnd (h : IsEnd y p) : ∃ update next, p = .atomic update next := by
  obtain ⟨rest, rfl | rfl⟩ := h <;> exact ⟨_, _, rfl⟩

/-- A step that leaves the claims alone is no beginning. -/
theorem not_isBegin_of_kept (hkept : ∀ s, (update s).claims = s.claims) :
    ¬ IsBegin y (.atomic update next) := by
  intro h
  have hget := h.get?
  rw [hkept, only_get?_self] at hget
  cases hget

theorem not_isEnd_of_kept (hkept : ∀ s, (update s).claims = s.claims) :
    ¬ IsEnd y (.atomic update next) := by
  intro h
  have hget := h.get?
  rw [hkept] at hget
  exact hget (only_get?_self y true)

/-- Nor is one that gives up a claim. -/
theorem not_isBegin_of_givesUp
    (hgives : ∀ s, Claims.GivesUp x s.claims (update s).claims) :
    ¬ IsBegin y (.atomic update next) := by
  intro h
  have hget := h.get?
  have hbefore := only_get?_self y false
  by_cases hplace : y.place = x.place
  · obtain ⟨hserver, hcomponent⟩ := Prod.mk.inj hplace
    rw [hserver, hcomponent] at hget hbefore
    rcases (hgives (only y false)).place with ⟨_, hnone | hsome⟩ | ⟨_, hsame⟩
    · rw [hnone] at hget
      cases hget
    · simp [hsome] at hget
    · simp [hsame, hbefore] at hget
  · rw [(hgives (only y false)).other _ _ hplace, hbefore] at hget
    cases hget

/-- A step begins one installation at most. -/
theorem IsBegin.inj (h : IsBegin x p) (hother : IsBegin y p) : y = x := by
  obtain ⟨rest, rfl⟩ := h
  have hget := hother.get?
  rcases (only y false).claims.start_outcomes x.server x.component x.ticket with
    ⟨⟨running, hclaim⟩, _⟩ | ⟨_, hstart⟩
  · rw [only_get?] at hclaim
    split at hclaim
    · rename_i hplace
      exact Installation.eq_of_place hplace.symm
        (congrArg Claim.ticket (Option.some.inj hclaim))
    · cases hclaim
  · simp only [hstart] at hget
    rw [only_get?_self] at hget
    cases hget

end Steps

/-! ## Moves -/

/-- **What a step of a job does**, as far as it concerns its ticket. -/
inductive Move (x : Installation) (s t : Orchestrator) : Phase → Phase → Prop
  | aside {phase : Phase} (h : Elsewhere s t) : Move x s t phase phase
  | begins (hstart : (s.claims.start x.server x.component x.ticket).1 = true)
    (hclaims : t.claims = (s.claims.start x.server x.component x.ticket).2)
    (hinstalls : t.installs = s.installs) : Move x s t .holding .installing
  | givesUp {phase : Phase} (hphase : phase ≠ .gone)
    (hclaims : Claims.GivesUp x s.claims t.claims) (hinstalls : t.installs = s.installs) :
    Move x s t phase .holding
  | back (h : IsBack x s t) : Move x s t .holding .gone

theorem Move.ne_gone {s t : Orchestrator} {after : Phase} (h : Move x s t phase after)
    (hafter : after ≠ .gone) : phase ≠ .gone := by
  cases h with
  | aside => exact hafter
  | begins => exact nofun
  | givesUp hphase => exact hphase
  | back => exact absurd rfl hafter

/-- Where nothing begins or ends, the same is being installed. -/
theorem marked_of_aside {s : Orchestrator} (hbegin : ∀ y, ¬ IsBegin y p)
    (hend : ∀ y, ¬ IsEnd y p) (before : Installation → Prop) (y : Installation) :
    marked s p before y ↔ before y :=
  ⟨fun h => h.elim (fun h => absurd h.1 (hbegin y)) (·.1), fun h => .inr ⟨h, hend y⟩⟩

/-- A step that may begin what a job has the ticket for. -/
theorem marked_of_begin {s : Orchestrator} (h : IsBegin x p) (y : Installation) :
    marked s p (Phase.holding.marks x) y ↔
      y = x ∧ (s.claims.start x.server x.component x.ticket).1 = true := by
  constructor
  · rintro (⟨hbegin, hyes⟩ | ⟨⟨hphase, _⟩, _⟩)
    · obtain rfl := h.inj hbegin
      exact ⟨rfl, hyes⟩
    · cases hphase
  · rintro ⟨rfl, hyes⟩
    exact .inl ⟨h, hyes⟩

/-- A step that ends what a job is installing. -/
theorem not_marked_of_end {s : Orchestrator} (h : IsEnd x p) (hbegin : ∀ y, ¬ IsBegin y p)
    (y : Installation) : ¬ marked s p (phase.marks x) y := by
  rintro (⟨hother, _⟩ | ⟨⟨_, rfl⟩, hopen⟩)
  · exact hbegin y hother
  · exact hopen h

/-- **A step of a job with a ticket.** -/
theorem Plays.of_advance (h : Plays o x phase p) (hs : Advance o w p w' p') :
    ∃ after, Plays o x after p' ∧ Move x w.state w'.state phase after ∧
      ∀ y, marked w.state p (phase.marks x) y ↔ after.marks x y := by
  cases h with
  | done => cases hs
  | aside hopen hstate hnext =>
    refine ⟨phase, hnext _ _ _ hs, .aside (hstate _ _ _ hs), marked_of_aside (fun y hy => ?_)
      (fun y hy => ?_) _⟩
    · obtain ⟨update, next, rfl⟩ := isAtomic_of_isBegin hy
      exact not_isBegin_of_kept (fun s =>
        (hstate _ _ _ (.atomic { w with state := s } update next)).claims) hy
    · obtain ⟨update, next, rfl⟩ := isAtomic_of_isEnd hy
      exact not_isEnd_of_kept (fun s =>
        (hstate _ _ _ (.atomic { w with state := s } update next)).claims) hy
  | @begin next hyes hno =>
    have hmarked := marked_of_begin (s := w.state) (x := x) ⟨next, rfl⟩
    obtain ⟨rfl, rfl⟩ := Advance.of_atomic hs
    cases hstart : (w.state.claims.start x.server x.component x.ticket).1 with
    | true =>
      refine ⟨.installing, ?_, .begins hstart rfl rfl, fun y => (hmarked y).trans ?_⟩
      · simp only [hstart]
        exact hyes
      · rw [hstart]
        exact ⟨fun h => ⟨rfl, h.1⟩, fun h => ⟨h.2, rfl⟩⟩
    | false =>
      refine ⟨.holding, ?_, .aside (.of_eq ?_ rfl), fun y => (hmarked y).trans ?_⟩
      · simp only [hstart]
        exact hno
      · exact Claims.start_of_refused _ _ _ hstart
      · rw [hstart]
        exact ⟨fun h => Bool.noConfusion h.2, fun h => Phase.noConfusion h.1⟩
  | @giveUp _ next f hphase hf hnext =>
    have hgives : ∀ s : Orchestrator, Claims.GivesUp x s.claims (f s.claims) := by
      intro s
      rcases hf with rfl | rfl
      · exact Claims.release_givesUp _ x
      · exact Claims.pause_givesUp _ x
    have hend : IsEnd x ((Bootstrap.changeClaims f).process.bind next) := by
      rcases hf with rfl | rfl
      · exact ⟨next, .inl rfl⟩
      · exact ⟨next, .inr rfl⟩
    obtain ⟨rfl, rfl⟩ := Advance.of_atomic hs
    refine ⟨.holding, hnext, .givesUp hphase (hgives _) rfl, fun y => ⟨fun h => ?_, fun h => ?_⟩⟩
    · exact absurd h (not_marked_of_end hend (fun y => not_isBegin_of_givesUp hgives) y)
    · exact Phase.noConfusion h.1
  | @back update next isBack hkept hback hnext hgone =>
    have hclaims : ∀ s, (update s).claims = s.claims := by
      intro s
      by_cases hs : isBack s
      · exact (hback s hs).claims
      · exact (hkept s hs).claims
    have hmarked := marked_of_aside (s := w.state) (p := .atomic update next)
      (fun y => not_isBegin_of_kept hclaims) (fun y => not_isEnd_of_kept hclaims)
      (Phase.holding.marks x)
    obtain ⟨rfl, rfl⟩ := Advance.of_atomic hs
    by_cases hback' : isBack w.state
    · refine ⟨.gone, hgone _ hback', .back (hback _ hback'), fun y => (hmarked y).trans ?_⟩
      exact ⟨fun h => Phase.noConfusion h.1, fun h => Phase.noConfusion h.1⟩
    · exact ⟨.holding, hnext _ hback', .aside (hkept _ hback'), hmarked⟩

end Install

end Rampart
