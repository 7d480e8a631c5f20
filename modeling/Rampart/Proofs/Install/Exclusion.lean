import Mathlib
import Rampart.Proofs.Install.Roles
import Rampart.Proofs.Install.Schedule

/-!
# One installation at a time

Tickets are what keeps installations of one component on one server apart. No two jobs have the
same ticket, wherever they are, and a claim is marked as long as the job with its ticket is
installing.

* `Tickets`: every ticket is in one place, and none is above the number that was asked for.
* `Marks`: claims are marked by those who are installing.
* `Inv`, **`Inv.step`**: what is true of all scenes, and kept by every step.
* **`one_installation_at_a_time`**: who is installing, who may begin, and who may claim.
-/

namespace Rampart

open Execution

namespace Install

/-! ## Tickets -/

/-- **Every ticket is in one place**: in a queue or in a worker's hand. -/
structure Tickets (queue : List Installation) (held : Nat → Option Installation) (asked : Nat) :
    Prop where
  once : (queue.map (·.ticket)).Nodup
  apart : ∀ i x, held i = some x → x.ticket ∉ queue.map (·.ticket)
  alone : ∀ i j x y, held i = some x → held j = some y → x.ticket = y.ticket → i = j
  queued : ∀ x ∈ queue, x.ticket.toNat ≤ asked
  bounded : ∀ i x, held i = some x → x.ticket.toNat ≤ asked

namespace Tickets

variable {queue queue' : List Installation} {held : Nat → Option Installation} {asked : Nat}
  {x : Installation} {i : Nat}

/-- Tickets change their order, or are lost. -/
theorem sub (h : Tickets queue held asked) (hsub : queue'.Subperm queue) :
    Tickets queue' held asked := by
  obtain ⟨l, hperm, hsublist⟩ := hsub
  have hmap := (hperm.map (·.ticket)).nodup_iff.mp (h.once.sublist (hsublist.map _))
  have hmem : ∀ x ∈ queue', x ∈ queue := fun x hx => hsublist.subset (hperm.mem_iff.mpr hx)
  refine ⟨hmap, fun i x hx hticket => ?_, h.alone, fun x hx => h.queued x (hmem x hx), h.bounded⟩
  obtain ⟨y, hy, heq⟩ := List.mem_map.mp hticket
  exact h.apart i x hx (heq ▸ List.mem_map_of_mem (hmem y hy))

/-- A number is used up. -/
theorem skip (h : Tickets queue held asked) : Tickets queue held (asked + 1) :=
  ⟨h.once, h.apart, h.alone, fun x hx => Nat.le_succ_of_le (h.queued x hx),
    fun i x hx => Nat.le_succ_of_le (h.bounded i x hx)⟩

/-- A new ticket. -/
theorem give (h : Tickets queue held asked) (hnew : x.ticket.toNat = asked + 1) :
    Tickets (x :: queue) held (asked + 1) := by
  have hfresh : ∀ y : Installation, y.ticket.toNat ≤ asked → y.ticket ≠ x.ticket := by
    intro y hy heq
    rw [heq, hnew] at hy
    omega
  refine ⟨?_, fun i y hy hmem => ?_, h.alone, fun y hy => ?_, h.skip.bounded⟩
  · rw [List.map_cons, List.nodup_cons]
    refine ⟨fun hmem => ?_, h.once⟩
    obtain ⟨y, hy, heq⟩ := List.mem_map.mp hmem
    exact hfresh y (h.queued y hy) heq
  · rcases List.mem_cons.mp hmem with heq | hmem
    · exact hfresh y (h.bounded i y hy) heq
    · exact h.apart i y hy hmem
  · rcases List.mem_cons.mp hy with rfl | hy
    · exact Nat.le_of_eq hnew
    · exact h.skip.queued y hy

/-- One worker has another ticket than before, or none. -/
theorem of_update {ticket : Option Installation} {j : Nat} {y : Installation}
    (h : Function.update held i ticket j = some y) :
    j = i ∧ ticket = some y ∨ j ≠ i ∧ held j = some y := by
  by_cases hj : j = i
  · rw [hj, Function.update_self] at h
    exact .inl ⟨hj, h⟩
  · rw [Function.update_of_ne hj] at h
    exact .inr ⟨hj, h⟩

/-- A worker drops its ticket. -/
theorem drop (h : Tickets queue held asked) (i : Nat) :
    Tickets queue (Function.update held i none) asked := by
  have hkept : ∀ j y, Function.update held i none j = some y → held j = some y := by
    intro j y hy
    rcases of_update hy with ⟨_, hnone⟩ | ⟨_, hy⟩
    · cases hnone
    · exact hy
  exact ⟨h.once, fun j y hy => h.apart j y (hkept j y hy),
    fun j k y z hy hz => h.alone j k y z (hkept j y hy) (hkept k z hz), h.queued,
    fun j y hy => h.bounded j y (hkept j y hy)⟩

/-- A worker takes a ticket out of the queue. -/
theorem take (h : Tickets (x :: queue) held asked) (i : Nat) :
    Tickets queue (Function.update held i (some x)) asked := by
  have hnodup := List.nodup_cons.mp (List.map_cons ▸ h.once)
  have hsub := h.sub (List.sublist_cons_self x queue).subperm
  have hother : ∀ j y, held j = some y → y.ticket ≠ x.ticket := fun j y hy heq =>
    h.apart j y hy (List.mem_map.mpr ⟨x, List.mem_cons_self, heq.symm⟩)
  refine ⟨hnodup.2, fun j y hy => ?_, fun j k y z hy hz heq => ?_, hsub.queued, fun j y hy => ?_⟩
  · rcases of_update hy with ⟨_, hx⟩ | ⟨_, hy⟩
    · exact Option.some.inj hx ▸ hnodup.1
    · exact hsub.apart j y hy
  · rcases of_update hy with ⟨hj, hx⟩ | ⟨_, hjy⟩ <;>
      rcases of_update hz with ⟨hk, hx'⟩ | ⟨_, hkz⟩
    · exact hj.trans hk.symm
    · obtain rfl := Option.some.inj hx
      exact absurd heq.symm (hother k z hkz)
    · obtain rfl := Option.some.inj hx'
      exact absurd heq (hother j y hjy)
    · exact h.alone j k y z hjy hkz heq
  · rcases of_update hy with ⟨_, hx⟩ | ⟨_, hy⟩
    · exact Option.some.inj hx ▸ h.queued x List.mem_cons_self
    · exact h.bounded j y hy

/-- A worker puts its ticket into the queue. -/
theorem back (h : Tickets queue held asked) (hi : held i = some x) :
    Tickets (x :: queue) (Function.update held i none) asked := by
  have hdrop := h.drop i
  refine ⟨?_, fun j y hy hmem => ?_, hdrop.alone, fun y hy => ?_, hdrop.bounded⟩
  · rw [List.map_cons, List.nodup_cons]
    exact ⟨h.apart i x hi, h.once⟩
  · rcases List.mem_cons.mp hmem with heq | hmem
    · rcases of_update hy with ⟨_, hnone⟩ | ⟨hji, hy⟩
      · cases hnone
      · exact hji (h.alone j i y x hy hi heq)
    · exact hdrop.apart j y hy hmem
  · rcases List.mem_cons.mp hy with rfl | hy
    · exact h.bounded i y hi
    · exact h.queued y hy

end Tickets

/-! ## Marks -/

/-- **A claim is marked as long as somebody installs with its ticket**, and it has the newest
ticket. -/
structure Marks (claims : Claims) (installing : Nat → Installation → Prop)
    (newest : UInt64 × Component → Option UInt64) : Prop where
  running : ∀ x : Installation, claims.get? x.server x.component = some ⟨x.ticket, true⟩ ↔
    ∃ i, installing i x
  newest : ∀ server component claim, claims.get? server component = some claim →
    newest (server, component) = some claim.ticket

namespace Marks

variable {c c' : Claims} {installing : Nat → Installation → Prop}
  {newest : UInt64 × Component → Option UInt64} {x : Installation} {i : Nat}

/-- A number is used up. -/
theorem skip (h : Marks c installing newest) (n : UInt64) :
    Marks { c with lastTicket := n } installing newest :=
  ⟨h.running, h.newest⟩

/-- A ticket is given where nobody is installing. -/
theorem next (h : Marks c installing newest) {server : UInt64} {component : Component}
    (hidle : ∀ ticket, c.get? server component ≠ some ⟨ticket, true⟩) :
    Marks (c.next server component) installing
      (Function.update newest (server, component) (some (c.lastTicket + 1))) := by
  refine ⟨fun x => ?_, fun server' component' claim hget => ?_⟩
  · rw [Claims.get?_next, ← h.running]
    split
    · rename_i hplace
      obtain ⟨rfl, rfl⟩ := Prod.mk.inj hplace
      exact ⟨fun heq => by simp at heq, fun heq => absurd heq (hidle x.ticket)⟩
    · exact Iff.rfl
  · rw [Claims.get?_next] at hget
    split at hget
    · rename_i hplace
      rw [hplace, Function.update_self, ← Option.some.inj hget]
    · rename_i hplace
      rw [Function.update_of_ne hplace]
      exact h.newest _ _ _ hget

/-- One worker installs something else than before. -/
theorem exists_update_iff {marks : Installation → Prop} {y : Installation} :
    (∃ j, Function.update installing i marks j y) ↔ marks y ∨ ∃ j, j ≠ i ∧ installing j y := by
  constructor
  · rintro ⟨j, hj⟩
    by_cases hji : j = i
    · rw [hji, Function.update_self] at hj
      exact .inl hj
    · rw [Function.update_of_ne hji] at hj
      exact .inr ⟨j, hji, hj⟩
  · rintro (hy | ⟨j, hji, hj⟩)
    · exact ⟨i, by rwa [Function.update_self]⟩
    · exact ⟨j, by rwa [Function.update_of_ne hji]⟩

/-- Whoever installs where a claim has a ticket has this ticket. -/
theorem eq_of_installing (h : Marks c installing newest) {y : Installation} {running : Bool}
    (hclaim : c.get? x.server x.component = some ⟨x.ticket, running⟩)
    (hplace : y.place = x.place) (hy : ∃ j, installing j y) : y = x := by
  obtain ⟨hserver, hcomponent⟩ := Prod.mk.inj hplace
  have hget := (h.running y).mpr hy
  rw [hserver, hcomponent, hclaim] at hget
  exact Installation.eq_of_place hplace (congrArg Claim.ticket (Option.some.inj hget)).symm

/-- An installation begins, by one who was not installing. -/
theorem start (h : Marks c installing newest) (hnone : ∀ y, ¬ installing i y)
    {marks : Installation → Prop} (hmarks : ∀ y, marks y ↔ y = x)
    {running : Bool} (hclaim : c.get? x.server x.component = some ⟨x.ticket, running⟩) :
    Marks (c.set x.server x.component ⟨x.ticket, true⟩) (Function.update installing i marks)
      newest := by
  refine ⟨fun y => ?_, fun server component claim hget => ?_⟩
  · rw [exists_update_iff, hmarks, Claims.running_set_iff hclaim, h.running]
    refine or_congr_right ⟨?_, fun ⟨j, _, hj⟩ => ⟨j, hj⟩⟩
    rintro ⟨j, hj⟩
    exact ⟨j, fun heq => hnone y (heq ▸ hj), hj⟩
  · obtain ⟨found, hfound, hticket⟩ := Claims.ticket_of_get?_set hclaim hget
    rw [h.newest _ _ _ hfound, hticket]

/-- An installation is given up, by one who has its ticket alone. -/
theorem giveUp (h : Marks c installing newest) (halone : ∀ j, installing j x → j = i)
    (hother : ∀ y, installing i y → y = x) (hgives : Claims.GivesUp x c c')
    {marks : Installation → Prop} (hmarks : ∀ y, ¬ marks y) :
    Marks c' (Function.update installing i marks) newest := by
  refine ⟨fun y => ?_, fun server component claim hget => ?_⟩
  · rw [exists_update_iff, hgives.running_iff, h.running]
    constructor
    · rintro ⟨⟨j, hj⟩, hyx⟩
      exact .inr ⟨j, fun heq => hyx (hother y (heq ▸ hj)), hj⟩
    · rintro (hy | ⟨j, hji, hj⟩)
      · exact absurd hy (hmarks y)
      · exact ⟨⟨j, hj⟩, fun heq => hji (halone j (heq ▸ hj))⟩
  · obtain ⟨found, hfound, hticket⟩ := hgives.ticket_of_get? hget
    rw [h.newest _ _ _ hfound, hticket]

end Marks

/-! ## Scenes -/

variable {ρ : Type} {o : Outside ρ} {c d : Scene ρ}

/-- The tickets that no worker has. -/
def Scene.queue (c : Scene ρ) : List Installation :=
  c.inHand ++ c.state.installs

/-- **What a worker is about**, and the ticket that it has. -/
inductive Role (o : Outside ρ) (c : Scene ρ) (i : Nat) : Option Installation → Prop
  | free (h : c.workers i = none) (hmarks : ∀ y, ¬ c.installing i y) : Role o c i none
  | busy {p : Process Orchestrator Unit} {e : Entry Job} {x : Installation} {phase : Phase}
    (hp : c.workers i = some p) (he : c.job i = some e) (hplays : Plays o x phase p)
    (hjob : phase ≠ .gone → e.job.installation? = some x)
    (hmarks : ∀ y, c.installing i y ↔ phase.marks x y) : Role o c i (phase.held x)

namespace Role

variable {i : Nat} {held : Option Installation}

/-- A worker that others leave alone. -/
theorem congr (h : Role o c i held) (hworkers : d.workers i = c.workers i)
    (hjob : d.job i = c.job i) (hinstalling : d.installing i = c.installing i) :
    Role o d i held := by
  cases h with
  | free hfree hmarks => exact .free (hworkers ▸ hfree) (hinstalling ▸ hmarks)
  | busy hp he hplays hinstallation hmarks =>
    exact .busy (hworkers ▸ hp) (hjob ▸ he) hplays hinstallation (hinstalling ▸ hmarks)

/-- A worker without a job. -/
theorem of_free (h : Role o c i held) (hfree : c.workers i = none) (y : Installation) :
    ¬ c.installing i y := by
  cases h with
  | free _ hmarks => exact hmarks y
  | busy hp => simp [hfree] at hp

/-- A worker in the middle of a job. -/
theorem of_busy (h : Role o c i held) {p : Process Orchestrator Unit}
    (hp : c.workers i = some p) : ∃ e x phase, held = Phase.held x phase ∧ c.job i = some e ∧
      Plays o x phase p ∧ (phase ≠ .gone → e.job.installation? = some x) ∧
      c.installing i = phase.marks x := by
  cases h with
  | free hfree => simp [hfree] at hp
  | busy hq he hplays hjob hmarks =>
    obtain rfl := Option.some.inj (hq.symm.trans hp)
    exact ⟨_, _, _, rfl, he, hplays, hjob, funext fun y => propext (hmarks y)⟩

/-- Whoever is installing has the ticket for it. -/
theorem held_of_installing (h : Role o c i held) {y : Installation} (hy : c.installing i y) :
    held = some y := by
  cases h with
  | free _ hmarks => exact absurd hy (hmarks y)
  | busy _ _ _ _ hmarks =>
    obtain ⟨rfl, rfl⟩ := (hmarks y).mp hy
    rfl

end Role

/-- **What is true of all scenes.** -/
structure Inv (o : Outside ρ) (held : Nat → Option Installation) (c : Scene ρ) : Prop where
  roles : ∀ i, Role o c i (held i)
  tickets : Tickets c.queue held c.asked
  marks : Marks c.state.claims c.installing c.newest
  counted : c.state.claims.lastTicket.toNat = c.asked

theorem Inv.first (h : c.IsFirst) : Inv o (fun _ => none) c := by
  have hqueue : c.queue = [] := by rw [Scene.queue, h.inHand, h.installs, List.append_nil]
  refine ⟨fun i => .free (h.workers i) (h.installing i), ?_, ?_, ?_⟩
  · rw [hqueue]
    exact ⟨List.nodup_nil, nofun, nofun, nofun, nofun⟩
  · rw [h.claims]
    exact ⟨fun x => ⟨nofun, fun ⟨i, hi⟩ => absurd hi (h.installing i x)⟩, nofun⟩
  · rw [h.claims, h.asked]
    rfl

namespace Inv

variable {held : Nat → Option Installation} {i j : Nat} {x : Installation}

theorem held_of_installing (h : Inv o held c) (hi : c.installing i x) : held i = some x :=
  (h.roles i).held_of_installing hi

/-- Nobody else is installing what a worker has the ticket for. -/
theorem alone (h : Inv o held c) (hi : held i = some x) (hj : c.installing j x) : j = i :=
  h.tickets.alone j i x x (h.held_of_installing hj) hi rfl

/-- Tickets that no worker has change their order, or are lost. -/
theorem requeue (h : Inv o held c) (hworkers : d.workers = c.workers) (hjob : d.job = c.job)
    (hinstalling : d.installing = c.installing) (hnewest : d.newest = c.newest)
    (hasked : d.asked = c.asked) (hclaims : d.state.claims = c.state.claims)
    (hqueue : d.queue.Subperm c.queue) : Inv o held d := by
  refine ⟨fun i => (h.roles i).congr ?_ ?_ ?_, ?_, ?_, ?_⟩
  · rw [hworkers]
  · rw [hjob]
  · rw [hinstalling]
  · rw [hasked]
    exact h.tickets.sub hqueue
  · rw [hclaims, hinstalling, hnewest]
    exact h.marks
  · rw [hclaims, hasked]
    exact h.counted

theorem meanwhile (h : Inv o held c) {w : Shared ρ} (hw : Elsewhere c.state w.state) :
    Inv o held { c with toShared := w } :=
  h.requeue rfl rfl rfl rfl rfl hw.claims ((List.subperm_append_left _).mpr hw.installs)

theorem ask (h : Inv o held c) (server : UInt64) (component : Component)
    (hcount : c.asked + 1 < 2 ^ 64) : Inv o held (c.ask server component) := by
  have hnext : (c.state.claims.lastTicket + 1).toNat = c.asked + 1 := by
    rw [UInt64.toNat_add, h.counted]
    exact Nat.mod_eq_of_lt hcount
  rcases c.state.claims.claim_outcomes server component with ⟨_, hclaim⟩ | ⟨hidle, hclaim⟩
  · refine ⟨fun i => (h.roles i).congr rfl rfl rfl, ?_, ?_, ?_⟩
    all_goals simp only [Scene.ask, Scene.queue, hclaim]
    · exact h.tickets.skip
    · exact h.marks.skip _
    · exact hnext
  · refine ⟨fun i => (h.roles i).congr rfl rfl rfl, ?_, ?_, ?_⟩
    all_goals simp only [Scene.ask, Scene.queue, hclaim]
    · exact h.tickets.give hnext
    · exact h.marks.next hidle
    · exact hnext

theorem hand (h : Inv o held c) (hx : x ∈ c.inHand) (queue : Queue) (delay : UInt64)
    (retry : RetryPolicy) : Inv o held (c.hand x queue delay retry) := by
  refine h.requeue rfl rfl rfl rfl rfl rfl (List.Perm.subperm ?_)
  have hinstalls := installs_dispatch c.state (.install x.server x.component x.ticket) queue delay
    retry
  refine (hinstalls.append_left _).trans ?_
  exact List.perm_middle.trans ((List.perm_cons_erase hx).symm.append_right _)

/-- One worker changes what it is about, and the ticket that it has. -/
theorem roles_update (h : Inv o held c) {ticket : Option Installation} (hi : Role o d i ticket)
    (hworkers : ∀ j, j ≠ i → d.workers j = c.workers j) (hjob : ∀ j, j ≠ i → d.job j = c.job j)
    (hinstalling : ∀ j, j ≠ i → d.installing j = c.installing j) (j : Nat) :
    Role o d j (Function.update held i ticket j) := by
  by_cases hj : j = i
  · rw [hj, Function.update_self]
    exact hi
  · rw [Function.update_of_ne hj]
    exact (h.roles j).congr (hworkers j hj) (hjob j hj) (hinstalling j hj)

theorem take (h : Inv o held c) {e : Entry Job} {rest : Scheduler Job}
    (hfree : c.workers i = none) (hpick : c.state.scheduler.pick? = some (e, rest)) :
    Inv o (Function.update held i e.job.installation?) (c.take i e rest) := by
  have hnone := (h.roles i).of_free hfree
  have hqueue : c.queue.Perm (e.job.installation?.toList ++ (c.take i e rest).queue) := by
    have hinstalls : c.state.installs.Perm
        (e.job.installation?.toList ++ (c.take i e rest).state.installs) :=
      installs_of_perm (Scheduler.pick?_entries hpick)
    refine (hinstalls.append_left c.inHand).trans ?_
    rw [← List.append_assoc, Scene.queue, ← List.append_assoc]
    exact List.perm_append_comm.append_right _
  obtain ⟨x, phase, hplays, hheld, hphase⟩ := plays_attempt o e
  refine ⟨h.roles_update ?_ (fun j hj => Function.update_of_ne hj ..)
    (fun j hj => Function.update_of_ne hj ..) fun _ _ => rfl, ?_, h.marks, h.counted⟩
  · rw [← hheld]
    refine .busy (Function.update_self ..) (Function.update_self ..) hplays (fun hgone => ?_)
      fun y => ⟨fun hy => absurd hy (hnone y), fun hy => absurd hy.1 hphase⟩
    rw [← hheld]
    cases phase with
    | gone => exact absurd rfl hgone
    | _ => rfl
  · cases hjob : e.job.installation? with
    | none =>
      rw [hjob] at hqueue
      exact (h.tickets.sub hqueue.symm.subperm).drop i
    | some y =>
      rw [hjob] at hqueue
      exact (h.tickets.sub hqueue.symm.subperm).take i

section Moves

variable {phase after : Phase} {t : Orchestrator}

theorem move_tickets (h : Inv o held c) (hheld : held i = phase.held x)
    (hmove : Move x c.state t phase after) :
    Tickets (c.inHand ++ t.installs) (Function.update held i (after.held x)) c.asked := by
  cases hmove with
  | aside haside =>
    rw [← hheld, Function.update_eq_self]
    exact h.tickets.sub ((List.subperm_append_left _).mpr haside.installs)
  | begins _ _ hinstalls =>
    have hsame : Phase.installing.held x = Phase.holding.held x := rfl
    rw [hsame, ← hheld, Function.update_eq_self, hinstalls]
    exact h.tickets
  | givesUp hphase _ hinstalls =>
    have hsame : Phase.holding.held x = phase.held x := by
      cases phase with
      | gone => exact absurd rfl hphase
      | _ => rfl
    rw [hsame, ← hheld, Function.update_eq_self, hinstalls]
    exact h.tickets
  | back hback =>
    refine (h.tickets.back hheld).sub ?_
    exact ((List.subperm_append_left _).mpr hback.installs).trans List.perm_middle.subperm

theorem move_marks (h : Inv o held c) (hheld : held i = phase.held x)
    (hmarks : c.installing i = phase.marks x) (hmove : Move x c.state t phase after) :
    Marks t.claims (Function.update c.installing i (after.marks x)) c.newest := by
  have halone : phase ≠ .gone → ∀ j, c.installing j x → j = i := by
    intro hphase j hj
    refine h.alone (hheld.trans ?_) hj
    cases phase with
    | gone => exact absurd rfl hphase
    | _ => rfl
  cases hmove with
  | aside haside =>
    rw [← hmarks, Function.update_eq_self, haside.claims]
    exact h.marks
  | begins hstart hclaims _ =>
    rcases c.state.claims.start_outcomes x.server x.component x.ticket with
      ⟨⟨running, hclaim⟩, hstarted⟩ | ⟨_, hrefused⟩
    · rw [hclaims, hstarted]
      refine h.marks.start (fun y hy => ?_) (fun y => ?_) hclaim
      · rw [hmarks] at hy
        exact Phase.noConfusion hy.1
      · exact ⟨(·.2), fun hy => ⟨rfl, hy⟩⟩
    · rw [hrefused] at hstart
      cases hstart
  | givesUp hphase hgives _ =>
    refine h.marks.giveUp (halone hphase) (fun y hy => ?_) hgives fun y hy => ?_
    · rw [hmarks] at hy
      exact hy.2
    · exact Phase.noConfusion hy.1
  | back hback =>
    have hsame : Phase.gone.marks x = Phase.holding.marks x :=
      funext fun y => propext ⟨fun hy => Phase.noConfusion hy.1, fun hy => Phase.noConfusion hy.1⟩
    rw [hsame, ← hmarks, Function.update_eq_self, hback.claims]
    exact h.marks

theorem move_lastTicket {s : Orchestrator} (hmove : Move x s t phase after) :
    t.claims.lastTicket = s.claims.lastTicket := by
  cases hmove with
  | aside haside => rw [haside.claims]
  | begins _ hclaims _ => rw [hclaims, Claims.start_lastTicket]
  | givesUp _ hgives _ => exact hgives.lastTicket
  | back hback => rw [hback.claims]

end Moves

/-- **A worker's step.** -/
theorem goOn (h : Inv o held c) {p p' : Process Orchestrator Unit} {w : Shared ρ}
    (hi : c.workers i = some p) (hs : Advance o c.toShared p w p') :
    ∃ ticket, Inv o (Function.update held i ticket) (c.goOn i p p' w) := by
  obtain ⟨e, x, phase, hheld, he, hplays, hjob, hmarks⟩ := (h.roles i).of_busy hi
  obtain ⟨after, hplays', hmove, hmarked⟩ := hplays.of_advance hs
  rw [← hmarks] at hmarked
  have hafter : marked c.state p (c.installing i) = after.marks x :=
    funext fun y => propext (hmarked y)
  refine ⟨after.held x, h.roles_update ?_ (fun j hj => Function.update_of_ne hj ..)
    (fun _ _ => rfl) (fun j hj => Function.update_of_ne hj ..), ?_, ?_, ?_⟩
  · refine .busy (Function.update_self ..) he hplays' (fun hgone => hjob (hmove.ne_gone hgone)) ?_
    intro y
    rw [← hafter]
    exact iff_of_eq (congrFun (Function.update_self ..) y)
  · exact h.move_tickets hheld hmove
  · have hinstalling := h.move_marks hheld hmarks hmove
    rw [← hafter] at hinstalling
    exact hinstalling
  · exact (congrArg UInt64.toNat (move_lastTicket hmove)).trans h.counted

theorem leave (h : Inv o held c) (hi : c.workers i = some (.done ())) :
    Inv o (Function.update held i none) (c.leave i) := by
  obtain ⟨e, x, phase, -, -, hplays, -, hmarks⟩ := (h.roles i).of_busy hi
  refine ⟨h.roles_update (.free (Function.update_self ..) fun y hy => ?_)
    (fun j hj => Function.update_of_ne hj ..) (fun j hj => Function.update_of_ne hj ..)
    fun _ _ => rfl, h.tickets.drop i, h.marks, h.counted⟩
  have hy : c.installing i y := hy
  rw [hmarks] at hy
  exact hplays.of_done hy.1

/-- **Every step keeps it**, as long as there are tickets left. -/
theorem step (h : Inv o held c) (hs : Step o c d) (hcount : d.asked < 2 ^ 64) :
    ∃ held', Inv o held' d := by
  cases hs with
  | meanwhile hw => exact ⟨_, h.meanwhile hw⟩
  | ask server component => exact ⟨_, h.ask server component hcount⟩
  | hand hx queue delay retry => exact ⟨_, h.hand hx queue delay retry⟩
  | take hfree hpick => exact ⟨_, h.take hfree hpick⟩
  | goOn hi hs =>
    obtain ⟨ticket, hinv⟩ := h.goOn hi hs
    exact ⟨_, hinv⟩
  | leave hi => exact ⟨_, h.leave hi⟩

end Inv

theorem asked_le_of_step (h : Step o c d) : c.asked ≤ d.asked := by
  cases h with
  | ask => exact Nat.le_succ _
  | _ => exact Nat.le_refl _

/-- **From the beginning on.** -/
theorem inv_of_run (hfirst : c.IsFirst) (hrun : Run o c d) (hcount : d.asked < 2 ^ 64) :
    ∃ held, Inv o held d := by
  induction hrun with
  | refl => exact ⟨_, .first hfirst⟩
  | tail _ hs ih =>
    obtain ⟨held, hinv⟩ := ih (Nat.lt_of_le_of_lt (asked_le_of_step hs) hcount)
    exact hinv.step hs hcount

/-! ## Who is installing -/

/-- Whoever comes to install something has the newest ticket for it. -/
theorem newest_of_step {held : Nat → Option Installation} (h : Inv o held c) (hs : Step o c d)
    {i : Nat} {x : Installation} (hbefore : ¬ c.installing i x) (hafter : d.installing i x) :
    c.newest x.place = some x.ticket := by
  cases hs with
  | @goOn j p p' w hj hs =>
    have hafter : Function.update c.installing j (marked c.state p (c.installing j)) i x := hafter
    by_cases hi : i = j
    · subst hi
      rw [Function.update_self] at hafter
      rcases hafter with ⟨_, hstart⟩ | ⟨hinstalling, _⟩
      · rcases c.state.claims.start_outcomes x.server x.component x.ticket with
          ⟨⟨running, hclaim⟩, _⟩ | ⟨_, hrefused⟩
        · exact h.marks.newest _ _ _ hclaim
        · rw [hrefused] at hstart
          cases hstart
      · exact absurd hinstalling hbefore
    · rw [Function.update_of_ne hi] at hafter
      exact absurd hafter hbefore
  | _ => exact absurd hafter hbefore

/-- Whoever is installing something is in the middle of the job that has the ticket for it. -/
theorem job_of_installing {held : Nat → Option Installation} (h : Inv o held c) {i : Nat}
    {x : Installation} (hx : c.installing i x) :
    ∃ e p, c.job i = some e ∧ e.job = .install x.server x.component x.ticket ∧
      c.workers i = some p ∧ p ≠ .done () := by
  have hrole := h.roles i
  cases hi : c.workers i with
  | none => exact absurd hx (hrole.of_free hi x)
  | some p =>
    obtain ⟨e, y, phase, -, he, hplays, hjob, hmarks⟩ := hrole.of_busy hi
    rw [hmarks] at hx
    obtain ⟨rfl, rfl⟩ := hx
    refine ⟨e, p, he, Job.eq_install (hjob nofun), rfl, ?_⟩
    rintro rfl
    exact hplays.of_done rfl

/-- Where nobody is installing a ticket is given, and its job may begin. -/
theorem claim_of_idle {held : Nat → Option Installation} (h : Inv o held c) {server : UInt64}
    {component : Component} (hidle : ∀ i x, c.installing i x → x.place ≠ (server, component)) :
    ∃ ticket, (c.state.claims.claim server component).1 = some ticket ∧
      ((c.state.claims.claim server component).2.start server component ticket).1 = true := by
  have hclaim := c.state.claims.claim_of_idle server component fun ticket hget => by
    obtain ⟨i, hi⟩ := (h.marks.running ⟨server, component, ticket⟩).mp hget
    exact hidle i _ hi rfl
  refine ⟨c.state.claims.lastTicket + 1, by rw [hclaim], ?_⟩
  rw [hclaim]
  have hnext : (c.state.claims.next server component).get? server component =
      some ⟨c.state.claims.lastTicket + 1, false⟩ := by
    rw [Claims.get?_next, if_pos rfl]
  rcases (c.state.claims.next server component).start_outcomes server component
    (c.state.claims.lastTicket + 1) with ⟨_, hstart⟩ | ⟨hother, _⟩
  · rw [hstart]
  · exact absurd hnext (hother false)

/-- **One installation at a time.** However events of servers, jobs and their retries mix, as long
as there are tickets left: a component of a server is installed by one worker at most; its claim is
marked exactly while a worker is installing it, and then has the ticket of that worker's job, which
has not ended; whoever comes to install it has the newest ticket that was given for it; and while
nobody is installing it a new ticket can be had, whose job may begin. -/
theorem one_installation_at_a_time (hfirst : c.IsFirst) (hrun : Run o c d)
    (hcount : d.asked < 2 ^ 64) :
    (∀ i j x y, d.installing i x → d.installing j y → x.place = y.place → i = j ∧ x = y) ∧
    (∀ server component ticket,
      d.state.claims.get? server component = some ⟨ticket, true⟩ ↔
        ∃ i, d.installing i ⟨server, component, ticket⟩) ∧
    (∀ i x, d.installing i x → ∃ e p, d.job i = some e ∧
      e.job = .install x.server x.component x.ticket ∧ d.workers i = some p ∧ p ≠ .done ()) ∧
    (∀ e i x, Step o d e → ¬ d.installing i x → e.installing i x →
      d.newest x.place = some x.ticket) ∧
    ∀ server component, (∀ i x, d.installing i x → x.place ≠ (server, component)) →
      ∃ ticket, (d.state.claims.claim server component).1 = some ticket ∧
        ((d.state.claims.claim server component).2.start server component ticket).1 = true := by
  obtain ⟨held, h⟩ := inv_of_run hfirst hrun hcount
  refine ⟨fun i j x y hx hy hplace => ?_, fun server component ticket => h.marks.running ⟨_, _, _⟩,
    fun i x => job_of_installing h, fun e i x hs => newest_of_step h hs,
    fun server component => claim_of_idle h⟩
  have hget := (h.marks.running x).mpr ⟨i, hx⟩
  obtain rfl := h.marks.eq_of_installing hget hplace.symm ⟨j, hy⟩
  exact ⟨h.alone (h.held_of_installing hy) hx, rfl⟩

/-! ## A server -/

namespace Demo

/-- A server without components, and nothing else. -/
def first : Scene Unit where
  state := { registry := ⟨[{ id := 1, name := "one", host := "one.test" }]⟩ }
  held := []
  outside := ()

/-- A server that may answer anything. -/
def oracle : Oracle Unit := fun _ _ _ _ => some ()

theorem isFirst : first.IsFirst :=
  ⟨rfl, rfl, rfl, fun _ => rfl, fun _ _ => id, rfl⟩

/-- A ticket, its job, and a worker that begins. -/
def begun : List Choice :=
  [.ask 1 .requestLogging, .hand, .arrive, .take 0] ++ List.replicate 3 (.goOn 0 (.ok ""))

/-- The only attempt fails and the claim is paused; a newer job installs the component; and the
first one, which knows nothing of it, goes on to its end. -/
def overtaken : List Choice :=
  begun ++ List.replicate 4 (.goOn 0 (.error (.transport "lost"))) ++
    [.ask 1 .requestLogging, .hand, .arrive, .take 1] ++ List.replicate 10 (.goOn 1 (.ok "")) ++
    List.replicate 3 (.goOn 0 (.ok ""))

end Demo

/-- The worker that has begun. -/
theorem one_installation_at_a_time_begun :
    ∃ d : Scene Unit,
      (Demo.first.IsFirst ∧ Run Demo.oracle.outside Demo.first d ∧ d.asked < 2 ^ 64) ∧
      d.state.claims.get? 1 .requestLogging = some ⟨1, true⟩ ∧
      (∃ i, d.installing i ⟨1, .requestLogging, 1⟩) ∧
      ∀ i j x y, d.installing i x → d.installing j y → x.place = y.place → i = j ∧ x = y := by
  obtain ⟨d, hd⟩ : ∃ d, follow Demo.oracle Demo.begun Demo.first = some d :=
    Option.isSome_iff_exists.mp (by decide +kernel)
  have hseen : (follow Demo.oracle Demo.begun Demo.first).map
      (fun d => (d.state.claims.get? 1 .requestLogging, d.asked)) = some (some ⟨1, true⟩, 1) := by
    decide +kernel
  rw [hd] at hseen
  obtain ⟨hclaim, hasked⟩ := Prod.mk.inj (Option.some.inj hseen)
  have hrun := run_of_follow hd
  have hcount : d.asked < 2 ^ 64 := by
    rw [hasked]
    decide
  obtain ⟨halone, hmarked, -⟩ := one_installation_at_a_time Demo.isFirst hrun hcount
  exact ⟨d, ⟨Demo.isFirst, hrun, hcount⟩, hclaim, (hmarked 1 .requestLogging 1).mp hclaim, halone⟩

/-- **Failures are not kept apart in this way.** Between the end of a job's last attempt and the
record of its failure another job may get a newer ticket and install the component; the flag that
it has set is then taken back by the first one. -/
theorem failure_is_recorded_late :
    ∃ c d : Scene Unit, Run Demo.oracle.outside Demo.first c ∧
      (Choice.goOn 0 (.ok "")).perform Demo.oracle c = some d ∧
      (c.job 0).map (·.job) = some (.install 1 .requestLogging 1) ∧
      c.newest (1, .requestLogging) = some 2 ∧
      (c.state.registry.get? 1).map (·.status.requestLogging) = some true ∧
      (d.state.registry.get? 1).map (·.status.requestLogging) = some false := by
  obtain ⟨c, hc⟩ : ∃ c, follow Demo.oracle Demo.overtaken Demo.first = some c :=
    Option.isSome_iff_exists.mp (by decide +kernel)
  have hseen : ((follow Demo.oracle Demo.overtaken Demo.first).bind fun c =>
      ((Choice.goOn 0 (.ok "")).perform Demo.oracle c).map fun d =>
        ((c.job 0).map (·.job), c.newest (1, .requestLogging),
          (c.state.registry.get? 1).map (·.status.requestLogging),
          (d.state.registry.get? 1).map (·.status.requestLogging))) =
      some (some (.install 1 .requestLogging 1), some 2, some true, some false) := by
    decide +kernel
  rw [hc] at hseen
  obtain ⟨d, hd, hseen⟩ := Option.map_eq_some_iff.mp hseen
  simp only [Prod.mk.injEq] at hseen
  exact ⟨c, d, run_of_follow hc, hd, hseen⟩

end Install

end Rampart
