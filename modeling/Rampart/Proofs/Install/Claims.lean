import Rampart.Install.Plan
import Rampart.Proofs.Table

/-!
# What becomes of claims

All that can come of each operation on the claims, in terms of the claim on one component of one
server; the claims on others stay.

* `Installation`: a component of a server, with the ticket of the job that installs it.
* `Claims.claim_outcomes`, `Claims.start_outcomes`: a ticket is given or refused, an installation
  is begun or not.
* `Claims.GivesUp`: what pausing and releasing have in common.
-/

namespace Rampart

/-- A component of a server, with the ticket of the job that is to install it. -/
structure Installation where
  server : UInt64
  component : Component
  ticket : UInt64
deriving DecidableEq, Repr

namespace Installation

/-- The component and its server. -/
def place (x : Installation) : UInt64 × Component :=
  (x.server, x.component)

theorem eq_of_place {x y : Installation} (hplace : x.place = y.place)
    (hticket : x.ticket = y.ticket) : x = y := by
  obtain ⟨server, component, ticket⟩ := x
  obtain ⟨server', component', ticket'⟩ := y
  obtain ⟨rfl, rfl⟩ := Prod.mk.inj hplace
  obtain rfl : ticket = ticket' := hticket
  rfl

end Installation

namespace Claims

variable (c : Claims) (server : UInt64) (component : Component)

theorem get?_set (claim : Claim) (server' : UInt64) (component' : Component) :
    (c.set server component claim).get? server' component' =
      if (server', component') = (server, component) then some claim
      else c.get? server' component' :=
  Table.get?_insert ..

@[simp] theorem get?_set_self (claim : Claim) :
    (c.set server component claim).get? server component = some claim := by
  rw [get?_set, if_pos rfl]

@[simp] theorem set_lastTicket (claim : Claim) :
    (c.set server component claim).lastTicket = c.lastTicket := rfl

/-! ## Claiming -/

/-- A new claim, with the next ticket. -/
def next : Claims :=
  { c with lastTicket := c.lastTicket + 1 }.set server component ⟨c.lastTicket + 1, false⟩

/-- **What comes of asking for a ticket**: it is refused exactly if an installation runs, and a
number is used up in either case. -/
theorem claim_outcomes :
    (∃ ticket, c.get? server component = some ⟨ticket, true⟩) ∧
        c.claim server component = (none, { c with lastTicket := c.lastTicket + 1 }) ∨
      (∀ ticket, c.get? server component ≠ some ⟨ticket, true⟩) ∧
        c.claim server component = (some (c.lastTicket + 1), c.next server component) := by
  have hget : { c with lastTicket := c.lastTicket + 1 }.get? server component =
    c.get? server component := rfl
  unfold claim
  simp only [hget]
  split
  · rename_i ticket hrunning
    exact .inl ⟨⟨ticket, hrunning⟩, rfl⟩
  · rename_i hidle
    exact .inr ⟨hidle, rfl⟩

/-- A ticket is given if no installation runs. -/
theorem claim_of_idle (h : ∀ ticket, c.get? server component ≠ some ⟨ticket, true⟩) :
    c.claim server component = (some (c.lastTicket + 1), c.next server component) := by
  rcases c.claim_outcomes server component with ⟨⟨ticket, hrunning⟩, _⟩ | ⟨_, hclaim⟩
  · exact absurd hrunning (h ticket)
  · exact hclaim

theorem get?_next (server' : UInt64) (component' : Component) :
    (c.next server component).get? server' component' =
      if (server', component') = (server, component) then some ⟨c.lastTicket + 1, false⟩
      else c.get? server' component' :=
  get?_set ..

/-! ## Beginning -/

/-- The claim of a ticket is not that of another. -/
theorem ne_of_ticket_ne {ticket : UInt64} {found : Claim}
    (hfound : c.get? server component = some found) (hticket : found.ticket ≠ ticket)
    (running : Bool) : c.get? server component ≠ some ⟨ticket, running⟩ := by
  intro heq
  rw [hfound] at heq
  exact hticket (congrArg Claim.ticket (Option.some.inj heq))

/-- **What comes of beginning**: the claim is marked if it has the ticket, else nothing is. -/
theorem start_outcomes (ticket : UInt64) :
    (∃ running, c.get? server component = some ⟨ticket, running⟩) ∧
        c.start server component ticket = (true, c.set server component ⟨ticket, true⟩) ∨
      (∀ running, c.get? server component ≠ some ⟨ticket, running⟩) ∧
        c.start server component ticket = (false, c) := by
  unfold start
  split
  · rename_i found hfound
    by_cases hticket : found.ticket = ticket
    · subst hticket
      exact .inl ⟨⟨found.running, hfound⟩, by rw [if_pos rfl]⟩
    · exact .inr ⟨c.ne_of_ticket_ne server component hfound hticket, by rw [if_neg hticket]⟩
  · rename_i hnone
    exact .inr ⟨fun running heq => by simp [hnone] at heq, rfl⟩

theorem start_of_refused {ticket : UInt64} (h : (c.start server component ticket).1 = false) :
    (c.start server component ticket).2 = c := by
  rcases c.start_outcomes server component ticket with ⟨_, hstart⟩ | ⟨_, hstart⟩
  · rw [hstart] at h
    cases h
  · rw [hstart]

section Mark

variable {c} {x : Installation} {running : Bool}

/-- Once an installation is marked, it is marked besides those that were. -/
theorem running_set_iff (h : c.get? x.server x.component = some ⟨x.ticket, running⟩)
    (y : Installation) :
    (c.set x.server x.component ⟨x.ticket, true⟩).get? y.server y.component =
        some ⟨y.ticket, true⟩ ↔
      y = x ∨ c.get? y.server y.component = some ⟨y.ticket, true⟩ := by
  rw [get?_set]
  split
  · rename_i hplace
    constructor
    · intro hmark
      exact .inl (Installation.eq_of_place hplace
        (congrArg Claim.ticket (Option.some.inj hmark)).symm)
    · rintro (rfl | hmark)
      · rfl
      · obtain ⟨hserver, hcomponent⟩ := Prod.mk.inj hplace
        rw [hserver, hcomponent, h] at hmark
        obtain ⟨hticket, -⟩ := Claim.mk.inj (Option.some.inj hmark)
        rw [hticket]
  · rename_i hplace
    refine ⟨.inr, ?_⟩
    rintro (rfl | hmark)
    · exact absurd rfl hplace
    · exact hmark

/-- Marking an installation gives no new ticket. -/
theorem ticket_of_get?_set (h : c.get? x.server x.component = some ⟨x.ticket, running⟩)
    {server : UInt64} {component : Component} {claim : Claim}
    (hget : (c.set x.server x.component ⟨x.ticket, true⟩).get? server component = some claim) :
    ∃ found, c.get? server component = some found ∧ found.ticket = claim.ticket := by
  rw [get?_set] at hget
  split at hget
  · rename_i hplace
    obtain ⟨rfl, rfl⟩ := Prod.mk.inj hplace
    exact ⟨_, h, Option.some.inj hget ▸ rfl⟩
  · exact ⟨claim, hget, rfl⟩

end Mark

@[simp] theorem start_lastTicket (ticket : UInt64) :
    (c.start server component ticket).2.lastTicket = c.lastTicket := by
  rcases c.start_outcomes server component ticket with ⟨_, hstart⟩ | ⟨_, hstart⟩ <;> rw [hstart]
  exact set_lastTicket ..

/-! ## Giving up -/

/-- **What pausing and releasing have in common**: if the claim has the ticket it is no longer
marked, or it is gone; otherwise nothing changes. -/
structure GivesUp (x : Installation) (before after : Claims) : Prop where
  lastTicket : after.lastTicket = before.lastTicket
  other : ∀ server component, (server, component) ≠ x.place →
    after.get? server component = before.get? server component
  place : (∃ running, before.get? x.server x.component = some ⟨x.ticket, running⟩) ∧
      (after.get? x.server x.component = none ∨
        after.get? x.server x.component = some ⟨x.ticket, false⟩) ∨
    (∀ running, before.get? x.server x.component ≠ some ⟨x.ticket, running⟩) ∧
      after.get? x.server x.component = before.get? x.server x.component

variable {c}

theorem GivesUp.of_other {x : Installation}
    (h : ∀ running, c.get? x.server x.component ≠ some ⟨x.ticket, running⟩) : GivesUp x c c :=
  ⟨rfl, fun _ _ _ => rfl, .inr ⟨h, rfl⟩⟩

/-- What is marked afterwards was marked before, and is something else. -/
theorem GivesUp.running_iff {x : Installation} {before after : Claims}
    (h : GivesUp x before after) (y : Installation) :
    after.get? y.server y.component = some ⟨y.ticket, true⟩ ↔
      before.get? y.server y.component = some ⟨y.ticket, true⟩ ∧ y ≠ x := by
  by_cases hplace : y.place = x.place
  · obtain ⟨hserver, hcomponent⟩ := Prod.mk.inj hplace
    rw [hserver, hcomponent]
    rcases h.place with ⟨⟨running, hclaim⟩, hafter⟩ | ⟨hno, hsame⟩
    · constructor
      · intro hget
        rcases hafter with hnone | hsome
        · rw [hnone] at hget
          cases hget
        · simp [hsome] at hget
      · rintro ⟨hget, hyx⟩
        rw [hclaim] at hget
        exact absurd (Installation.eq_of_place hplace
          (congrArg Claim.ticket (Option.some.inj hget)).symm) hyx
    · rw [hsame]
      exact ⟨fun hget => ⟨hget, fun heq => hno true (heq ▸ hget)⟩, (·.1)⟩
  · rw [h.other _ _ hplace]
    exact ⟨fun hget => ⟨hget, fun heq => hplace (heq ▸ rfl)⟩, (·.1)⟩

/-- Giving up gives no new ticket. -/
theorem GivesUp.ticket_of_get? {x : Installation} {before after : Claims}
    (h : GivesUp x before after) {server : UInt64} {component : Component} {claim : Claim}
    (hget : after.get? server component = some claim) :
    ∃ found, before.get? server component = some found ∧ found.ticket = claim.ticket := by
  by_cases hplace : (server, component) = x.place
  · obtain ⟨rfl, rfl⟩ := Prod.mk.inj hplace
    rcases h.place with ⟨⟨running, hclaim⟩, hnone | hsome⟩ | ⟨_, hsame⟩
    · rw [hnone] at hget
      cases hget
    · rw [hsome] at hget
      exact ⟨_, hclaim, Option.some.inj hget ▸ rfl⟩
    · exact ⟨claim, hsame ▸ hget, rfl⟩
  · exact ⟨claim, h.other _ _ hplace ▸ hget, rfl⟩

variable (c)

theorem pause_givesUp (x : Installation) :
    GivesUp x c (c.pause x.server x.component x.ticket) := by
  unfold pause
  split
  · rename_i found hfound
    split
    · rename_i hticket
      refine ⟨rfl, fun server component hne => ?_, .inl ⟨⟨found.running, ?_⟩, .inr ?_⟩⟩
      · exact (get?_set ..).trans (if_neg hne)
      · rw [hfound, ← hticket]
      · exact get?_set_self ..
    · rename_i hticket
      exact .of_other (c.ne_of_ticket_ne _ _ hfound hticket)
  · rename_i hnone
    exact .of_other fun running heq => by simp [hnone] at heq

theorem release_givesUp (x : Installation) :
    GivesUp x c (c.release x.server x.component x.ticket) := by
  unfold release
  split
  · rename_i found hfound
    split
    · rename_i hticket
      refine ⟨rfl, fun server component hne => ?_, .inl ⟨⟨found.running, ?_⟩, .inl ?_⟩⟩
      · exact (Table.get?_erase ..).trans (if_neg hne)
      · rw [hfound, ← hticket]
      · exact (Table.get?_erase ..).trans (if_pos rfl)
    · rename_i hticket
      exact .of_other (c.ne_of_ticket_ne _ _ hfound hticket)
  · rename_i hnone
    exact .of_other fun running heq => by simp [hnone] at heq

end Claims

end Rampart
