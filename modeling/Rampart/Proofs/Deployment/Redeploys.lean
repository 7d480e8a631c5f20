import Rampart.Proofs.Deployment.RedeployMoves
import Rampart.Proofs.Deployment.Shop

/-!
# Redeploys are neither lost nor invented

A redeploy that is asked for stays due until a sync takes it, whichever sync that is, and a sync
that has taken it tells the outside, whatever comes of that.

* `Inv`: what is due and who owes what, by the marks so far. **`Inv.step`**.
* **`redeploys_neither_lost_nor_invented`**: after any run. `shop_is_redeployed`: one that succeeds.
* **`IsPlanning.handleEvent`**, **`IsPlanning.resync`**: events are handled by such steps.
-/

namespace Rampart.Redeploy

open Accounting (Stage Move Tally Goes)

variable {firewall : UInt64}

/-! ## What is true at all times -/

theorem Hand.Fits.mono {newest : UInt64} {taken taken' : Prop} {hand : Hand}
    (h : hand.Fits firewall newest taken) (hle : taken → taken') :
    hand.Fits firewall newest taken' := by
  cases h with
  | picked e isFresh => exact .picked e isFresh
  | aside hsync h => exact .aside hsync h
  | before hsync h hcurrent => exact .before hsync h hcurrent
  | owing hsync h htaken => exact .owing hsync h fun hfresh => hle (htaken hfresh)
  | silent hsync h htaken => exact .silent hsync h fun hfresh => hle (htaken hfresh)
  | reporting h => exact .reporting h

/-- Nothing is expected of a worker that has begun before the newest sync was planned. -/
theorem Hand.Fits.age {newest newest' : UInt64} {taken taken' : Prop} {hand : Hand}
    (h : hand.Fits firewall newest taken) : hand.age.Fits firewall newest' taken' := by
  cases h with
  | picked e _ => exact .picked e false
  | aside hsync h => exact .aside hsync h
  | before hsync h _ => exact .before hsync h nofun
  | owing hsync h _ => exact .owing hsync h nofun
  | silent hsync h _ => exact .silent hsync h nofun
  | reporting h => exact .reporting h

/-- Whether a redeploy is due. -/
def Scene.isDue (firewall : UInt64) (c : Scene) : Bool :=
  (c.state.syncState firewall).redeployDue

/-- **What is true at all times**, by the marks so far. -/
structure Inv (firewall : UInt64) (trace : List Mark) (c : Scene) : Prop where
  fits : ∀ hand ∈ c.hands, hand.Fits firewall (c.state.generation firewall)
    (After Mark.isTook Mark.isPlan trace)
  due : c.isDue firewall = true ↔ After Mark.isAsk Mark.isTook trace
  /-- Whoever asks, and whatever is due, was asked for. -/
  count : trace.countP Mark.isTold + c.hands.countP (Hand.owes firewall) +
    (c.isDue firewall).toNat ≤ trace.countP Mark.isAsk
  /-- What was taken was passed on, or will be. -/
  owed : (∃ m ∈ trace, m.isAsk = true) → After Mark.isTook Mark.isAsk trace →
    After Mark.isTold Mark.isAsk trace ∨ ∃ hand ∈ c.hands, hand.owes firewall = true
  done : After Mark.isSucceeded Mark.isPlan trace → After Mark.isTook Mark.isPlan trace

theorem inv_of_beginning {c : Scene} (h : Beginning firewall c) : Inv firewall [] c where
  fits hand hhand := by
    rw [h.hands] at hhand
    cases hhand
  due := by
    unfold Scene.isDue
    rw [h.due]
    exact ⟨nofun, fun hafter => absurd hafter not_after_nil⟩
  count := by
    unfold Scene.isDue
    rw [h.hands, h.due]
    exact Nat.le_refl _
  owed hasked := by
    obtain ⟨_, hm, _⟩ := hasked
    cases hm
  done hafter := absurd hafter not_after_nil

section Steps

variable {trace : List Mark} {c : Scene}

theorem Keeps.isDue_eq {c d : Scene} (h : Keeps firewall c.state d.state) :
    d.isDue firewall = c.isDue firewall := by
  unfold Scene.isDue Orchestrator.syncState
  rw [h]

/-- Only the syncs of the firewall matter of a state. -/
theorem Inv.keeps (h : Inv firewall trace c) {s : Orchestrator} (hs : Keeps firewall c.state s) :
    Inv firewall trace { c with state := s } := by
  have hdue : Scene.isDue firewall { c with state := s } = c.isDue firewall := hs.isDue_eq
  refine ⟨?_, by rw [hdue]; exact h.due, by rw [hdue]; exact h.count, h.owed, h.done⟩
  rw [hs.generation_eq]
  exact h.fits

theorem isDue_planSync (c : Scene) (redeploy : Bool) (hands : List Hand) :
    Scene.isDue firewall ⟨(c.state.planSync firewall redeploy).2, hands⟩ =
      (c.isDue firewall || redeploy) := by
  have hget : (c.state.planSync firewall redeploy).2.syncs.get? firewall =
      some ⟨c.state.generation firewall + 1, c.isDue firewall || redeploy⟩ :=
    (Table.get?_insert _ firewall firewall _).trans (if_pos rfl)
  rw [Scene.isDue, Orchestrator.syncState, hget]
  rfl

theorem countP_concat {x : Mark → Bool} (m : Mark) :
    (trace ++ [m]).countP x = trace.countP x + (x m).toNat := by
  rw [List.countP_append, List.countP_singleton]
  cases x m <;> rfl

theorem asked_of_concat {m : Mark} (hm : m.isAsk = false)
    (h : ∃ n ∈ trace ++ [m], n.isAsk = true) : ∃ n ∈ trace, n.isAsk = true := by
  obtain ⟨n, hn, hask⟩ := h
  rcases List.mem_append.mp hn with hn | hn
  · exact ⟨n, hn, hask⟩
  · rw [List.mem_singleton.mp hn, hm] at hask
    cases hask

/-- A sync is planned. -/
theorem Inv.plan (h : Inv firewall trace c) (redeploy : Bool) :
    Inv firewall (trace ++ [.planned redeploy])
      ⟨(c.state.planSync firewall redeploy).2, c.hands.map Hand.age⟩ where
  fits hand hhand := by
    obtain ⟨hand, hmem, rfl⟩ := List.mem_map.mp hhand
    exact (h.fits hand hmem).age
  due := by
    rw [isDue_planSync, after_concat, Bool.or_eq_true, h.due, or_comm]
    exact or_congr_right ⟨fun hafter => ⟨hafter, rfl⟩, fun hafter => hafter.1⟩
  count := by
    have hcount := h.count
    have howes : (c.hands.map Hand.age).countP (Hand.owes firewall) =
        c.hands.countP (Hand.owes firewall) := List.countP_map
    have hdue : (c.isDue firewall || redeploy).toNat ≤
        (c.isDue firewall).toNat + redeploy.toNat := by
      cases c.isDue firewall <;> cases redeploy <;> decide
    rw [isDue_planSync, countP_concat, countP_concat, howes]
    simp only [Mark.isTold, Mark.isAsk, Bool.toNat_false]
    omega
  owed hasked hafter := by
    rw [after_concat] at hafter ⊢
    rcases hafter with hfalse | ⟨hafter, hredeploy⟩
    · cases hfalse
    · have hasked' : ∃ m ∈ trace, m.isAsk = true := by
        obtain ⟨m, hm, hask⟩ := hasked
        rcases List.mem_append.mp hm with hm | hm
        · exact ⟨m, hm, hask⟩
        · rw [List.mem_singleton.mp hm, hredeploy] at hask
          cases hask
      rcases h.owed hasked' hafter with htold | ⟨hand, hmem, howes⟩
      · exact .inl (.inr ⟨htold, hredeploy⟩)
      · exact .inr ⟨hand.age, List.mem_map_of_mem hmem, howes⟩
  done hafter := by
    rw [after_concat] at hafter
    rcases hafter with hfalse | ⟨-, hfalse⟩ <;> cases hfalse

/-! ### Workers -/

variable {s t : Orchestrator} {before after : List Hand} {hand : Hand} {next : Option Hand}

/-- The others stay where they are. -/
theorem mem_of_mem_frame (next : Option Hand) {n : Hand} (h : n ∈ before ++ next.toList ++ after) :
    n ∈ next ∨ n ∈ before ++ hand :: after := by
  simp only [List.mem_append, Option.mem_toList] at h
  rcases h with (h | h) | h
  · exact .inr (List.mem_append_left _ h)
  · exact .inl h
  · exact .inr (List.mem_append_right _ (List.mem_cons_of_mem _ h))

theorem exists_owing_of_frame (next : Option Hand) (howes : hand.owes firewall = false)
    (h : ∃ n ∈ before ++ hand :: after, n.owes firewall = true) :
    ∃ n ∈ before ++ next.toList ++ after, n.owes firewall = true := by
  obtain ⟨n, hn, howing⟩ := h
  refine ⟨n, ?_, howing⟩
  rcases List.mem_append.mp hn with hn | hn
  · exact List.mem_append_left _ (List.mem_append_left _ hn)
  rcases List.mem_cons.mp hn with rfl | hn
  · rw [howes] at howing
    cases howing
  · exact List.mem_append_right _ hn

theorem countP_owes_singleton (hand : Hand) :
    [hand].countP (Hand.owes firewall) = (hand.owes firewall).toNat := by
  rw [List.countP_singleton]
  cases hand.owes firewall <;> rfl

/-- How many workers will ask for a redeploy, once one of them has gone on. -/
theorem countP_frame :
    (before ++ next.toList ++ after).countP (Hand.owes firewall) + (hand.owes firewall).toNat =
      (before ++ hand :: after).countP (Hand.owes firewall) +
        next.toList.countP (Hand.owes firewall) := by
  rw [← List.singleton_append (l := after)]
  simp only [List.countP_append, countP_owes_singleton]
  omega

/-- A worker goes on that has nothing to do with redeploys. -/
theorem Inv.quiet (h : Inv firewall trace ⟨s, before ++ hand :: after⟩)
    (hkeeps : Keeps firewall s t) (howes : hand.owes firewall = false)
    (hnext : ∀ n ∈ next, n.owes firewall = false ∧
      n.Fits firewall (t.generation firewall) (After Mark.isTook Mark.isPlan trace)) :
    Inv firewall trace ⟨t, before ++ next.toList ++ after⟩ := by
  have h := h.keeps hkeeps
  refine ⟨fun n hn => ?_, h.due, ?_, fun hasked hafter => ?_, h.done⟩
  · rcases mem_of_mem_frame next hn with hn | hn
    · exact (hnext n hn).2
    · exact h.fits n hn
  · have hcount := h.count
    have hframe := @countP_frame firewall before after hand next
    have hnone : next.toList.countP (Hand.owes firewall) = 0 :=
      List.countP_eq_zero.mpr fun n hn =>
        Bool.eq_false_iff.mp (hnext n (Option.mem_toList.mp hn)).1
    rw [howes, hnone] at hframe
    simp only [Bool.toNat_false, Nat.add_zero] at hframe
    rw [← hframe] at hcount
    exact hcount
  · exact (h.owed hasked hafter).imp_right (exists_owing_of_frame next howes)

theorem takeRedeploy_eq_isDue (c : Scene) :
    (c.state.takeRedeploy firewall).1 = c.isDue firewall := by
  unfold Orchestrator.takeRedeploy Scene.isDue Orchestrator.syncState
  cases c.state.syncs.get? firewall <;> rfl

/-- Taking what is due leaves nothing due, and plans nothing. -/
theorem syncState_takeRedeploy (s : Orchestrator) :
    (s.takeRedeploy firewall).2.syncState firewall =
      { s.syncState firewall with redeployDue := false } := by
  unfold Orchestrator.takeRedeploy Orchestrator.syncState
  cases hget : s.syncs.get? firewall with
  | none =>
    simp only [hget]
    rfl
  | some state =>
    simp only [Table.get?_insert, if_pos, Option.getD_some]

/-- What is due is taken. -/
theorem Inv.take (h : Inv firewall trace ⟨s, before ++ hand :: after⟩) {n : Hand}
    (howes : hand.owes firewall = false)
    (hdue : n.owes firewall = (s.takeRedeploy firewall).1)
    (hnext : ∀ newest, n.Fits firewall newest True) :
    Inv firewall (trace ++ [.took]) ⟨(s.takeRedeploy firewall).2, before ++ [n] ++ after⟩ := by
  have htook : After Mark.isTook Mark.isPlan (trace ++ [.took]) := after_concat.mpr (.inl rfl)
  have hafter : Scene.isDue firewall
      ⟨(s.takeRedeploy firewall).2, before ++ [n] ++ after⟩ = false := by
    rw [Scene.isDue, syncState_takeRedeploy]
  have hgeneration : (s.takeRedeploy firewall).2.generation firewall = s.generation firewall := by
    rw [Orchestrator.generation, syncState_takeRedeploy]
    rfl
  rw [takeRedeploy_eq_isDue ⟨s, before ++ hand :: after⟩] at hdue
  constructor
  · intro m hm
    rw [hgeneration]
    rcases mem_of_mem_frame (some n) hm with hm | hm
    · cases hm
      exact (hnext _).mono fun _ => htook
    · exact (h.fits m hm).mono fun _ => htook
  · rw [hafter, after_concat]
    exact ⟨nofun, fun hasked => by rcases hasked with hfalse | ⟨-, hfalse⟩ <;> cases hfalse⟩
  · have hcount := h.count
    have hframe := @countP_frame firewall before after hand (some n)
    have hn : [n].countP (Hand.owes firewall) =
        (Scene.isDue firewall ⟨s, before ++ hand :: after⟩).toNat := by
      rw [countP_owes_singleton, hdue]
    rw [howes, Option.toList_some, hn, Bool.toNat_false, Nat.add_zero] at hframe
    rw [Nat.add_assoc] at hcount
    rw [hafter, countP_concat, countP_concat, hframe]
    exact hcount
  · intro hasked _
    have hasked := asked_of_concat rfl hasked
    cases hwas : Scene.isDue firewall ⟨s, before ++ hand :: after⟩ with
    | true =>
      refine .inr ⟨n, List.mem_append_left _ (List.mem_append_right _ List.mem_cons_self), ?_⟩
      rw [hdue, hwas]
    | false =>
      -- Nothing was asked for since the last time, so that what was is told or owed already.
      have htook : After Mark.isTook Mark.isAsk trace := by
        refine (after_or_after hasked).resolve_left fun hasked => ?_
        rw [h.due.mpr hasked] at hwas
        cases hwas
      rcases h.owed hasked htook with htold | howing
      · exact .inl (after_concat.mpr (.inr ⟨htold, rfl⟩))
      · exact .inr (exists_owing_of_frame (some n) howes howing)
  · exact fun _ => htook

/-- A redeploy is asked for. -/
theorem Inv.tell (h : Inv firewall trace ⟨s, before ++ hand :: after⟩) {n : Hand}
    (howes : hand.owes firewall = true) (hdone : n.owes firewall = false)
    (hnext : n.Fits firewall (s.generation firewall) (After Mark.isTook Mark.isPlan trace)) :
    Inv firewall (trace ++ [.told]) ⟨s, before ++ [n] ++ after⟩ := by
  constructor
  · intro m hm
    rw [after_concat_of_neither rfl rfl]
    rcases mem_of_mem_frame (some n) hm with hm | hm
    · cases hm
      exact hnext
    · exact h.fits m hm
  · rw [after_concat_of_neither rfl rfl]
    exact h.due
  · have hcount := h.count
    have hframe := @countP_frame firewall before after hand (some n)
    rw [howes, Option.toList_some, countP_owes_singleton, hdone] at hframe
    rw [countP_concat, countP_concat]
    simp only [Mark.isTold, Mark.isAsk, Scene.isDue, Bool.toNat_true, Bool.toNat_false]
      at hframe hcount ⊢
    omega
  · exact fun _ _ => .inl (after_concat.mpr (.inl rfl))
  · rw [after_concat_of_neither rfl rfl, after_concat_of_neither rfl rfl]
    exact h.done

/-- The newest sync has succeeded. -/
theorem Inv.succeed (h : Inv firewall trace c) (htaken : After Mark.isTook Mark.isPlan trace) :
    Inv firewall (trace ++ [.succeeded]) c where
  fits := by
    rw [after_concat_of_neither rfl rfl]
    exact h.fits
  due := by
    rw [after_concat_of_neither rfl rfl]
    exact h.due
  count := by
    rw [countP_concat, countP_concat]
    exact h.count
  owed hasked := by
    rw [after_concat_of_neither rfl rfl, after_concat_of_neither rfl rfl]
    exact h.owed (asked_of_concat rfl hasked)
  done _ := (after_concat_of_neither rfl rfl).mpr htaken

/-- A worker goes on. -/
theorem Inv.deed (h : Inv firewall trace ⟨s, before ++ hand :: after⟩) {marks : List Mark}
    (hdeed : Deed firewall (After Mark.isTook Mark.isPlan trace) s hand marks t next) :
    Inv firewall (trace ++ marks) ⟨t, before ++ next.toList ++ after⟩ := by
  cases hdeed with
  | quiet hkeeps howes hnext =>
    rw [List.append_nil]
    exact h.quiet hkeeps howes hnext
  | take howes hdue hnext => exact h.take howes hdue hnext
  | tell howes hdone hnext => exact h.tell howes hdone hnext
  | succeed hkeeps howes htaken =>
    refine Inv.succeed ?_ htaken
    exact h.quiet hkeeps howes fun _ hn => absurd hn (Option.not_mem_none _)

end Steps

/-- **Every step** keeps what is true at all times. -/
theorem Inv.step {c d : Scene} {trace marks : List Mark} (h : Inv firewall trace c)
    (hs : Step firewall c marks d) : Inv firewall (trace ++ marks) d := by
  cases hs with
  | meanwhile hs =>
    rw [List.append_nil]
    exact h.keeps hs
  | plan redeploy => exact h.plan redeploy
  | @take e rest hpick =>
    rw [List.append_nil]
    have h := h.keeps (s := { c.state with scheduler := rest }) rfl
    refine ⟨fun n hn => ?_, h.due, ?_, fun hasked htook => ?_, h.done⟩
    · rcases List.mem_cons.mp hn with rfl | hn
      · exact .picked e true
      · exact h.fits n hn
    · have hnone : ¬ Hand.owes firewall ⟨.picked e, true⟩ = true := Bool.false_ne_true
      rw [List.countP_cons_of_neg hnone]
      exact h.count
    · exact (h.owed hasked htook).imp_right fun ⟨n, hn, howes⟩ =>
        ⟨n, List.mem_cons_of_mem _ hn, howes⟩
  | @work before after hand t s next marks hhand hmove hmarks =>
    obtain ⟨state, hands⟩ := c
    obtain rfl : hands = before ++ hand :: after := hhand
    have hdeed := deed_of_move (h.fits hand (List.mem_append_right _ List.mem_cons_self)) hmove
      hmarks
    exact h.deed hdeed

/-- What is true at all times is true after any run. -/
theorem Run.inv {c d : Scene} {trace : List Mark} (hc : Beginning firewall c)
    (h : Run firewall c trace d) : Inv firewall trace d := by
  induction h with
  | refl => exact inv_of_beginning hc
  | tail _ hs ih => exact ih.step hs

/-! ## Redeploys -/

theorem owes_of_isIdle {c : Scene} (h : c.IsIdle firewall) {hand : Hand} (hhand : hand ∈ c.hands) :
    hand.owes firewall = false := by
  have hnone := h hand hhand
  unfold Hand.owes
  split
  · rename_i heq
    rw [heq, Accounting.Stage.job, Accounting.Stage.entry] at hnone
    rw [hnone]
    rfl
  · rfl

/-- **Redeploys are neither lost nor invented.** After any run a redeploy is due if and only if one
was asked for since the last time that what was due was taken; and the outside was not asked more
often than somebody asked for it. When the newest sync has succeeded and nobody is at work on one,
nothing is due, and the outside was asked since the last time that somebody asked. -/
theorem redeploys_neither_lost_nor_invented {c d : Scene} {trace : List Mark}
    (hc : Beginning firewall c) (hrun : Run firewall c trace d) :
    (d.isDue firewall = true ↔ After Mark.isAsk Mark.isTook trace) ∧
    trace.countP Mark.isTold ≤ trace.countP Mark.isAsk ∧
    (After Mark.isSucceeded Mark.isPlan trace → d.IsIdle firewall →
      d.isDue firewall = false ∧
      ((∃ m ∈ trace, m.isAsk = true) → After Mark.isTold Mark.isAsk trace)) := by
  have h := hrun.inv hc
  refine ⟨h.due, by have hcount := h.count; omega, fun hsucceeded hidle => ?_⟩
  -- What was due when the newest sync was planned has been taken since.
  have htook : After Mark.isTook Mark.isAsk trace :=
    (h.done hsucceeded).mono fun m hm => by
      cases m with
      | planned => rfl
      | _ => cases hm
  refine ⟨Bool.eq_false_iff.mpr fun hdue => ?_, fun hasked => ?_⟩
  · exact not_after_of_after (fun m hm => by cases m <;> first | rfl | cases hm) (fun _ => id)
      htook (h.due.mp hdue)
  · refine (h.owed hasked htook).resolve_right ?_
    rintro ⟨hand, hhand, howes⟩
    rw [owes_of_isIdle hidle hhand] at howes
    cases howes

/-! ### A redeploy that is asked for -/

section Demo

/-- The next step of a process whose calls succeed. -/
def onward {α : Type} (s : Orchestrator) :
    Process Orchestrator α → Orchestrator × Process Orchestrator α
  | .done a => (s, .done a)
  | .atomic update next => (update s, next s)
  | .call _ _ next => (s, next (.ok ""))
  | .callAll _ next => (s, next [])
  | .tell _ next => (s, next (.ok ()))
  | .clock next => (s, next default)
  | .fresh next => (s, next "0")
  | .wait _ next => (s, next)
  | .acquire _ next => (s, next)
  | .release _ next => (s, next)

/-- Some steps of a process whose calls succeed. -/
def proceed {α : Type} : Nat → Orchestrator → Process Orchestrator α →
    Orchestrator × Process Orchestrator α
  | 0, s, p => (s, p)
  | n + 1, s, p => proceed n (onward s p).1 (onward s p).2

/-- Whether what is due stays so in the next step of a process, in a certain state. -/
def leavesDue {α : Type} (firewall : UInt64) : Process Orchestrator α → Bool
  | .atomic update _ =>
    (update { syncs := Table.insert {} firewall ⟨0, true⟩ }).syncs.get? firewall = some ⟨0, true⟩
  | _ => true

/-- Whether the next step of a process has nothing to do with redeploys. -/
def isQuiet {α : Type} (firewall : UInt64) : Process Orchestrator α → Bool
  | .done _ | .tell _ _ => false
  | p => leavesDue firewall p

/-- Whether a process has ended. -/
def hasEnded {α : Type} : Process Orchestrator α → Bool
  | .done _ => true
  | _ => false

/-- Whether some steps of a process have nothing to do with redeploys. -/
def areQuiet {α : Type} (firewall : UInt64) : Nat → Orchestrator → Process Orchestrator α → Bool
  | 0, _, _ => true
  | n + 1, s, p => isQuiet firewall p && areQuiet firewall n (onward s p).1 (onward s p).2

theorem goes_onward {α : Type} {s : Orchestrator} {p : Process Orchestrator α}
    (h : hasEnded p = false) : Goes s p (onward s p).1 (onward s p).2 := by
  cases p with
  | done => cases h
  | tell notice next => exact .tell s notice next _
  | atomic update next => exact .atomic s update next
  | call server c next => exact .call s server c next _
  | callAll calls next => exact .callAll s calls next _
  | clock next => exact .clock s next _
  | fresh next => exact .fresh s next (by decide)
  | wait seconds next => exact .wait s seconds next
  | acquire lock next => exact .acquire s lock next
  | release lock next => exact .release s lock next

theorem not_isTake_of_leavesDue {α : Type} {p : Process Orchestrator α}
    (h : leavesDue firewall p = true) : ¬ IsTake firewall p := by
  rintro ⟨next, rfl⟩
  have hkept := of_decide_eq_true h
  simp [Orchestrator.takeRedeploy, Table.get?_insert] at hkept

theorem marks_of_leavesDue {e : Entry Job} {rest : Process Orchestrator (Except Failure Unit)}
    {isFresh owes succeeds : Bool} {s : Orchestrator} (h : leavesDue firewall rest = true)
    (howes : Hand.owes firewall ⟨.running e rest, isFresh⟩ = owes)
    (hsucceeds : Hand.succeeds firewall (s.generation firewall) ⟨.running e rest, isFresh⟩ =
      succeeds) :
    Marks firewall s ⟨.running e rest, isFresh⟩
      ((if owes then [.told] else []) ++ if succeeds then [.succeeded] else []) := by
  rw [← howes, ← hsucceeds]
  exact .other fun htakes => not_isTake_of_leavesDue h (takes_running_iff.mp htakes)

theorem leavesDue_of_isQuiet {α : Type} {p : Process Orchestrator α}
    (h : isQuiet firewall p = true) : leavesDue firewall p = true := by
  cases p with
  | done | tell => rfl
  | _ => exact h

theorem marks_of_isQuiet {e : Entry Job} {rest : Process Orchestrator (Except Failure Unit)}
    {isFresh : Bool} {s : Orchestrator} (h : isQuiet firewall rest = true) :
    Marks firewall s ⟨.running e rest, isFresh⟩ [] := by
  have hleaves := leavesDue_of_isQuiet h
  cases rest with
  | done | tell => cases h
  | _ => exact marks_of_leavesDue hleaves rfl rfl

theorem hasEnded_of_isQuiet {α : Type} {p : Process Orchestrator α}
    (h : isQuiet firewall p = true) : hasEnded p = false := by
  cases p with
  | done => cases h
  | _ => rfl

/-- The only busy worker goes on. -/
theorem Run.work {c : Scene} {trace marks : List Mark} {s s' : Orchestrator}
    {stage : Stage Orchestrator Job} {isFresh : Bool} {t : Tally Job}
    {next : Option (Stage Orchestrator Job)} (h : Run firewall c trace ⟨s, [⟨stage, isFresh⟩]⟩)
    (hmove : Move Orchestrator.works s stage t s' next)
    (hmarks : Marks firewall s ⟨stage, isFresh⟩ marks) :
    Run firewall c (trace ++ marks) ⟨s', (next.map (⟨·, isFresh⟩)).toList⟩ := by
  have hstep := @Step.work firewall ⟨s, [⟨stage, isFresh⟩]⟩ [] [] _ _ _ _ _ rfl hmove hmarks
  rw [List.nil_append, List.append_nil] at hstep
  exact .tail h hstep

/-- The only busy worker takes some steps that have nothing to do with redeploys. -/
theorem Run.proceed {c : Scene} {trace : List Mark} {e : Entry Job} {isFresh : Bool} {n : Nat}
    {s : Orchestrator} {rest : Process Orchestrator (Except Failure Unit)}
    (h : Run firewall c trace ⟨s, [⟨.running e rest, isFresh⟩]⟩)
    (hlawful : rest.Changes Orchestrator.works.Dispatching)
    (hquiet : areQuiet firewall n s rest = true) :
    Run firewall c trace ⟨(proceed n s rest).1, [⟨.running e (proceed n s rest).2, isFresh⟩]⟩ ∧
      (proceed n s rest).2.Changes Orchestrator.works.Dispatching := by
  induction n generalizing s rest with
  | zero => exact ⟨h, hlawful⟩
  | succ n ih =>
    obtain ⟨hfirst, hothers⟩ := Bool.and_eq_true_iff.mp hquiet
    have hgoes := goes_onward (s := s) (hasEnded_of_isQuiet hfirst)
    obtain ⟨⟨jobs, hjobs⟩, hlawful⟩ := hlawful.of_goes Orchestrator.works.dispatching_refl hgoes
    have hrun := h.work (.run e hgoes hjobs) (marks_of_isQuiet hfirst)
    rw [List.append_nil] at hrun
    exact ih hrun hlawful hothers

/-- The shop, once a worker has been given a sync that asks for a redeploy. -/
def asked : Orchestrator :=
  { (Shop.state.planSync 1 true).2 with scheduler := { issued := 1, pending := 1 } }

def syncEntry : Entry Job where
  job := .sync 1 1
  queue := .security
  retry := Shop.state.settings.deployment.retry

/-- The sync before it takes what is due, and its steps from there. -/
def loaded : Orchestrator × Process Orchestrator (Except Failure Unit) :=
  proceed 10 asked (Deploy.sync 1 1).process

def took : Orchestrator × Process Orchestrator (Except Failure Unit) :=
  onward loaded.1 loaded.2

theorem isTake_loaded : IsTake 1 loaded.2 := by
  have hdue : loaded.2 = (Deploy.redeployIfDue 1 1 >>= fun _ =>
      Task.modify (·.dispatchReload 1) : Deploy.Work Unit).process := by with_unfolding_all rfl
  obtain ⟨next, heq, -⟩ := @taking_redeployIfDue 1 1 1
  exact ⟨next, hdue.trans heq⟩

def told : Orchestrator × Process Orchestrator (Except Failure Unit) :=
  onward took.1 took.2

/-- A sync is carried out that asks for a redeploy: it takes what is due, asks the outside and
succeeds. -/
theorem shop_is_redeployed :
    Beginning 1 ⟨Shop.state, []⟩ ∧
      ∃ d, Run 1 ⟨Shop.state, []⟩ [.planned true, .took, .told, .succeeded] d ∧
        d.hands = [] ∧ d.isDue 1 = false ∧
        After Mark.isTold Mark.isAsk [.planned true, .took, .told, .succeeded] := by
  have hbeginning : Beginning 1 ⟨Shop.state, []⟩ := ⟨rfl, rfl⟩
  have hplanned : Run 1 ⟨Shop.state, []⟩ [.planned true]
      ⟨{ asked with scheduler := { issued := 1, pending := 1, queued := [syncEntry] } }, []⟩ :=
    .tail (.tail (.refl _) (.plan _ true)) (.meanwhile _ rfl)
  have hbegun : Run 1 ⟨Shop.state, []⟩ [.planned true]
      ⟨asked, [⟨.running (syncEntry.begin 0) (Deploy.sync 1 1).process, true⟩]⟩ :=
    (hplanned.tail (.take _ rfl)).work (.begin _ _) (.other fun ⟨_, _, h, _⟩ => nomatch h)
  obtain ⟨hloaded, hlawful⟩ := hbegun.proceed (n := 10)
    (Orchestrator.works_isLawful.handle (.sync 1 1) 1) (by decide +kernel)
  have htake : Goes loaded.1 loaded.2 took.1 took.2 := goes_onward (by decide +kernel)
  obtain ⟨⟨jobs, hjobs⟩, hlawful⟩ := hlawful.of_goes Orchestrator.works.dispatching_refl htake
  have htook : Run 1 ⟨Shop.state, []⟩ [.planned true, .took]
      ⟨took.1, [⟨.running (syncEntry.begin 0) took.2, true⟩]⟩ :=
    hloaded.work (.run _ htake hjobs) (.take (takes_running_iff.mpr isTake_loaded))
  have htell : Goes took.1 took.2 told.1 told.2 := goes_onward (by decide +kernel)
  obtain ⟨⟨jobs, hjobs⟩, hlawful⟩ := hlawful.of_goes Orchestrator.works.dispatching_refl htell
  have htold : Run 1 ⟨Shop.state, []⟩ [.planned true, .took, .told]
      ⟨told.1, [⟨.running (syncEntry.begin 0) told.2, true⟩]⟩ :=
    htook.work (.run _ htell hjobs)
      (@marks_of_leavesDue 1 (syncEntry.begin 0) took.2 true true false took.1
        (by decide +kernel) (by decide +kernel) (by decide +kernel))
  obtain ⟨hended, -⟩ := htold.proceed (n := 1) hlawful (by decide +kernel)
  have hdone : (proceed 1 told.1 told.2).2 = .done (.ok ()) := by with_unfolding_all rfl
  rw [hdone] at hended
  have hsucceeded : Run 1 ⟨Shop.state, []⟩ [.planned true, .took, .told, .succeeded]
      ⟨(Orchestrator.works.settle (syncEntry.begin 0) (.ok ()) (proceed 1 told.1 told.2).1).2,
        []⟩ :=
    hended.work (.complete _ _) (@marks_of_leavesDue 1 (syncEntry.begin 0) (.done (.ok ())) true
      false true _ rfl rfl (by decide +kernel))
  obtain ⟨-, -, hsettled⟩ := redeploys_neither_lost_nor_invented hbeginning hsucceeded
  have hlast : After Mark.isSucceeded Mark.isPlan [.planned true, .took, .told, .succeeded] :=
    ⟨[.planned true, .took, .told], .succeeded, [], rfl, rfl, fun _ h => absurd h List.not_mem_nil⟩
  obtain ⟨hnothing, hpassed⟩ := hsettled hlast fun _ h => absurd h List.not_mem_nil
  exact ⟨hbeginning, _, hsucceeded, rfl, hnothing, hpassed ⟨_, List.mem_cons_self, rfl⟩⟩

end Demo

/-! ## Events -/

theorem Run.append {c d e : Scene} {trace marks : List Mark} (h : Run firewall c trace d)
    (h' : Run firewall d marks e) : Run firewall c (trace ++ marks) e := by
  induction h' with
  | refl =>
    rw [List.append_nil]
    exact h
  | tail _ hs ih =>
    rw [← List.append_assoc]
    exact .tail ih hs

/-- A change of the state by steps that plan syncs, and others that leave syncs alone. -/
def IsPlanning (firewall : UInt64) (s t : Orchestrator) : Prop :=
  ∀ hands, ∃ trace hands', Run firewall ⟨s, hands⟩ trace ⟨t, hands'⟩ ∧
    ∀ m ∈ trace, m.isPlan = true

namespace IsPlanning

theorem of_keeps {s t : Orchestrator} (h : Keeps firewall s t) : IsPlanning firewall s t :=
  fun hands => ⟨[], hands, .tail (.refl _) (.meanwhile _ h), fun _ hm => absurd hm List.not_mem_nil⟩

theorem refl (s : Orchestrator) : IsPlanning firewall s s :=
  of_keeps rfl

theorem trans {s t u : Orchestrator} (h : IsPlanning firewall s t) (h' : IsPlanning firewall t u) :
    IsPlanning firewall s u := by
  intro hands
  obtain ⟨trace, hands, hrun, hplan⟩ := h hands
  obtain ⟨trace', hands', hrun', hplan'⟩ := h' hands
  refine ⟨trace ++ trace', hands', hrun.append hrun', fun m hm => ?_⟩
  exact (List.mem_append.mp hm).elim (hplan m) (hplan' m)

/-- One plan after another. -/
theorem planBoth {s : Orchestrator} {first : Planned} {second : Orchestrator → Planned}
    (h : IsPlanning firewall s first.2) (h' : ∀ t, IsPlanning firewall t (second t).2) :
    IsPlanning firewall s (Orchestrator.planBoth first second).2 :=
  h.trans (h' first.2)

/-- One plan for each of some things. -/
theorem planEach {ι : Type} (plan : ι → Orchestrator → Planned)
    (h : ∀ i t, IsPlanning firewall t (plan i t).2) (is : List ι) {s : Orchestrator}
    (first : Planned) (hfirst : IsPlanning firewall s first.2) :
    IsPlanning firewall s
      (is.foldl (fun first i => Orchestrator.planBoth first (plan i)) first).2 := by
  induction is generalizing first with
  | nil => exact hfirst
  | cons i is ih => exact ih _ (hfirst.planBoth (h i))

theorem planSync (s : Orchestrator) (other : UInt64) (redeploy : Bool) :
    IsPlanning firewall s (s.planSync other redeploy).2 := by
  by_cases hother : other = firewall
  · subst hother
    intro hands
    refine ⟨_, _, .tail (.refl _) (.plan ⟨s, hands⟩ redeploy), fun m hm => ?_⟩
    rw [List.mem_singleton.mp hm]
    rfl
  · exact .of_keeps (keeps_insert hother _)

theorem planSyncIf (wanted : Bool) (s : Orchestrator) (other : UInt64) :
    IsPlanning firewall s (if wanted then s.planSync other true else ([], s)).2 := by
  cases wanted with
  | true => exact planSync s other true
  | false => exact refl s

theorem planRemoval (s : Orchestrator) (server rule : UInt64) (decisions : List Decision) :
    IsPlanning firewall s (s.planRemoval server rule decisions).2 := by
  unfold Orchestrator.planRemoval
  split <;> exact .of_keeps rfl

theorem planDecisions (s : Orchestrator) (other rule : UInt64) :
    IsPlanning firewall s (s.planDecisions other rule).2 :=
  .of_keeps rfl

theorem planAllDecisions (s : Orchestrator) (other : UInt64) (rules : List Rule) :
    IsPlanning firewall s (s.planAllDecisions other rules).2 := by
  unfold Orchestrator.planAllDecisions
  exact planEach (fun rule => (·.planDecisions other rule.id))
    (fun rule t => planDecisions t other rule.id) rules ([], s) (refl s)

/-- **What is planned for an event** is planned by such steps. -/
theorem handleEvent (s : Orchestrator) (e : RuleEvent) :
    IsPlanning firewall s (s.handleEvent e).2 := by
  cases hc : s.contextOf e.firewall with
  | error failure =>
    simp only [Orchestrator.handleEvent, hc]
    exact refl s
  | ok c => cases e with
    | saved id other previous =>
      have hc : s.contextOf other = .ok c := hc
      rw [Orchestrator.handleEvent_saved hc]
      split
      · exact refl s
      split
      · refine (planRemoval s _ _ _).planBoth fun t => planBoth ?_ fun u => planSyncIf _ u other
        split
        · exact planDecisions t other _
        · exact refl t
      · exact refl s
    | deleted rule other =>
      have hc : s.contextOf other = .ok c := hc
      rw [Orchestrator.handleEvent_deleted hc]
      split
      · exact refl s
      · exact (planRemoval s _ _ _).planBoth fun t => planSync t other false
    | firewallChanged other =>
      have hc : s.contextOf other = .ok c := hc
      rw [Orchestrator.handleEvent_firewallChanged hc]
      split
      · exact .of_keeps rfl
      split
      · exact refl s
      · exact planSync s other true

/-- **What is planned when events were lost** is planned by such steps. -/
theorem resync (s : Orchestrator) : IsPlanning firewall s s.resync.2 := by
  unfold Orchestrator.resync
  refine planEach (fun other => (·.resyncOne other)) (fun other t => ?_) s.store.firewallIds
    ([], s) (refl s)
  unfold Orchestrator.resyncOne
  split
  · exact refl t
  split
  · exact of_keeps rfl
  split
  · exact refl t
  · exact (planSync t other true).planBoth fun u => planAllDecisions u other _

end IsPlanning

end Rampart.Redeploy
