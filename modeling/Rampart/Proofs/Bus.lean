import Rampart.Bus

/-!
# What a subscriber has not read

A bus keeps its last events with their numbers, and of every subscriber a position among those
numbers. Seen from a subscriber this is a list of events that grows at the end and is read at the
front, until the subscriber falls behind.

* `Bus.unread`, `Bus.IsBehind`: what a subscriber still gets, and whether something was lost.
* **`publish_unread`**: an event is added for every subscriber, or the subscriber is behind;
  `mem_unread_of_publish`: it gets no others; `publishAll_unread`: several events.
* **`next_cases`**: a subscriber who is behind is told so and is behind no more; any other gets its
  first unread event, or nothing if there is none.
-/

namespace Rampart.Bus

variable {ε : Type}

/-- The number of the oldest event that is held. -/
def oldest (b : Bus ε) : Nat :=
  b.sent - b.held.length

/-- A subscriber who has read nothing that was not sent. -/
structure Follows (b : Bus ε) (name : String) (position : Nat) : Prop where
  lookup : b.subscribers.lookup name = some position
  reached : position ≤ b.sent
  held : b.held.length ≤ b.sent

/-- Events were lost that a subscriber has not read, and it has not been told. -/
def IsBehind (b : Bus ε) (name : String) : Prop :=
  ∃ position, b.subscribers.lookup name = some position ∧ position < b.oldest

/-- The events that a subscriber still gets. -/
def unread (b : Bus ε) (name : String) : List ε :=
  match b.subscribers.lookup name with
  | some position => b.held.drop (position - b.oldest)
  | none => []

namespace Follows

variable {b : Bus ε} {name : String} {position : Nat}

theorem isBehind_iff (h : b.Follows name position) : b.IsBehind name ↔ position < b.oldest := by
  unfold IsBehind
  rw [h.lookup]
  constructor
  · rintro ⟨p, hp, hlt⟩
    rwa [Option.some.inj hp]
  · exact fun hlt => ⟨position, rfl, hlt⟩

theorem unread_eq (h : b.Follows name position) :
    b.unread name = b.held.drop (position - b.oldest) := by
  unfold unread
  rw [h.lookup]

end Follows

/-! ## Publishing -/

/-- Publishing when there is a subscriber. -/
theorem publish_eq {b : Bus ε} {name : String} {position : Nat} (h : b.Follows name position)
    (e : ε) :
    (b.publish e).2 =
      { b with
        published := b.published + 1
        held := (b.held ++ [e]).drop (b.held.length + 1 - b.capacity)
        sent := b.sent + 1 } := by
  have hsome : b.subscribers.isEmpty = false := by
    cases hs : b.subscribers with
    | nil =>
      have hl := h.lookup
      rw [hs] at hl
      cases hl
    | cons _ _ => rfl
  simp [publish, hsome]

theorem publish_follows {b : Bus ε} {name : String} {position : Nat}
    (h : b.Follows name position) (e : ε) : (b.publish e).2.Follows name position := by
  rw [publish_eq h]
  have hreached := h.reached
  have hheld := h.held
  refine ⟨h.lookup, ?_, ?_⟩
  · exact Nat.le_succ_of_le hreached
  · simp only [List.length_drop, List.length_append, List.length_singleton]
    omega

/-- **An event is added for every subscriber, or the subscriber is behind.** -/
theorem publish_unread {b : Bus ε} {name : String} {position : Nat} (h : b.Follows name position)
    {e : ε} (hnot : ¬ (b.publish e).2.IsBehind name) :
    ¬ b.IsBehind name ∧ (b.publish e).2.unread name = b.unread name ++ [e] := by
  rw [(publish_follows h e).isBehind_iff] at hnot
  rw [h.isBehind_iff, (publish_follows h e).unread_eq, h.unread_eq]
  have hreached := h.reached
  have hheld := h.held
  simp only [publish_eq h, oldest, List.length_drop, List.length_append, List.length_singleton,
    List.drop_drop] at hnot ⊢
  refine ⟨by omega, ?_⟩
  rw [← List.drop_append_of_le_length (by omega)]
  congr 1
  omega

/-- What a subscriber gets after an event was published it would have got before, or it is that
event. -/
theorem mem_unread_of_publish {b : Bus ε} {name : String} {position : Nat}
    (h : b.Follows name position) {e event : ε} (hmem : event ∈ (b.publish e).2.unread name) :
    event ∈ b.unread name ∨ event = e := by
  rw [(publish_follows h e).unread_eq] at hmem
  rw [h.unread_eq]
  have hreached := h.reached
  have hheld := h.held
  simp only [publish_eq h, oldest, List.length_drop, List.length_append, List.length_singleton,
    List.drop_drop] at hmem ⊢
  have hle : position - (b.sent - b.held.length) ≤ b.held.length + 1 - b.capacity +
      (position - (b.sent + 1 - (b.held.length + 1 - (b.held.length + 1 - b.capacity)))) := by
    omega
  have hearlier := (List.drop_sublist_drop_left (b.held ++ [e]) hle).subset hmem
  rw [List.drop_append_of_le_length (by omega)] at hearlier
  exact (List.mem_append.mp hearlier).imp_right List.mem_singleton.mp

/-- Publish several events, one after another. -/
def publishAll (b : Bus ε) (es : List ε) : Bus ε :=
  es.foldl (fun b e => (b.publish e).2) b

@[simp] theorem publishAll_nil (b : Bus ε) : b.publishAll [] = b := rfl

@[simp] theorem publishAll_cons (b : Bus ε) (e : ε) (es : List ε) :
    b.publishAll (e :: es) = (b.publish e).2.publishAll es := rfl

theorem publishAll_append (b : Bus ε) (es more : List ε) :
    b.publishAll (es ++ more) = (b.publishAll es).publishAll more :=
  List.foldl_append

/-- **A subscriber who is not behind has all of them before it**, after what it had already. -/
theorem publishAll_unread {name : String} {es : List ε} {b : Bus ε} {position : Nat}
    (h : b.Follows name position) (hnot : ¬ (b.publishAll es).IsBehind name) :
    ¬ b.IsBehind name ∧ (b.publishAll es).unread name = b.unread name ++ es := by
  induction es generalizing b with
  | nil => exact ⟨hnot, (List.append_nil _).symm⟩
  | cons e es ih =>
    obtain ⟨hfirst, hrest⟩ := ih (publish_follows h e) hnot
    obtain ⟨hbefore, hadded⟩ := publish_unread h hfirst
    refine ⟨hbefore, hrest.trans ?_⟩
    rw [hadded, List.append_assoc, List.singleton_append]

/-! ## Reading -/

theorem lookup_moveTo {b : Bus ε} {name : String} {old : Nat}
    (h : b.subscribers.lookup name = some old) (position : Nat) :
    (b.moveTo name position).subscribers.lookup name = some position := by
  unfold moveTo
  generalize b.subscribers = subscribers at h
  induction subscribers with
  | nil => cases h
  | cons entry entries ih =>
    obtain ⟨other, p⟩ := entry
    by_cases hname : name = other
    · subst hname
      simp
    · have hbeq : (name == other) = false := by simp [hname]
      have hne : other ≠ name := fun heq => hname heq.symm
      simp only [List.lookup_cons, hbeq] at h
      simpa [List.lookup_cons, hbeq, hne] using ih h

theorem moveTo_follows {b : Bus ε} {name : String} {old position : Nat}
    (h : b.Follows name old) (hle : position ≤ b.sent) :
    (b.moveTo name position).Follows name position :=
  ⟨lookup_moveTo h.lookup position, hle, h.held⟩

/-- **What a subscriber gets next**: word that events were lost, or its first unread event, or
nothing. -/
theorem next_cases {b : Bus ε} {name : String} {position : Nat} (h : b.Follows name position) :
    (b.IsBehind name ∧ ∃ n after later, b.next name = (.lagged n, after) ∧
      after.Follows name later ∧ ¬ after.IsBehind name ∧ after.unread name = b.unread name) ∨
    (¬ b.IsBehind name ∧ ∃ e after later, b.next name = (.event e, after) ∧
      after.Follows name later ∧ ¬ after.IsBehind name ∧
      b.unread name = e :: after.unread name) ∨
    (¬ b.IsBehind name ∧ b.unread name = [] ∧
      (b.next name = (.waiting, b) ∨ b.next name = (.closed, b))) := by
  have hreached := h.reached
  have hheld := h.held
  rw [h.isBehind_iff, h.unread_eq]
  by_cases hlt : position < b.oldest
  · have hmoved := moveTo_follows h (show b.oldest ≤ b.sent by unfold oldest; omega)
    refine .inl ⟨hlt, b.oldest - position, b.moveTo name b.oldest, b.oldest, ?_, hmoved, ?_, ?_⟩
    · simp only [next, h.lookup]
      exact if_pos hlt
    · rw [hmoved.isBehind_iff]
      exact Nat.lt_irrefl _
    · rw [hmoved.unread_eq, Nat.sub_eq_zero_of_le (Nat.le_of_lt hlt)]
      exact congrArg (List.drop · b.held) (Nat.sub_self _)
  · right
    cases hget : b.held[position - b.oldest]? with
    | some e =>
      obtain ⟨hindex, hvalue⟩ := List.getElem?_eq_some_iff.mp hget
      have hmoved := moveTo_follows h (show position + 1 ≤ b.sent by unfold oldest at *; omega)
      have hnext : b.next name = (.event e, b.moveTo name (position + 1)) := by
        unfold oldest at hlt hget
        simp only [next, h.lookup, if_neg hlt, hget]
      refine .inl ⟨hlt, e, b.moveTo name (position + 1), position + 1, hnext, hmoved, ?_, ?_⟩
      · rw [hmoved.isBehind_iff]
        exact fun hbehind => hlt (Nat.lt_of_succ_lt hbehind)
      · rw [hmoved.unread_eq, List.drop_eq_getElem_cons hindex, hvalue]
        have hmove : position + 1 - (b.moveTo name (position + 1)).oldest =
            position - b.oldest + 1 := Nat.succ_sub (Nat.le_of_not_lt hlt)
        rw [hmove]
        rfl
    | none =>
      have hnext : b.next name = (if b.closed then .closed else .waiting, b) := by
        unfold oldest at hlt hget
        simp only [next, h.lookup, if_neg hlt, hget]
      refine .inr ⟨hlt, List.drop_eq_nil_of_le (List.getElem?_eq_none_iff.mp hget), ?_⟩
      cases hclosed : b.closed <;> simp [hnext, hclosed]

end Rampart.Bus
