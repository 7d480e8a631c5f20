/-!
# Event buses

A bus hands every published event to all who subscribe, each at its own pace. It holds only as
many events as its capacity: who falls behind further is told how many were lost, once, and goes
on with the oldest event that is left.

* `Bus.publish` gives the number of subscribers; without any the event is gone.
* `Bus.next` gives a subscriber's next event or lag.
* A closed bus takes no more events, and its subscribers see the rest.
-/

namespace Rampart

/-- A bus of events. -/
structure Bus (ε : Type) where
  /-- How many events are held. -/
  capacity : Nat
  /-- The last events, oldest first. -/
  held : List ε := []
  /-- How many events were handed out, in all. -/
  sent : Nat := 0
  /-- How many events were published, in all. -/
  published : Nat := 0
  /-- Who subscribes, with the number of events before the next one. -/
  subscribers : List (String × Nat) := []
  closed : Bool := false
deriving DecidableEq, Repr

/-- What a subscriber gets. -/
inductive Received (ε : Type)
  | event (e : ε)
  /-- So many events were lost. -/
  | lagged (n : Nat)
  /-- Nothing is there yet. -/
  | waiting
  /-- Nothing will come any more. -/
  | closed
deriving DecidableEq, Repr

namespace Bus

variable {ε : Type}

/-- The least power of two that is at least `n`, within `fuel` doublings of `power`. -/
def powerFrom (n : Nat) : (fuel : Nat) → (power : Nat) → Nat
  | 0, power => power
  | fuel + 1, power => if n ≤ power then power else powerFrom n fuel (2 * power)

/-- A bus that holds at least so many events. -/
def ofCapacity (n : Nat) : Bus ε where
  capacity := powerFrom n n 1

/-- The capacity when nothing else is asked for. -/
def defaultCapacity : Nat := 1024

/-- Publish an event; gives the number of subscribers. -/
def publish (b : Bus ε) (e : ε) : Nat × Bus ε :=
  let b := { b with published := b.published + 1 }
  if b.subscribers.isEmpty then (0, b)
  else
    let held := b.held ++ [e]
    (b.subscribers.length,
     { b with held := held.drop (held.length - b.capacity), sent := b.sent + 1 })

/-- Subscribe under a name, from the next event on. -/
def subscribe (b : Bus ε) (name : String) : Bus ε :=
  { b with subscribers := b.subscribers.filter (·.1 != name) ++ [(name, b.sent)] }

/-- Whether there is a subscriber of a name. -/
def hasSubscriber (b : Bus ε) (name : String) : Bool :=
  b.subscribers.any (·.1 == name)

/-- End a subscription. -/
def unsubscribe (b : Bus ε) (name : String) : Bus ε :=
  { b with subscribers := b.subscribers.filter (·.1 != name) }

/-- Take no more events. -/
def close (b : Bus ε) : Bus ε :=
  { b with closed := true }

/-- Let a subscriber go on at a position. -/
def moveTo (b : Bus ε) (name : String) (position : Nat) : Bus ε :=
  { b with subscribers := b.subscribers.map fun (other, old) =>
      (other, if other = name then position else old) }

/-- What a subscriber gets next. -/
def next (b : Bus ε) (name : String) : Received ε × Bus ε :=
  match b.subscribers.lookup name with
  | none => (.closed, b)
  | some position =>
    let oldest := b.sent - b.held.length
    if position < oldest then (.lagged (oldest - position), b.moveTo name oldest)
    else match b.held[position - oldest]? with
      | some e => (.event e, b.moveTo name (position + 1))
      | none => (if b.closed then .closed else .waiting, b)

/-- The next event of a subscriber; lags are passed over. -/
def nextEvent (b : Bus ε) (name : String) : Received ε × Bus ε :=
  match b.next name with
  | (.lagged _, b) => b.next name
  | (other, b) => (other, b)

end Bus

end Rampart
