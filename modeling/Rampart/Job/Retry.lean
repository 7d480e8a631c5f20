/-!
# Retry policies

How often a job is tried and how long it waits in between.

* `RetryPolicy.backoffAfter` is the wait after a failed attempt; the last entry repeats.
* `RetryPolicy.next?` is the time of the next attempt, if the policy has one.
-/

namespace Rampart

/-- How often a job is tried, and when. Times are in seconds. -/
structure RetryPolicy where
  /-- Attempts, the first one included. -/
  tries : UInt32
  /-- The wait after each failed attempt. -/
  backoff : List UInt64
  /-- How long after its first attempt a job may start another. -/
  window : Option UInt64
deriving DecidableEq, Repr, Inhabited

namespace RetryPolicy

/-- One attempt. -/
def single : RetryPolicy :=
  ⟨1, [], none⟩

/-- At least one attempt. -/
def ofSeconds (tries : UInt32) (backoff : List UInt64) (window : Option UInt64) : RetryPolicy :=
  ⟨max tries 1, backoff, window⟩

/-- The wait after the attempt of a number; attempts are counted from one. -/
def backoffAfter (p : RetryPolicy) (attempt : Nat) : UInt64 :=
  match p.backoff[attempt - 1]? with
  | some wait => wait
  | none => p.backoff.getLast?.getD 0

/-- When the attempt after a failed one starts, if there is one: `attempt` ended at `now`, and the
first one began at `first`. -/
def next? (p : RetryPolicy) (attempt : Nat) (first now : Nat) : Option Nat :=
  let start := now + (p.backoffAfter attempt).toNat
  if attempt < p.tries.toNat then
    match p.window with
    | some window => if start ≤ first + window.toNat then some start else none
    | none => some start
  else none

end RetryPolicy

end Rampart
