/-!
# Traffic counts

How many requests of an application were allowed, denied and challenged.

* `Traffic.ofCounts` refuses counts whose sum exceeds 64 bits, `Traffic.ofReport` also a total
  that is not the sum.
* `Traffic.record` counts one more request and stops at the largest number; `Traffic.all` is the
  sum, which stops there too.
-/

namespace Rampart

/-- What became of a request. -/
inductive Outcome
  | allowed
  /-- Banned. -/
  | denied
  /-- Asked for a captcha. -/
  | challenged
deriving DecidableEq, Repr, Inhabited

namespace Outcome

/-- The name of an outcome. -/
def name : Outcome → String
  | allowed => "allowed"
  | denied => "denied"
  | challenged => "challenged"

/-- Every outcome with its name. -/
def named : List (String × Outcome) :=
  [allowed, denied, challenged].map fun outcome => (outcome.name, outcome)

/-- The outcome of a request with the remediation that the bouncer reports. -/
def ofRemediation : Option String → Outcome
  | some "ban" => denied
  | some "captcha" => challenged
  | _ => allowed

end Outcome

/-- Why counts are refused. -/
inductive TrafficFault
  | totalMismatch (reported computed : UInt64)
  | overflow
deriving DecidableEq, Repr

/-- The message of a fault. -/
def TrafficFault.message : TrafficFault → String
  | totalMismatch reported computed =>
    s!"all_traffic {reported} does not equal allowed+denied+challenged {computed}"
  | overflow => "traffic counter overflow"

/-- Counts of requests by outcome. -/
structure Traffic where
  allowed : UInt64 := 0
  denied : UInt64 := 0
  challenged : UInt64 := 0
deriving DecidableEq, Repr, Inhabited

/-- A sum that stops at the largest number of 64 bits. -/
def saturatingAdd (a b : UInt64) : UInt64 :=
  if a.toNat + b.toNat < UInt64.size then a + b else UInt64.ofNat (UInt64.size - 1)

namespace Traffic

/-- The sum of the counts. -/
def all (t : Traffic) : UInt64 :=
  saturatingAdd (saturatingAdd t.allowed t.denied) t.challenged

/-- Counts whose sum is a number of 64 bits. -/
def ofCounts (allowed denied challenged : UInt64) : Except TrafficFault Traffic :=
  if allowed.toNat + denied.toNat + challenged.toNat < UInt64.size then
    .ok ⟨allowed, denied, challenged⟩
  else .error .overflow

/-- Counts with the reported sum. -/
def ofReport (allowed denied challenged total : UInt64) : Except TrafficFault Traffic := do
  let t ← ofCounts allowed denied challenged
  if t.all = total then return t else throw (.totalMismatch total t.all)

/-- Count one more request. -/
def record (t : Traffic) : Outcome → Traffic
  | .allowed => { t with allowed := saturatingAdd t.allowed 1 }
  | .denied => { t with denied := saturatingAdd t.denied 1 }
  | .challenged => { t with challenged := saturatingAdd t.challenged 1 }

/-- The counts of a series of requests. -/
def ofOutcomes (outcomes : List Outcome) : Traffic :=
  outcomes.foldl record {}

end Traffic

/-! ## Counting for many applications -/

/-- One request, as a server reports it. -/
structure TrafficRecord where
  uuid : String
  /-- Missing when the request was allowed. -/
  remediation : Option String := none
deriving DecidableEq, Repr

/-- The outcome of a reported request. -/
def TrafficRecord.outcome (r : TrafficRecord) : Outcome :=
  .ofRemediation r.remediation

/-- Counts by application. -/
structure TrafficBook where
  entries : List (String × Traffic) := []
deriving DecidableEq, Repr, Inhabited

namespace TrafficBook

/-- Count one more request; a counter starts again after the largest number. -/
def count (t : Traffic) : Outcome → Traffic
  | .allowed => { t with allowed := t.allowed + 1 }
  | .denied => { t with denied := t.denied + 1 }
  | .challenged => { t with challenged := t.challenged + 1 }

/-- Count a request of an application. -/
def record (b : TrafficBook) (uuid : String) (outcome : Outcome) : TrafficBook :=
  let before := (b.entries.lookup uuid).getD {}
  ⟨(uuid, count before outcome) :: b.entries.filter (·.1 != uuid)⟩

/-- Count reported requests. -/
def ingest (b : TrafficBook) (records : List TrafficRecord) : TrafficBook :=
  records.foldl (fun b r => b.record r.uuid r.outcome) b

/-- The counts of an application. -/
def snapshot (b : TrafficBook) (uuid : String) : Except TrafficFault Traffic :=
  match b.entries.lookup uuid with
  | some t => Traffic.ofCounts t.allowed t.denied t.challenged
  | none => .ok {}

end TrafficBook

end Rampart
