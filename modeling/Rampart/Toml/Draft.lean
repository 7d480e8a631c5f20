import Rampart.Json

/-!
# Tables under construction

What has been read of a document so far. A table may be added to as long as it is not closed, and
how it came to be decides who may add to it.

* `Draft.define` gives a key of a table a value; the key may name tables on its way.
* `Draft.openTable` and `Draft.addTable` are what a header does.
* No key is defined twice, and no table that a header has opened is opened or added to by another.
-/

namespace Rampart.Toml

/-- How a table came to be. -/
inductive Origin
  /-- By a header of its own. -/
  | opened
  /-- By a header of a table in it. -/
  | implied
  /-- By a key that names something in it. -/
  | dotted
deriving DecidableEq, Repr

/-- What a key has. -/
inductive Node
  | leaf (value : Json)
  | table (origin : Origin) (members : List (String × Node))
  /-- The tables of headers in two brackets, the last first. -/
  | tables (last : List (String × Node)) (before : List (List (String × Node)))

/-- The members of a table. -/
abbrev Draft := List (String × Node)

namespace Draft

/-- Give a member another value; one that was not there is added. -/
def set (name : String) (node : Node) (d : Draft) : Draft :=
  match d with
  | [] => [(name, node)]
  | member :: members =>
    if member.1 = name then (name, node) :: members else member :: set name node members

/-- Go into tables by a path and change the last one. Keys go only into tables that no header has
opened. -/
def change (byKey : Bool) (f : Origin → Draft → Option Draft) :
    (path : List String) → Origin → Draft → Option Draft
  | [], origin, d => f origin d
  | name :: path, _, d => match d.lookup name with
    | none => do
      let origin : Origin := if byKey then .dotted else .implied
      return d.set name (.table origin (← change byKey f path origin []))
    | some (.table origin members) =>
      if byKey && origin = .opened then none
      else do return d.set name (.table origin (← change byKey f path origin members))
    | some (.tables last before) => do
      return d.set name (.tables (← change byKey f path .opened last) before)
    | some (.leaf _) => none

/-- Add a member that is not there. -/
def add (name : String) (value : Json) (d : Draft) : Option Draft :=
  match d.lookup name with
  | none => some (d.set name (.leaf value))
  | some _ => none

/-- Define a key of a table. -/
def define (path : List String) (name : String) (value : Json) (d : Draft) : Option Draft :=
  if path.isEmpty then d.add name value
  else d.change true (fun origin d => if origin = .dotted then d.add name value else none) path
    .opened

/-- Open a table by its header. -/
def openTable (path : List String) (name : String) (d : Draft) : Option Draft :=
  d.change false (fun _ d => match d.lookup name with
    | none => some (d.set name (.table .opened []))
    | some (.table .implied members) => some (d.set name (.table .opened members))
    | some _ => none) path .opened

/-- Add a table to those of a header in two brackets. -/
def addTable (path : List String) (name : String) (d : Draft) : Option Draft :=
  d.change false (fun _ d => match d.lookup name with
    | none => some (d.set name (.tables [] []))
    | some (.tables last before) => some (d.set name (.tables [] (last :: before)))
    | some _ => none) path .opened

end Draft

mutual

/-- The value of a finished member. -/
def Node.value : Node → Json
  | .leaf value => value
  | .table _ members => .obj (valuesOf members)
  | .tables last before => .arr (tablesOf before [.obj (valuesOf last)])

/-- The values of finished members. -/
def valuesOf : List (String × Node) → List (String × Json)
  | [] => []
  | (name, node) :: members => (name, node.value) :: valuesOf members

/-- Finished tables, the last first, in front of others. -/
def tablesOf : List (List (String × Node)) → List Json → List Json
  | [], others => others
  | members :: before, others => tablesOf before (.obj (valuesOf members) :: others)

end

end Rampart.Toml
