import Rampart.Text.Blank
import Rampart.Text.Decimal
import Rampart.Text.Search

/-!
# Routes

Where requests go. A path is cut at its slashes; a part that names something may be written with
escapes, and has to be text once they are undone.

* `Endpoint.ofPath?` finds the endpoint of a path, `Endpoint.methods` the methods that it answers.
-/

namespace Rampart.Api

/-! ## Escapes -/

/-- The value of a digit of base sixteen. -/
def hexValue? (c : Char) : Option Nat :=
  if '0' ≤ c && c ≤ '9' then some (c.toNat - 48)
  else if 'a' ≤ c && c ≤ 'f' then some (c.toNat - 87)
  else if 'A' ≤ c && c ≤ 'F' then some (c.toNat - 55)
  else none

/-- Undo the escapes of a text; a percent sign that begins none stands for itself. -/
def unescape : List Char → List UInt8
  | [] => []
  | '%' :: a :: b :: cs =>
    match hexValue? a, hexValue? b with
    | some a, some b => UInt8.ofNat (16 * a + b) :: unescape cs
    | _, _ => '%'.toUInt8 :: unescape (a :: b :: cs)
  | c :: cs => (String.singleton c).toUTF8.toList ++ unescape cs
termination_by cs => cs.length

/-- The text of a part of a path. -/
def decodePart? (part : List Char) : Option String :=
  String.fromUTF8? ⟨(unescape part).toArray⟩

/-! ## Endpoints -/

/-- A part of a path that names something; none if it is no text. -/
abbrev Part := Option String

/-- What can be asked for. -/
inductive Endpoint
  | health
  | applications
  | firewall (uuid : Part)
  | labels (uuid : Part)
  | rules (uuid : Part)
  | rule (uuid id : Part)
  | scenarios (uuid : Part)
  | audit (uuid : Part)
  | template (uuid key : Part)
  | geoBlock (uuid : Part)
  | alerts (uuid : Part)
  | traffic (uuid : Part)
  | templates
  | servers
  | server (id : Part)
  | reachable (id : Part)
  | trafficRecords
deriving DecidableEq, Repr

/-- The methods that endpoints answer. -/
inductive Method
  | get
  | post
  | put
  | delete
deriving DecidableEq, Repr

namespace Endpoint

/-- The endpoint under an application. -/
def ofApplication? (uuid : Part) : List (List Char) → Option Endpoint
  | [verb] => match String.ofList verb with
    | "firewall" => some (firewall uuid)
    | "labels" => some (labels uuid)
    | "rules" => some (rules uuid)
    | "scenarios" => some (scenarios uuid)
    | "geo-block" => some (geoBlock uuid)
    | "alerts" => some (alerts uuid)
    | "traffic" => some (traffic uuid)
    | _ => none
  | [verb, part] =>
    if part.isEmpty then none
    else match String.ofList verb with
      | "rules" => some (rule uuid (decodePart? part))
      | "scenarios" => if String.ofList part = "audit" then some (audit uuid) else none
      | "templates" => some (template uuid (decodePart? part))
      | _ => none
  | _ => none

/-- The endpoint under the common start of all paths. -/
def ofParts? : List (List Char) → Option Endpoint
  | [] => none
  | [part] => match String.ofList part with
    | "health" => some health
    | "applications" => some applications
    | "templates" => some templates
    | "servers" => some servers
    | "traffic" => some trafficRecords
    | _ => none
  | part :: name :: rest =>
    if name.isEmpty then none
    else match String.ofList part with
      | "applications" => ofApplication? (decodePart? name) rest
      | "servers" => match rest.map String.ofList with
        | [] => some (server (decodePart? name))
        | ["reachable"] => some (reachable (decodePart? name))
        | _ => none
      | _ => none

/-- What all paths start with. -/
def start : List Char := "/api/v1/".toList

/-- The endpoint of a path, which may be followed by a query. -/
def ofPath? (path : String) : Option Endpoint :=
  let cs := path.toList.takeWhile fun c => c != '?' && c != '#'
  match Text.startsWith? start cs with
  | some rest => ofParts? (Text.splitBy (· = '/') rest)
  | none => none

/-- The method that an endpoint answers. -/
def method : Endpoint → Method
  | firewall _ => .put
  | rule _ _ => .delete
  | applications | rules _ | template _ _ | geoBlock _ | servers | reachable _
  | trafficRecords => .post
  | _ => .get

end Endpoint

end Rampart.Api
