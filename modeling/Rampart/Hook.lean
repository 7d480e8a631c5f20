import Rampart.Json.Encode
import Rampart.Process
import Rampart.Server.Wire
import Rampart.Time.Wire

/-!
# Hooks

What the outside is told, as the content of a request to a web address.

* `Notice.payload` is what is sent for a notice.
* `Hook.result` is what a notice ends with, by the answer to the request: only a redeploy can fail.
-/

namespace Rampart

open Json (member)

/-- What is sent for a notice; the token identifies the request. -/
def Notice.payload (token : String) (now : Instant) : Notice → Json
  | .redeploy application rebuild => .obj [member "application_id" application,
      member "correlation_id" token, member "force_rebuild" rebuild,
      member "reason" "FIREWALL_RULES_CHANGED", member "timestamp" now]
  | .failed server component failure => .obj [member "reason" "SECURITY_COMPONENT_INSTALL_FAILED",
      member "timestamp" now, member "server_id" server.id, member "server_name" server.name,
      member "component" component, member "error" failure.message]

namespace Hook

/-- The phrases of answers, by their status. -/
def phrases : List (Nat × String) :=
  [(100, "Continue"), (101, "Switching Protocols"), (102, "Processing"), (200, "OK"),
   (201, "Created"), (202, "Accepted"), (203, "Non Authoritative Information"),
   (204, "No Content"), (205, "Reset Content"), (206, "Partial Content"), (207, "Multi-Status"),
   (208, "Already Reported"), (226, "IM Used"), (300, "Multiple Choices"),
   (301, "Moved Permanently"), (302, "Found"), (303, "See Other"), (304, "Not Modified"),
   (305, "Use Proxy"), (307, "Temporary Redirect"), (308, "Permanent Redirect"),
   (400, "Bad Request"), (401, "Unauthorized"), (402, "Payment Required"), (403, "Forbidden"),
   (404, "Not Found"), (405, "Method Not Allowed"), (406, "Not Acceptable"),
   (407, "Proxy Authentication Required"), (408, "Request Timeout"), (409, "Conflict"),
   (410, "Gone"), (411, "Length Required"), (412, "Precondition Failed"),
   (413, "Payload Too Large"), (414, "URI Too Long"), (415, "Unsupported Media Type"),
   (416, "Range Not Satisfiable"), (417, "Expectation Failed"), (418, "I'm a teapot"),
   (421, "Misdirected Request"), (422, "Unprocessable Entity"), (423, "Locked"),
   (424, "Failed Dependency"), (426, "Upgrade Required"), (428, "Precondition Required"),
   (429, "Too Many Requests"), (431, "Request Header Fields Too Large"),
   (451, "Unavailable For Legal Reasons"), (500, "Internal Server Error"),
   (501, "Not Implemented"), (502, "Bad Gateway"), (503, "Service Unavailable"),
   (504, "Gateway Timeout"), (505, "HTTP Version Not Supported"),
   (506, "Variant Also Negotiates"), (507, "Insufficient Storage"), (508, "Loop Detected"),
   (510, "Not Extended"), (511, "Network Authentication Required")]

/-- A status with its phrase. -/
def statusText (status : Nat) : String :=
  s!"{status} {(phrases.lookup status).getD unknown}"
where
  /-- The phrase of any other status. -/
  unknown : String := "<unknown status code>"

/-- An answer to a request. -/
structure Reply where
  status : Nat
  body : String
deriving DecidableEq, Repr

/-- Whether an answer is a good one. -/
def Reply.isSuccess (r : Reply) : Bool := 200 ≤ r.status && r.status < 300

/-- What a notice ends with: nobody is told that the news of a failure was not taken. -/
def result : Notice → Except Failure Reply → Except Failure Unit
  | .failed _ _ _, _ => .ok ()
  | .redeploy _ _, .error failure => .error failure
  | .redeploy _ _, .ok reply =>
    if reply.isSuccess then .ok ()
    else .error (.transport s!"redeploy webhook returned {statusText reply.status}: {reply.body}")

end Hook

end Rampart
