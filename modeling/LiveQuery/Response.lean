import LiveQuery.Json.Decode
import LiveQuery.Json.Printer

/-!
# Replies, and what is made of them

A reply is what the server sent. Status 200 holds a JSON text, status 204 holds nothing, and every
other status is an error.
-/

namespace LiveQuery

/-- A reply as it arrives. The status is a number of 16 bits; headers are in order of their
names. -/
structure Reply where
  status : Nat
  statusText : String
  headers : List (String × String)
  body : Bytes
  deriving DecidableEq, Repr

/-- Why a fetch gave no response. -/
inductive FetchError where
  /-- The server answered with another status than 200 or 204. -/
  | http (status : Nat) (text : String)
  /-- No answer came. -/
  | transport (why : String)
  /-- No answer came in time. -/
  | timeout (seconds : Nat)
  /-- The body is not a JSON text. -/
  | decode (why : String)
  deriving DecidableEq, Repr, Inhabited

namespace FetchError

/-- The words for an error. -/
def message : FetchError → String
  | http status text => s!"HTTP {status}: {text}"
  | transport why => s!"request failed: {why}"
  | timeout seconds => s!"request timeout after {seconds}s"
  | decode why => s!"invalid response body: {why}"

end FetchError

/-- What a fetch brought. -/
inductive Response where
  | json (value : Json)
  | noContent (reply : Reply)

namespace Response

/-- What a reply means. -/
def ofReply (r : Reply) : Except FetchError Response :=
  if r.status = 200 then
    match Json.ofGlyphs? (Glyph.ofBytes r.body) with
    | .ok v => .ok (.json v)
    | .error e => .error (.decode e.message)
  else if r.status = 204 then .ok (.noContent r)
  else .error (.http r.status r.statusText)

/-- What the outcome of a request means: a reply, or an error on the way. -/
def ofOutcome (outcome : Except FetchError Reply) : Except FetchError Response :=
  outcome.bind ofReply

/-- The status of a response. -/
def status : Response → Nat
  | json _ => 200
  | noContent r => r.status

/-- A response as one JSON value; where there is no content, its status. -/
def toJson : Response → Json
  | json v => v
  | noContent r => .object [("status", .nat r.status)]

/-- The status of a reply and its words. -/
def statusLine (r : Reply) : String := s!"{r.status} {r.statusText}"

/-- A response as it is printed: on one line, or for people. -/
def render (compact : Bool) : Response → String
  | json v => if compact then v.compact else v.pretty
  | noContent r => if compact then (noContent r).toJson.compact else statusLine r

/-- A response in few words: of a list only how long it is. -/
def summary : Response → String
  | json (.array items) => s!"{items.length} items"
  | json v => v.compact
  | noContent r => statusLine r

end Response
end LiveQuery
