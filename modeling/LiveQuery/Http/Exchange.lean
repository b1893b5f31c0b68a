import LiveQuery.Http.Head
import LiveQuery.Request
import LiveQuery.Url.Parser

/-!
# Exchanges

A request goes to the server that its URL names, and a reply may send it on to another place. The
exchange is a sequence of hops: `Progress.ofRequest` makes the first one, and `Hop.resume` says,
from what the server did, whether another hop follows or how the exchange ends. Each hop has one
redirection less to go, so an exchange comes to an end.
-/

namespace LiveQuery.Http

/-- Why an exchange brings no reply. -/
inductive Failure where
  /-- The text is no URL. -/
  | unreadable
  /-- The URL is none that a request can be sent to. -/
  | unsupported (url : String)
  /-- No usable reply came. -/
  | unanswered (url : String)
  /-- The body of the reply broke off. -/
  | cutShort
  /-- The URL redirected once too often. -/
  | tooManyRedirects (url : String)
  deriving DecidableEq, Repr

namespace Failure

/-- The words for a failure. -/
def message : Failure → String
  | unreadable => "builder error"
  | unsupported url => s!"builder error for url ({url})"
  | unanswered url => s!"error sending request for url ({url})"
  | cutShort => "error decoding response body"
  | tooManyRedirects url => s!"error following redirect for url ({url})"

/-- A failure as the error of a fetch. -/
def toFetchError (f : Failure) : FetchError := .transport f.message

end Failure

/-- What a server does with a request. -/
inductive Answer where
  /-- Nothing comes back, or nothing that is a reply. -/
  | nothing
  /-- A reply; where its body broke off, there is none. -/
  | reply (head : Head) (body : Option Bytes)
  deriving DecidableEq, Repr

/-- One request of an exchange. -/
structure Hop where
  /-- The URL of the first request, as errors show it. -/
  asked : String
  url : Url
  method : Method
  /-- The body, a JSON text. -/
  body : Option String
  /-- How many redirections may still follow. -/
  redirections : Nat
  deriving DecidableEq, Repr

/-- Where an exchange stands. -/
inductive Progress where
  /-- The hop is to be sent. -/
  | ask (hop : Hop)
  | over (outcome : Except Failure Reply)

/-! ## URLs that requests go to -/

/-- The schemes of URLs that requests go to. -/
def schemes : List String := ["http", "https"]

/-- The longest URL, in octets. -/
def maxUrl : Nat := 65534

/-- Characters that may be part of a host but not of the place that a request names. -/
def isUnsendable (c : Char) : Bool := c = '"' || c = '\x60' || c = '\x7b' || c = '\x7d' || c = '%'

/-- Whether a URL can be written down as the place that a request goes to. One without a host can be
if it looks like a host with a port. -/
def isPlace (u : Url) : Bool :=
  u.text.utf8ByteSize ≤ maxUrl
    && match u.host with
      | some host => !host.text.isEmpty && !host.text.toList.any isUnsendable
      | none =>
        let cs := u.text.toList
        !cs.any (fun c => c = '/' || c = '?' || c = '#' || isUnsendable c) && cs.count ':' = 1

/-- The content type of a body. -/
def contentType : String := "application/json"

/-- How many redirections an exchange follows. -/
def maxRedirections : Nat := 10

/-! ## Hops -/

/-- The start of the exchange for a request. -/
def Progress.ofRequest (r : Request) : Progress :=
  match Url.ofString? r.url with
  | none => .over (.error .unreadable)
  | some url =>
    let url := url.withoutCredentials
    if schemes.contains url.scheme && isPlace url then
      .ask {
        asked := url.text
        url := { url with fragment := none }
        method := r.method
        body := r.body.map Json.compact
        redirections := maxRedirections }
    else .over (.error (.unsupported url.text))

namespace Hop

/-- Where a reply to a hop sends it on to. -/
def location? (h : Hop) (head : Head) : Option Url := do
  let value ← (← head.first? "location").toString?
  let url ← h.url.join? value
  guard (isPlace url)
  return { url with fragment := none }

/-- The hop that follows a redirection. -/
def redirected (h : Hop) (r : Redirection) (url : Url) : Hop :=
  let dropped := r = .get ∨ (r = .unposted ∧ h.method = .post)
  { h with
    url
    method := if dropped then .get else h.method
    body := if dropped then none else h.body
    redirections := h.redirections - 1 }

/-- What follows from a reply that is not sent on. -/
def finish (head : Head) (body : Option Bytes) : Except Failure Reply :=
  match body with
  | some body => .ok (head.reply body)
  | none => if hasBody head.status then .error .cutShort else .ok (head.reply [])

/-- What follows from what the server did. -/
def resume (h : Hop) : Answer → Progress
  | .nothing => .over (.error (.unanswered h.asked))
  | .reply head body =>
    if !head.isUsable then .over (.error (.unanswered h.asked))
    else
      match redirection? head.status, h.location? head with
      | some r, some url =>
        if h.redirections = 0 then .over (.error (.tooManyRedirects h.url.text))
        else if schemes.contains url.scheme then .ask (h.redirected r url)
        else .over (.error (.unsupported url.text))
      | _, _ => .over (finish head body)

/-- Each hop has fewer redirections to go than the one before it. -/
theorem redirections_lt {h next : Hop} {a : Answer} (e : h.resume a = .ask next) :
    next.redirections < h.redirections := by
  unfold resume at e
  split at e
  · exact Progress.noConfusion e
  · split at e
    · exact Progress.noConfusion e
    · split at e
      · split at e
        · exact Progress.noConfusion e
        · split at e
          · injection e with e
            subst e
            simp only [redirected]
            omega
          · exact Progress.noConfusion e
      · exact Progress.noConfusion e

end Hop
end LiveQuery.Http
