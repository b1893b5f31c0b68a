import LiveQuery.Endpoint
import LiveQuery.Filter.Basic

/-!
# Requests

A client knows the base URL of an API. From an endpoint and a filter it makes the request that goes
on the wire; only methods that carry a body take the filter along.
-/

namespace LiveQuery

/-- A request as it is sent. -/
structure Request where
  method : Method
  url : String
  body : Option Json

/-- A client of one API. Its base URL does not end in a slash. -/
structure Client where
  baseUrl : String
  deriving DecidableEq, Repr, Inhabited

namespace Client

/-- A text without the slashes at its end. -/
def trimSlashes (url : String) : String :=
  String.ofList (url.toList.reverse.dropWhile (· = '/')).reverse

/-- The client of the API at a URL. -/
def ofUrl (url : String) : Client := ⟨trimSlashes url⟩

/-- The request that asks an endpoint. -/
def request (c : Client) (e : Endpoint) (filter : Filter) : Request where
  method := e.method
  url := c.baseUrl ++ e.path
  body := if e.method.hasBody then some filter.toJson else none

/-- The client spelled out. -/
def inspect (c : Client) : String :=
  Text.openRecord "ApiClient" [("base_url", Text.quoted c.baseUrl)]

end Client
end LiveQuery
