import LiveQuery.Url.Host

/-!
# URLs

A URL in its parts, every part as it is written in the text of the URL.
-/

namespace LiveQuery

/-- What follows the authority, or the scheme where there is none. -/
inductive UrlPath where
  /-- Names, each behind a slash. -/
  | names (names : List String)
  /-- A text without structure. -/
  | opaque_ (text : String)
  deriving DecidableEq, Repr

/-- A URL. -/
structure Url where
  scheme : String
  user : String
  password : Option String
  host : Option Host
  /-- The port, unless it is the usual one. -/
  port : Option Nat
  path : UrlPath
  query : Option String
  fragment : Option String
  deriving DecidableEq, Repr

namespace Url

/-- The usual ports of the schemes whose URLs always have a host. -/
def usualPorts : List (String × Nat) :=
  [("http", 80), ("https", 443), ("ws", 80), ("wss", 443), ("ftp", 21)]

/-- Whether a scheme always has a host, or stands for files. -/
def isSpecial (scheme : String) : Bool :=
  (usualPorts.lookup scheme).isSome || scheme = "file"

/-- The text of a path. -/
def pathText : UrlPath → String
  | .names names => String.join (names.map ("/" ++ ·))
  | .opaque_ text => text

/-- The path and the query, as they are asked for. -/
def target (u : Url) : String :=
  pathText u.path ++ ((u.query.map ("?" ++ ·)).getD "")

/-- The user and the password in front of a host. -/
def credentials (u : Url) : String :=
  if u.user.isEmpty ∧ u.password.isNone then ""
  else u.user ++ ((u.password.map (":" ++ ·)).getD "") ++ "@"

/-- The host and what belongs to it. -/
def authority (u : Url) : String :=
  match u.host with
  | some host =>
    "//" ++ u.credentials ++ host.text ++ ((u.port.map fun p => ":" ++ toString p).getD "")
  | none =>
    match u.path with
    | .names ("" :: _ :: _) => "/."
    | _ => ""

/-- The text of a URL. -/
def text (u : Url) : String :=
  u.scheme ++ ":" ++ u.authority ++ u.target ++ ((u.fragment.map ("#" ++ ·)).getD "")

/-- The port that is asked. -/
def portOrUsual (u : Url) : Nat := u.port.getD ((usualPorts.lookup u.scheme).getD 0)

/-- The URL without user and password. -/
def withoutCredentials (u : Url) : Url := { u with user := "", password := none }

end Url
end LiveQuery
