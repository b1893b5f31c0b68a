import LiveQuery.Text.Pieces
import LiveQuery.Url.Basic

/-!
# Reading URLs

A URL is read with or without another one that it is relative to. Blanks around it and line breaks
inside it do not count; in URLs of the usual schemes a backslash is as good as a slash; and a path
is put in order: a name of one dot is left out, and one of two dots takes back the name before it.
-/

namespace LiveQuery.Url

/-- Whether a character does not count at the ends of a URL. -/
def isEdge (c : Char) : Bool := c.toNat ≤ 0x20

/-- A text without what does not count in a URL. -/
def cleaned (cs : List Char) : List Char :=
  let inner := ((cs.dropWhile isEdge).reverse.dropWhile isEdge).reverse
  inner.filter fun c => c ≠ '\t' && c ≠ '\n' && c ≠ '\r'

/-- The scheme of a URL and what follows its colon. -/
def splitScheme (cs : List Char) : Option (String × List Char) :=
  let scheme := cs.takeWhile fun c => c.isAlphanum || c = '+' || c = '-' || c = '.'
  match scheme, cs.drop scheme.length with
  | first :: _, ':' :: rest =>
    if first.isAlpha then some ((String.ofList scheme).toLower, rest) else none
  | _, _ => none

/-- Whether a character separates names, in URLs of the usual schemes or in others. -/
def isSlash (special : Bool) (c : Char) : Bool := c = '/' || (special && c = '\\')

/-! ## Path, query and fragment -/

/-- Whether a name is one dot. -/
def isDot (name : List Char) : Bool :=
  let name := name.map Char.toLower
  name = ['.'] || name = ['%', '2', 'e']

/-- Whether a name is two dots. -/
def isDotDot (name : List Char) : Bool :=
  let name := name.map Char.toLower
  name = ['.', '.'] || name = ['.', '%', '2', 'e'] || name = ['%', '2', 'e', '.']
    || name = ['%', '2', 'e', '%', '2', 'e']

/-- Puts names behind the names before them. The last one stays as an empty name if it is dots. -/
def addNames (before : List String) : List (List Char) → List String
  | [] => before
  | name :: rest =>
    if isDotDot name then
      addNames (if rest.isEmpty then before.dropLast ++ [""] else before.dropLast) rest
    else if isDot name then addNames (if rest.isEmpty then before ++ [""] else before) rest
    else addNames (before ++ [String.ofList (percentEncode inPath name)]) rest

/-- The names of a path behind the names before them. A slash at its start makes no name. -/
def readNames (special : Bool) (before : List String) (cs : List Char) : List String :=
  let cs :=
    match cs with
    | c :: rest => if isSlash special c then rest else c :: rest
    | [] => []
  addNames before (Text.pieces (isSlash special) cs)

/-- What stands in front of the query, the query, and the fragment. -/
def splitEnd (cs : List Char) : List Char × Option (List Char) × Option (List Char) :=
  let body := cs.takeWhile (· ≠ '#')
  let fragment := match cs.drop body.length with
    | _ :: rest => some rest
    | [] => none
  let path := body.takeWhile (· ≠ '?')
  let query := match body.drop path.length with
    | _ :: rest => some rest
    | [] => none
  (path, query, fragment)

/-- A query as it is written. -/
def queryText (special : Bool) (cs : List Char) : String :=
  String.ofList (percentEncode (if special then inQuery else inOtherQuery) cs)

/-- A fragment as it is written. -/
def fragmentText (cs : List Char) : String := String.ofList (percentEncode inFragment cs)

/-! ## Authorities -/

/-- What stands in front of the last at sign, and what behind it. -/
def splitUser (cs : List Char) : Option (List Char) × List Char :=
  let host := (cs.reverse.takeWhile (· ≠ '@')).reverse
  if host.length = cs.length then (none, cs)
  else (some (cs.take (cs.length - host.length - 1)), host)

/-- What stands in front of the first colon, and what behind it. -/
def splitColon (cs : List Char) : List Char × Option (List Char) :=
  let front := cs.takeWhile (· ≠ ':')
  match cs.drop front.length with
  | _ :: rest => (front, some rest)
  | [] => (front, none)

/-- A host and its port; a colon within brackets is part of the host. -/
def splitPort (cs : List Char) : List Char × Option (List Char) :=
  match cs with
  | '[' :: _ =>
    let inside := cs.takeWhile (· ≠ ']')
    let (tail, port) := splitColon (cs.drop inside.length)
    (inside ++ tail, port)
  | _ => splitColon cs

/-- The port that digits spell; none where there are none, or where it is the usual one. -/
def port? (scheme : String) (digits : List Char) : Option (Option Nat) :=
  if !digits.all Char.isDigit then none
  else if digits.isEmpty then some none
  else
    let n := Text.decimal digits
    if 65535 < n then none
    else some (if usualPorts.lookup scheme = some n then none else some n)

/-- Reads what follows the two slashes of an authority. -/
def readAuthority (scheme : String) (special : Bool) (cs : List Char) : Option Url := do
  let (front, query, fragment) := splitEnd cs
  let whole := front.takeWhile fun c => !isSlash special c
  let path := front.drop whole.length
  let (user, hostPort) := splitUser whole
  let (host, port) := splitPort hostPort
  guard (!(host.isEmpty && (special || user.isSome || port.isSome)))
  let host ← if special then Host.ofChars? host else Host.opaqueOfChars? host
  let port ← port? scheme (port.getD [])
  let (name, password) := splitColon (user.getD [])
  let encode (cs : List Char) := String.ofList (percentEncode inUser cs)
  let names := if path.isEmpty ∧ !special then [] else readNames special [] path
  return {
    scheme
    user := encode name
    password := (password.filter (!·.isEmpty)).map encode
    host := some host
    port
    path := .names names
    query := query.map (queryText special)
    fragment := fragment.map fragmentText }

/-- Reads what follows the colon of a URL of files. -/
def readFile (cs : List Char) : Option Url := do
  let (front, query, fragment) := splitEnd cs
  let (host, path) ←
    match front with
    | a :: b :: rest =>
      if isSlash true a && isSlash true b then
        let host := rest.takeWhile fun c => !isSlash true c
        let path := rest.drop host.length
        if host.isEmpty then some (Host.name "", path)
        else do
          let host ← Host.ofChars? host
          some (if host = .name "localhost" then .name "" else host, path)
      else some (Host.name "", front)
    | _ => some (Host.name "", front)
  return {
    scheme := "file"
    user := ""
    password := none
    host := some host
    port := none
    path := .names (readNames true [] path)
    query := query.map (queryText true)
    fragment := fragment.map fragmentText }

/-- Reads what follows the colon of a URL of another scheme. -/
def readOther (scheme : String) (cs : List Char) : Option Url :=
  match cs with
  | '/' :: '/' :: rest => readAuthority scheme false rest
  | _ =>
    let (front, query, fragment) := splitEnd cs
    let path :=
      if front.head? = some '/' then UrlPath.names (readNames false [] front)
      else .opaque_ (String.ofList (percentEncode inControls front))
    some {
      scheme
      user := ""
      password := none
      host := none
      port := none
      path
      query := query.map (queryText false)
      fragment := fragment.map fragmentText }

/-- Reads what follows the colon of a URL that is relative to none. -/
def readScheme (scheme : String) (cs : List Char) : Option Url :=
  if scheme = "file" then readFile cs
  else if isSpecial scheme then readAuthority scheme true (cs.dropWhile (isSlash true))
  else readOther scheme cs

/-- The URL that a text spells. -/
def ofString? (s : String) : Option Url :=
  match splitScheme (cleaned s.toList) with
  | some (scheme, rest) => readScheme scheme rest
  | none => none

/-- Reads a relative URL; the one it is relative to has a usual scheme. -/
def readRelative (base : Url) (cs : List Char) : Option Url :=
  match cs with
  | a :: b :: rest =>
    if isSlash true a && isSlash true b then
      readAuthority base.scheme true (rest.dropWhile (isSlash true))
    else relative
  | _ => relative
where
  /-- The URL beside the other one. -/
  relative : Option Url :=
    let (front, query, fragment) := splitEnd cs
    let before := match base.path with
      | .names names => names
      | .opaque_ _ => []
    let absolute := (front.head?.map (isSlash true)).getD false
    let path :=
      if front.isEmpty then base.path
      else .names (readNames true (if absolute then [] else before.dropLast) front)
    let query := match query with
      | some q => some (queryText true q)
      | none => if front.isEmpty then base.query else none
    some { base with path, query, fragment := fragment.map fragmentText }

/-- The URL that a text spells beside another one, which has a usual scheme. -/
def join? (base : Url) (s : String) : Option Url :=
  let cs := cleaned s.toList
  match splitScheme cs with
  | none => readRelative base cs
  | some (scheme, rest) =>
    let slashes := (rest.take 2).length = 2 && (rest.take 2).all (isSlash true)
    if scheme = base.scheme && !slashes then readRelative base rest else readScheme scheme rest

end LiveQuery.Url
