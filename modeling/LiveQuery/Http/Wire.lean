import LiveQuery.Http.Exchange

/-!
# Requests and replies in octets

A request is written as a line that says what is asked of which target, headers, a blank line and
the body. A reply is read from everything that the server sends until it hangs up: a line with the
status, headers, a blank line, and a body whose end the headers tell, or that ends with the octets.
-/

namespace LiveQuery.Http

namespace Wire

/-! ## Writing -/

/-- The end of a line. -/
def lineBreak : String := "\r\n"

/-- The place that a request names: the host, and the port unless it is the usual one. -/
def place (url : Url) : String :=
  ((url.host.map Host.text).getD "") ++ ((url.port.map fun p => ":" ++ toString p).getD "")

/-- The headers of a request. -/
def requestHeaders (h : Hop) : List (String × String) :=
  [("host", place h.url), ("accept", "*/*"), ("connection", "close")]
    ++ match h.body with
      | none => []
      | some body =>
        [("content-type", contentType), ("content-length", toString (Bytes.ofString body).length)]

/-- The octets of a request. -/
def request (h : Hop) : Bytes :=
  let head := s!"{h.method.text} {h.url.target} HTTP/1.1"
    :: (requestHeaders h).map fun e => s!"{e.1}: {e.2}"
  Bytes.ofString (String.join (head.map (· ++ lineBreak)) ++ lineBreak ++ h.body.getD "")

/-! ## Reading -/

/-- The octet that ends a line. -/
def lineFeed : UInt8 := 0x0A

/-- The octet that may stand before the end of a line. -/
def carriageReturn : UInt8 := 0x0D

/-- A line without its end, and what follows it. -/
def takeLine (bs : Bytes) : Option (Bytes × Bytes) :=
  let line := bs.takeWhile (· ≠ lineFeed)
  match bs.drop line.length with
  | [] => none
  | _ :: rest =>
    some (if line.getLast? = some carriageReturn then line.dropLast else line, rest)

/-- What follows a line is shorter than what the line was taken from. -/
theorem length_lt_of_takeLine {bs line rest : Bytes} (h : takeLine bs = some (line, rest)) :
    rest.length < bs.length := by
  unfold takeLine at h
  simp only at h
  split at h
  · simp at h
  · rename_i e
    simp only [Option.some.injEq, Prod.mk.injEq] at h
    have hl := congrArg List.length e
    simp only [List.length_drop, List.length_cons] at hl
    rw [← h.2]
    omega

/-- A header: a name, a colon and a value. -/
def readHeader (line : Bytes) : Option (Bytes × Bytes) :=
  let name := line.takeWhile (· ≠ 0x3A)
  match line.drop name.length with
  | [] => none
  | _ :: value => some (name, value)

/-- The headers up to a blank line, and what follows it. -/
def readHeaders (bs : Bytes) : Option (List (Bytes × Bytes) × Bytes) :=
  match _h : takeLine bs with
  | none => none
  | some (line, rest) =>
    if line.isEmpty then some ([], rest)
    else do
      let header ← readHeader line
      let (more, rest) ← readHeaders rest
      return (header :: more, rest)
  termination_by bs.length
  decreasing_by exact length_lt_of_takeLine _h

/-- A number in a base, of digits that take up the whole text. -/
def number? (base : Nat) (digits : Bytes) : Option Nat :=
  if digits.isEmpty then none
  else Host.numberIn base (digits.map fun b => Char.ofNat b.toNat)

/-- The status and the words of the line that a reply starts with. -/
def readStatus (line : Bytes) : Option (Nat × Bytes) :=
  let version := line.takeWhile (· ≠ 0x20)
  let rest := line.drop (version.length + 1)
  let digits := rest.take 3
  if (Bytes.ofString "HTTP/1.").isPrefixOf version && digits.length = 3 then
    (number? 10 digits).map fun status => (status, rest.drop 4)
  else none

/-- A head and what follows it. -/
def readHead (bs : Bytes) : Option (Head × Bytes) := do
  let (line, rest) ← takeLine bs
  let (status, words) ← readStatus line
  let (headers, rest) ← readHeaders rest
  return (⟨status, words, headers⟩, rest)

/-- Leaves out the replies that come before the one that counts; of them there are so many at
most. -/
def skipInterim : Nat → Bytes → Option (Head × Bytes)
  | 0, _ => none
  | n + 1, bs => do
    let (head, rest) ← readHead bs
    if isInterim head.status then skipInterim n rest else some (head, rest)

/-- A body in chunks, each with its length in base 16 on a line before it; an empty one is the
last. -/
def readChunks (bs : Bytes) : Option Bytes :=
  match _h : takeLine bs with
  | none => none
  | some (line, rest) =>
    match number? 16 (Head.trimmed (line.takeWhile (· ≠ 0x3B))) with
    | none => none
    | some 0 => some []
    | some size =>
      if rest.length < size + 2 then none
      else (readChunks (rest.drop (size + 2))).map (rest.take size ++ ·)
  termination_by bs.length
  decreasing_by
    have := length_lt_of_takeLine _h
    simp only [List.length_drop]
    omega

/-- A body, if it is all there. -/
def readBody (head : Head) (bs : Bytes) : Option Bytes :=
  if !hasBody head.status then some []
  else if (head.first? "transfer-encoding").isSome then readChunks bs
  else
    match head.first? "content-length" with
    | none => some bs
    | some length =>
      match number? 10 length with
      | none => none
      | some n => if bs.length < n then none else some (bs.take n)

/-- What a server has sent until it hung up. -/
def answer (bs : Bytes) : Answer :=
  match skipInterim bs.length bs with
  | none => .nothing
  | some (head, rest) => .reply head (readBody head rest)

end Wire
end LiveQuery.Http
