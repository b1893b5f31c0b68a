import LiveQuery.Http.Status
import LiveQuery.Named
import LiveQuery.Response

/-!
# Heads of replies

The head of a reply is its status and its headers. A name may come more than once; names are
compared without regard to case. A head that breaks the rules of the protocol makes the whole reply
unusable.
-/

namespace LiveQuery.Http

/-- The head of a reply, as it was sent. -/
structure Head where
  status : Nat
  /-- What the server says about the status. -/
  words : Bytes
  headers : List (Bytes × Bytes)
  deriving DecidableEq, Repr

namespace Head

/-- The most headers that a reply may have. -/
def maxHeaders : Nat := 100

/-- Whether an octet is a blank within a line. -/
def isBlank (b : UInt8) : Bool := b = 0x20 || b = 0x09

/-- Whether an octet may stand in the value of a header or in the words for a status. -/
def isPrintable (b : UInt8) : Bool := b = 0x09 || (0x20 ≤ b && b ≠ 0x7F)

/-- Whether an octet may stand in the name of a header. -/
def isNameOctet (b : UInt8) : Bool :=
  let c := Char.ofNat b.toNat
  c.isAlphanum || "!#$%&'*+-.^_\x60|~".toList.contains c

/-- Whether a reply with this head can be used. -/
def isUsable (h : Head) : Bool :=
  100 ≤ h.status && h.status ≤ 999 && !isInterim h.status && h.words.all isPrintable
    && h.headers.length ≤ maxHeaders
    && h.headers.all fun e => !e.1.isEmpty && e.1.all isNameOctet && e.2.all isPrintable

/-- A value without the blanks around it. -/
def trimmed (value : Bytes) : Bytes :=
  ((value.dropWhile isBlank).reverse.dropWhile isBlank).reverse

/-- The name of a header in lower case. -/
def lowered (name : Bytes) : String :=
  String.ofList (name.map fun b => (Char.ofNat b.toNat).toLower)

/-- The first value of a name. -/
def first? (name : String) (h : Head) : Option Bytes :=
  (h.headers.find? fun e => lowered e.1 = name).map fun e => trimmed e.2

/-- The text of a value that has visible ASCII characters, blanks and tabs only. -/
def visible? (value : Bytes) : Option String :=
  if value.all fun b => isPrintable b && b < 0x80 then
    some (String.ofList (value.map fun b => Char.ofNat b.toNat))
  else none

/-- The headers by their names, each with its last visible value. -/
def visibleHeaders (h : Head) : List (String × String) :=
  (keepAll (h.headers.filterMap fun e => (visible? (trimmed e.2)).map fun v => (lowered e.1, v)))
    |>.mergeSort fun a b => a.1 ≤ b.1

/-- The reply with this head and a body. -/
def reply (h : Head) (body : Bytes) : Reply where
  status := h.status
  statusText := reason h.status
  headers := h.visibleHeaders
  body := if hasBody h.status then body else []

end Head
end LiveQuery.Http
